import Erase.Web.Session

namespace Web

-- The same page with another host and an earlier trace.
def Page.carry {σ ε : Type} (f : σ → σ) (earlier : List (Nat × ε)) (page : Page σ ε) : Page σ ε :=
  { page with host := f page.host, trace := earlier ++ page.trace }

-- A change of the host that the session does not notice.
structure Options.Frame {σ ε : Type} (options : Options σ ε) (f : σ → σ) : Prop where
  hasData : ∀ host, options.hasData (f host) = options.hasData host
  hideImmediately : ∀ host, options.hideImmediately (f host) = options.hideImmediately host
  warning : ∀ seconds host, options.warning seconds (f host) = f (options.warning seconds host)
  clock : ∀ seconds host, options.clock seconds (f host) = f (options.clock seconds host)
  clear : ∀ reason host,
    options.clear reason (f host) = (f (options.clear reason host).1, (options.clear reason host).2)

namespace Page

variable {σ ε : Type} {f : σ → σ} {earlier : List (Nat × ε)} {page : Page σ ε}

theorem carry_emit (entry : ε)
    : (page.carry f earlier).emit entry = (page.emit entry).carry f earlier := by
  unfold emit carry
  rw [List.append_assoc]

end Page

namespace Options.Frame

variable {σ ε : Type} {options : Options σ ε} {f : σ → σ} {earlier : List (Nat × ε)}

open Page

theorem clear_carry (h : options.Frame f) (page : Page σ ε) (reason : ClearReason)
    : (page.carry f earlier).clear options reason = (page.clear options reason).carry f earlier := by
  unfold Page.clear carry
  simp only [h.warning, h.clock, h.clear, List.append_assoc]

theorem expire_carry (h : options.Frame f) (page : Page σ ε)
    : (page.carry f earlier).expire options
        = ((page.expire options).1, (page.expire options).2.carry f earlier) := by
  unfold Page.expire
  rw [h.clear_carry]
  by_cases hexpired : page.session.deadline ≠ 0 ∧ page.session.deadline ≤ page.now
  . rw [if_pos hexpired]
    exact if_pos hexpired
  . rw [if_neg hexpired]
    exact if_neg hexpired

theorem valid_carry (h : options.Frame f) (page : Page σ ε) (ticket : Ticket)
    : (page.carry f earlier).valid options ticket
        = ((page.valid options ticket).1, (page.valid options ticket).2.carry f earlier) := by
  unfold Page.valid
  rw [h.expire_carry]
  by_cases hstale : ticket.generation ≠ page.session.generation
  . rw [if_pos hstale]
    exact if_pos hstale
  . rw [if_neg hstale]
    apply (if_neg hstale).trans
    rcases page.expire options with ⟨_ | _, page'⟩
    . rfl
    . rfl

theorem ticket_carry (h : options.Frame f) (page : Page σ ε)
    : (page.carry f earlier).ticket options
        = ((page.ticket options).1, (page.ticket options).2.carry f earlier) := by
  unfold Page.ticket
  rw [h.expire_carry]
  rfl

theorem check_carry (h : options.Frame f) (page : Page σ ε)
    : (page.carry f earlier).check options = (page.check options).carry f earlier := by
  have hexpire := @expire_carry _ _ _ _ earlier h
    { page with session := { page.session with timer := none } }
  unfold Page.check
  dsimp only at hexpire ⊢
  rw [show { page.carry f earlier with session := { (page.carry f earlier).session with timer := none } }
    = Page.carry f earlier { page with session := { page.session with timer := none } } from rfl, hexpire]
  rcases Page.expire options { page with session := { page.session with timer := none } }
    with ⟨_ | _, page'⟩
  . dsimp only
    unfold carry Page.modify
    dsimp only
    rw [h.hasData]
    split
    . simp only [h.warning, h.clock]
    . simp only [h.warning, h.clock]
  . rfl

theorem touchAt_carry (h : options.Frame f) (page : Page σ ε) (time : Nat)
    : (page.carry f earlier).touchAt options time = (page.touchAt options time).carry f earlier := by
  unfold Page.touchAt
  rw [← h.check_carry]
  unfold carry
  dsimp only
  rw [h.hasData]

theorem touch_carry (h : options.Frame f) (page : Page σ ε)
    : (page.carry f earlier).touch options = (page.touch options).carry f earlier :=
  h.touchAt_carry page page.now

theorem keep_carry (h : options.Frame f) (page : Page σ ε) (isTrusted : Bool)
    : (page.carry f earlier).keep options isTrusted = (page.keep options isTrusted).carry f earlier := by
  unfold Page.keep
  rw [h.expire_carry]
  by_cases hignored : (!isTrusted || page.hidden) = true
  . rw [if_pos hignored]
    exact if_pos hignored
  . rw [if_neg hignored]
    apply (if_neg hignored).trans
    rcases page.expire options with ⟨_ | _, page'⟩
    . exact h.touch_carry page'
    . rfl

theorem activity_carry (h : options.Frame f) (page : Page σ ε) (isTrusted : Bool)
    : (page.carry f earlier).activity options isTrusted
        = (page.activity options isTrusted).carry f earlier := by
  unfold Page.activity
  rw [h.expire_carry]
  by_cases hignored : (!page.attached || !isTrusted || page.hidden) = true
  . rw [if_pos hignored]
    exact if_pos hignored
  . rw [if_neg hignored]
    apply (if_neg hignored).trans
    rcases page.expire options with ⟨_ | _, page'⟩
    . dsimp only
      rw [h.touchAt_carry]
      rfl
    . rfl

theorem microtask_carry (h : options.Frame f) (page : Page σ ε) (index : Nat)
    : (page.carry f earlier).microtask options index
        = (page.microtask options index).carry f earlier := by
  unfold Page.microtask
  rw [show (page.carry f earlier).microtasks = page.microtasks from rfl]
  cases page.microtasks[index]? with
  | none => rfl
  | some queued =>
    have hexpire := @expire_carry _ _ _ _ earlier h
      { page with microtasks := page.microtasks.eraseIdx index }
    dsimp only at hexpire ⊢
    by_cases hstale : queued.1 ≠ page.session.generation ∨ page.hidden = true
    . rw [if_pos hstale]
      exact if_pos hstale
    . rw [if_neg hstale]
      apply (if_neg hstale).trans
      rw [show { page.carry f earlier with microtasks := page.microtasks.eraseIdx index }
        = Page.carry f earlier { page with microtasks := page.microtasks.eraseIdx index } from rfl, hexpire]
      rcases Page.expire options { page with microtasks := page.microtasks.eraseIdx index }
        with ⟨_ | _, page'⟩
      . exact h.touchAt_carry page' _
      . rfl

theorem visibility_carry (h : options.Frame f) (page : Page σ ε) (hidden : Bool)
    : (page.carry f earlier).visibility options hidden
        = (page.visibility options hidden).carry f earlier := by
  have hcarry : (page.carry f earlier).visibility options hidden
      = if !page.attached then Page.carry f earlier { page with hidden }
        else if hidden && options.hideImmediately (f page.host) then
          (Page.carry f earlier { page with hidden }).clear options .hidden
        else if !hidden then (Page.carry f earlier { page with hidden }).check options
        else Page.carry f earlier { page with hidden } := rfl
  rw [hcarry, h.hideImmediately, h.clear_carry, h.check_carry]
  unfold Page.visibility
  simp only [apply_ite (Page.carry f earlier)]

theorem fire_carry (h : options.Frame f) (page : Page σ ε)
    : (page.carry f earlier).fire options = (page.fire options).carry f earlier := by
  unfold Page.fire
  rw [h.check_carry]
  dsimp only [carry]
  cases page.session.timer with
  | none => rfl
  | some due => exact (apply_ite (Page.carry f earlier) _ _ _).symm

theorem leave_carry (h : options.Frame f) (page : Page σ ε)
    : (page.carry f earlier).leave options = (page.leave options).carry f earlier := by
  unfold Page.leave
  rw [h.clear_carry, apply_ite (Page.carry f earlier)]
  rfl

theorem restore_carry (h : options.Frame f) (page : Page σ ε) (persisted : Bool)
    : (page.carry f earlier).restore options persisted
        = (page.restore options persisted).carry f earlier := by
  unfold Page.restore
  rw [h.clear_carry, apply_ite (Page.carry f earlier)]
  rfl

theorem destroy_carry (h : options.Frame f) (page : Page σ ε)
    : (page.carry f earlier).destroy options = (page.destroy options).carry f earlier :=
  h.clear_carry { page with attached := false } .navigation

theorem dispatch_carry (h : options.Frame f) (page : Page σ ε) (event : SessionEvent)
    : (page.carry f earlier).dispatch options event = (page.dispatch options event).carry f earlier := by
  cases event with
  | tick elapsed => rfl
  | timer => exact h.fire_carry page
  | activity isTrusted => exact h.activity_carry page isTrusted
  | microtask index => exact h.microtask_carry page index
  | keep isTrusted => exact h.keep_carry page isTrusted
  | visibility hidden => exact h.visibility_carry page hidden
  | pagehide => exact h.leave_carry page
  | pageshow persisted => exact h.restore_carry page persisted
  | clear => exact h.clear_carry page .manual
  | destroy => exact h.destroy_carry page

end Options.Frame

end Web
