import Mathlib.Data.List.Basic

namespace Web

inductive ClearReason where
  | manual
  | expired
  | hidden
  | navigation
  deriving DecidableEq, Repr

def clearedText : ClearReason → String
  | .expired =>
    "Local data cleared after five minutes of inactivity. Server retention and copies made elsewhere are unchanged."
  | .hidden => "Local view cleared when this tab became hidden."
  | _ => "Local data cleared. Server retention and copies made elsewhere are unchanged."

-- A signal is aborted as soon as the session has another controller.
structure Ticket where
  generation : Nat
  signal : Nat
  deriving DecidableEq, Repr

structure SensitiveSession where
  generation : Nat
  controller : Nat
  deadline : Nat
  timer : Option Nat
  deriving DecidableEq, Repr

def SensitiveSession.new : SensitiveSession where
  generation := 0
  controller := 0
  deadline := 0
  timer := none

structure Options (σ ε : Type) where
  hasData : σ → Bool
  clear : ClearReason → σ → σ × List ε
  warning : Nat → σ → σ
  clock : Nat → σ → σ
  hideImmediately : σ → Bool

-- A tab that runs each handler to completion, at one reading of the clock. Its trace stamps every
-- entry with the generation.
structure Page (σ ε : Type) where
  now : Nat
  hidden : Bool
  attached : Bool
  microtasks : List (Nat × Nat)
  session : SensitiveSession
  host : σ
  trace : List (Nat × ε)

inductive SessionEvent where
  | tick (elapsed : Nat)
  | timer
  | activity (isTrusted : Bool)
  | microtask (index : Nat)
  | keep (isTrusted : Bool)
  | visibility (hidden : Bool)
  | pagehide
  | pageshow (persisted : Bool)
  | clear
  | destroy
  deriving DecidableEq

namespace Page

variable {σ ε : Type}

def emit (entry : ε) (page : Page σ ε) : Page σ ε :=
  { page with trace := page.trace ++ [(page.session.generation, entry)] }

theorem foldl_emit (entries : List ε) (page : Page σ ε)
    : entries.foldl (fun page entry => page.emit entry) page
        = { page with trace := page.trace ++ entries.map fun entry => (page.session.generation, entry) } := by
  induction entries generalizing page with
  | nil => simp
  | cons entry entries ih =>
    rw [List.foldl_cons, ih]
    simp [emit]

def modify (f : σ → σ) (page : Page σ ε) : Page σ ε := { page with host := f page.host }

section

variable (options : Options σ ε)

def clear (reason : ClearReason) (page : Page σ ε) : Page σ ε :=
  let session := {
    generation := page.session.generation + 1
    controller := page.session.controller + 1
    deadline := 0
    timer := none }
  let (host, entries) := options.clear reason (options.clock 0 (options.warning 0 page.host))
  { page with session, host, trace := page.trace ++ entries.map fun entry => (session.generation, entry) }

def expire (page : Page σ ε) : Bool × Page σ ε :=
  if page.session.deadline ≠ 0 ∧ page.session.deadline ≤ page.now then
    (true, page.clear options .expired)
  else
    (false, page)

def check (page : Page σ ε) : Page σ ε :=
  let page := { page with session := { page.session with timer := none } }
  match page.expire options with
  | (true, page) => page
  | (false, page) =>
    if page.session.deadline = 0 ∨ options.hasData page.host = false then
      let page := { page with session := { page.session with deadline := 0 } }
      page.modify fun host => options.clock 0 (options.warning 0 host)
    else
      let left := page.session.deadline - page.now
      let warning := if left ≤ 30000 then (left + 999) / 1000 else 0
      let page := page.modify fun host => options.clock ((left + 999) / 1000) (options.warning warning host)
      { page with session := { page.session with timer := some (page.now + min left 1000) } }

def touchAt (time : Nat) (page : Page σ ε) : Page σ ε :=
  let deadline := if options.hasData page.host then time + 300000 else 0
  { page with session := { page.session with deadline } }.check options

def touch (page : Page σ ε) : Page σ ε := page.touchAt options page.now

def ticket (page : Page σ ε) : Ticket × Page σ ε :=
  let (_, page) := page.expire options
  ({ generation := page.session.generation, signal := page.session.controller }, page)

def valid (ticket : Ticket) (page : Page σ ε) : Bool × Page σ ε :=
  if ticket.generation ≠ page.session.generation then
    (false, page)
  else
    match page.expire options with
    | (true, page) => (false, page)
    | (false, page) => (ticket.signal = page.session.controller, page)

def keep (isTrusted : Bool) (page : Page σ ε) : Page σ ε :=
  if !isTrusted || page.hidden then page
  else
    match page.expire options with
    | (true, page) => page
    | (false, page) => page.touch options

def activity (isTrusted : Bool) (page : Page σ ε) : Page σ ε :=
  if !page.attached || !isTrusted || page.hidden then page
  else
    match page.expire options with
    | (true, page) => page
    | (false, page) =>
      let generation := page.session.generation
      let time := page.now
      let page := page.touchAt options time
      { page with microtasks := page.microtasks ++ [(generation, time)] }

def microtask (index : Nat) (page : Page σ ε) : Page σ ε :=
  match page.microtasks[index]? with
  | none => page
  | some (generation, time) =>
    let page := { page with microtasks := page.microtasks.eraseIdx index }
    if generation ≠ page.session.generation ∨ page.hidden = true then page
    else
      match page.expire options with
      | (true, page) => page
      | (false, page) => page.touchAt options time

def visibility (hidden : Bool) (page : Page σ ε) : Page σ ε :=
  let page := { page with hidden }
  if !page.attached then page
  else if hidden && options.hideImmediately page.host then page.clear options .hidden
  else if !hidden then page.check options
  else page

def leave (page : Page σ ε) : Page σ ε :=
  if page.attached then page.clear options .navigation else page

def restore (persisted : Bool) (page : Page σ ε) : Page σ ε :=
  if page.attached && persisted then page.clear options .navigation else page

def fire (page : Page σ ε) : Page σ ε :=
  match page.session.timer with
  | none => page
  | some due => if due ≤ page.now then page.check options else page

def destroy (page : Page σ ε) : Page σ ε :=
  { page with attached := false }.clear options .navigation

def dispatch : SessionEvent → Page σ ε → Page σ ε
  | .tick elapsed => fun page => { page with now := page.now + elapsed }
  | .timer => fire options
  | .activity isTrusted => activity options isTrusted
  | .microtask index => microtask options index
  | .keep isTrusted => keep options isTrusted
  | .visibility hidden => visibility options hidden
  | .pagehide => leave options
  | .pageshow persisted => restore options persisted
  | .clear => clear options .manual
  | .destroy => destroy options

end

def Live (page : Page σ ε) : Prop := ¬(page.session.deadline ≠ 0 ∧ page.session.deadline ≤ page.now)

section

variable {options : Options σ ε} {page page' : Page σ ε}

theorem expire_eq_false (h : page.expire options = (false, page')) : page = page' ∧ page.Live := by
  unfold expire at h
  split at h
  . cases h
  . next hlive =>
    cases h
    exact ⟨rfl, hlive⟩

theorem expire_eq_true (h : page.expire options = (true, page'))
    : page' = page.clear options .expired := by
  unfold expire at h
  split at h
  . cases h
    rfl
  . cases h

theorem expire_of_live (h : page.Live) : page.expire options = (false, page) := by
  unfold expire
  exact if_neg h

-- A check that finds data sets the timer for the time that is left.
theorem check_of_live (hlive : page.Live) (hdeadline : page.session.deadline ≠ 0)
    (h : options.hasData page.host = true) {left : Nat}
    (hleft : page.session.deadline - page.now = left)
    : page.check options = { page with
        session := { page.session with timer := some (page.now + min left 1000) }
        host := options.clock ((left + 999) / 1000)
          (options.warning (if left ≤ 30000 then (left + 999) / 1000 else 0) page.host) } := by
  have hlive : Live { page with session := { page.session with timer := none } } := hlive
  unfold check
  dsimp only
  rw [expire_of_live hlive]
  dsimp only
  rw [if_neg (by simp [h, hdeadline]), hleft]
  rfl

theorem touch_of_hasData (h : options.hasData page.host = true)
    : page.touch options = { page with
        session := { page.session with deadline := page.now + 300000, timer := some (page.now + 1000) }
        host := options.clock 300 (options.warning 0 page.host) } := by
  have hlive : Live { page with session := { page.session with deadline := page.now + 300000 } } := by
    unfold Live
    dsimp only
    omega
  unfold touch touchAt
  rw [if_pos h, check_of_live hlive (Nat.add_one_ne_zero _) h (Nat.add_sub_cancel_left _ _)]
  rfl

theorem ticket_of_live (h : page.Live)
    : page.ticket options = (⟨page.session.generation, page.session.controller⟩, page) := by
  unfold ticket expire
  rw [if_neg h]

theorem valid_of_live {ticket : Ticket} (hgeneration : ticket.generation = page.session.generation)
    (hsignal : ticket.signal = page.session.controller) (h : page.Live)
    : page.valid options ticket = (true, page) := by
  unfold valid
  rw [if_neg (not_not.mpr hgeneration), expire_of_live h]
  dsimp only
  rw [hsignal, decide_eq_true rfl]

theorem valid_of_stale {ticket : Ticket} (h : ticket.generation ≠ page.session.generation)
    : page.valid options ticket = (false, page) := by
  unfold valid
  rw [if_pos h]

theorem valid_of_expired {ticket : Ticket} (h : ticket.generation = page.session.generation)
    (hexpired : ¬page.Live) : page.valid options ticket = (false, page.clear options .expired) := by
  unfold valid expire
  rw [if_neg (not_not.mpr h), if_pos (not_not.mp hexpired)]

theorem valid_eq_true {ticket : Ticket} (h : page.valid options ticket = (true, page'))
    : page = page' ∧ page.Live ∧ ticket.generation = page.session.generation := by
  unfold valid at h
  split at h
  . cases h
  . next hgeneration =>
    split at h
    . cases h
    . next hexpire =>
      rcases expire_eq_false hexpire with ⟨rfl, hlive⟩
      exact ⟨congrArg Prod.snd h, hlive, not_not.mp hgeneration⟩

theorem stale_of_valid_eq_false {ticket : Ticket} (h : page.valid options ticket = (false, page'))
    (hsignal : ticket.signal = ticket.generation)
    (hcontroller : page.session.controller = page.session.generation)
    : ticket.generation ≠ page'.session.generation := by
  unfold valid at h
  split at h
  . next hstale =>
    cases h
    exact hstale
  . next hcurrent =>
    have hcurrent := not_not.mp hcurrent
    split at h
    . next hexpire =>
      cases h
      rw [expire_eq_true hexpire, hcurrent]
      exact Nat.ne_of_lt (Nat.lt_succ_self _)
    . next hexpire =>
      rcases expire_eq_false hexpire with ⟨rfl, -⟩
      simp only [hsignal, hcurrent, hcontroller, decide_true, Prod.mk.injEq, Bool.true_eq_false,
        false_and] at h

end

end Page

-- What the timers, the listeners and the tickets of a session keep, on a document that stays as it is.
structure Options.Kept {σ ε : Type} (options : Options σ ε) (P : Page σ ε → Prop) : Prop where
  clear : ∀ {page : Page σ ε} reason, P page → P (page.clear options reason)
  ambient : ∀ {page : Page σ ε} now microtasks, P page → P { page with now, microtasks }
  schedule : ∀ {page : Page σ ε} deadline timer,
    P page → P { page with session := { page.session with deadline, timer } }
  warning : ∀ {page : Page σ ε} seconds, P page → P (page.modify (options.warning seconds))
  clock : ∀ {page : Page σ ε} seconds, P page → P (page.modify (options.clock seconds))

namespace Options.Kept

variable {σ ε : Type} {options : Options σ ε} {P : Page σ ε → Prop} {page page' : Page σ ε}

theorem expire (h : options.Kept P) (hpage : P page) {expired : Bool}
    (hexpire : page.expire options = (expired, page')) : P page' := by
  cases expired with
  | true =>
    rw [Page.expire_eq_true hexpire]
    exact h.clear _ hpage
  | false =>
    rw [← (Page.expire_eq_false hexpire).1]
    exact hpage

theorem valid (h : options.Kept P) (hpage : P page) {ticket : Ticket} {isValid : Bool}
    (hvalid : page.valid options ticket = (isValid, page')) : P page' := by
  unfold Page.valid at hvalid
  split at hvalid
  . cases hvalid
    exact hpage
  . split at hvalid
    . next hexpire =>
      cases hvalid
      exact h.expire hpage hexpire
    . next hexpire =>
      cases hvalid
      exact h.expire hpage hexpire

theorem ticket (h : options.Kept P) (hpage : P page) : P (page.ticket options).2 :=
  h.expire hpage rfl

theorem check (h : options.Kept P) (hpage : P page) : P (page.check options) := by
  have huntimed := h.schedule page.session.deadline none hpage
  unfold Page.check
  dsimp only
  split
  . next hexpire => exact h.expire huntimed hexpire
  . next hexpire =>
    have hlive := h.expire huntimed hexpire
    split
    . exact h.clock 0 (h.warning 0 (h.schedule 0 _ hlive))
    . exact h.schedule _ _ (h.clock _ (h.warning _ hlive))

theorem touchAt (h : options.Kept P) (hpage : P page) (time : Nat)
    : P (page.touchAt options time) :=
  h.check (h.schedule _ page.session.timer hpage)

theorem keep (h : options.Kept P) (hpage : P page) (isTrusted : Bool)
    : P (page.keep options isTrusted) := by
  unfold Page.keep
  split
  . exact hpage
  . split
    . next hexpire => exact h.expire hpage hexpire
    . next hexpire => exact h.touchAt (h.expire hpage hexpire) _

theorem activity (h : options.Kept P) (hpage : P page) (isTrusted : Bool)
    : P (page.activity options isTrusted) := by
  unfold Page.activity
  split
  . exact hpage
  . split
    . next hexpire => exact h.expire hpage hexpire
    . next hexpire => exact h.ambient _ _ (h.touchAt (h.expire hpage hexpire) _)

theorem microtask (h : options.Kept P) (hpage : P page) (index : Nat)
    : P (page.microtask options index) := by
  unfold Page.microtask
  split
  . exact hpage
  . have hremoved := h.ambient page.now (page.microtasks.eraseIdx index) hpage
    dsimp only
    split
    . exact hremoved
    . split
      . next hexpire => exact h.expire hremoved hexpire
      . next hexpire => exact h.touchAt (h.expire hremoved hexpire) _

theorem leave (h : options.Kept P) (hpage : P page) : P (page.leave options) := by
  unfold Page.leave
  split
  . exact h.clear _ hpage
  . exact hpage

theorem restore (h : options.Kept P) (hpage : P page) (persisted : Bool)
    : P (page.restore options persisted) := by
  unfold Page.restore
  split
  . exact h.clear _ hpage
  . exact hpage

theorem fire (h : options.Kept P) (hpage : P page) : P (page.fire options) := by
  unfold Page.fire
  split
  . exact hpage
  . split
    . exact h.check hpage
    . exact hpage

end Options.Kept

-- What the timers, the listeners and the tickets of a session keep.
structure Options.Invariant {σ ε : Type} (options : Options σ ε) (P : Page σ ε → Prop) : Prop where
  clear : ∀ {page : Page σ ε} reason, P page → P (page.clear options reason)
  ambient : ∀ {page : Page σ ε} now hidden attached microtasks,
    P page → P { page with now, hidden, attached, microtasks }
  schedule : ∀ {page : Page σ ε} deadline timer,
    P page → P { page with session := { page.session with deadline, timer } }
  warning : ∀ {page : Page σ ε} seconds, P page → P (page.modify (options.warning seconds))
  clock : ∀ {page : Page σ ε} seconds, P page → P (page.modify (options.clock seconds))

namespace Options.Invariant

variable {σ ε : Type} {options : Options σ ε} {P : Page σ ε → Prop} {page page' : Page σ ε}

theorem kept (h : options.Invariant P) : options.Kept P where
  clear := h.clear
  ambient now microtasks := h.ambient now _ _ microtasks
  schedule := h.schedule
  warning := h.warning
  clock := h.clock

theorem expire (h : options.Invariant P) (hpage : P page) {expired : Bool}
    (hexpire : page.expire options = (expired, page')) : P page' := h.kept.expire hpage hexpire

theorem valid (h : options.Invariant P) (hpage : P page) {ticket : Ticket} {isValid : Bool}
    (hvalid : page.valid options ticket = (isValid, page')) : P page' := h.kept.valid hpage hvalid

theorem ticket (h : options.Invariant P) (hpage : P page) : P (page.ticket options).2 :=
  h.kept.ticket hpage

theorem check (h : options.Invariant P) (hpage : P page) : P (page.check options) := h.kept.check hpage

theorem touchAt (h : options.Invariant P) (hpage : P page) (time : Nat)
    : P (page.touchAt options time) := h.kept.touchAt hpage time

theorem keep (h : options.Invariant P) (hpage : P page) (isTrusted : Bool)
    : P (page.keep options isTrusted) := h.kept.keep hpage isTrusted

theorem activity (h : options.Invariant P) (hpage : P page) (isTrusted : Bool)
    : P (page.activity options isTrusted) := h.kept.activity hpage isTrusted

theorem microtask (h : options.Invariant P) (hpage : P page) (index : Nat)
    : P (page.microtask options index) := h.kept.microtask hpage index

theorem visibility (h : options.Invariant P) (hpage : P page) (hidden : Bool)
    : P (page.visibility options hidden) := by
  have hshown := h.ambient page.now hidden page.attached page.microtasks hpage
  unfold Page.visibility
  dsimp only
  split
  . exact hshown
  . split
    . exact h.clear _ hshown
    . split
      . exact h.check hshown
      . exact hshown

theorem leave (h : options.Invariant P) (hpage : P page) : P (page.leave options) := h.kept.leave hpage

theorem restore (h : options.Invariant P) (hpage : P page) (persisted : Bool)
    : P (page.restore options persisted) := h.kept.restore hpage persisted

theorem fire (h : options.Invariant P) (hpage : P page) : P (page.fire options) := h.kept.fire hpage

theorem destroy (h : options.Invariant P) (hpage : P page) : P (page.destroy options) :=
  h.clear _ (h.ambient page.now page.hidden false page.microtasks hpage)

theorem dispatch (h : options.Invariant P) (hpage : P page) (event : SessionEvent)
    : P (page.dispatch options event) := by
  cases event with
  | tick elapsed => exact h.ambient _ _ _ _ hpage
  | timer => exact h.fire hpage
  | activity isTrusted => exact h.activity hpage isTrusted
  | microtask index => exact h.microtask hpage index
  | keep isTrusted => exact h.keep hpage isTrusted
  | visibility hidden => exact h.visibility hpage hidden
  | pagehide => exact h.leave hpage
  | pageshow persisted => exact h.restore hpage persisted
  | clear => exact h.clear _ hpage
  | destroy => exact h.destroy hpage

end Options.Invariant

end Web
