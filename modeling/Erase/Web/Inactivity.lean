import Erase.Library.Runs
import Erase.Web.Session

/-!
The inactivity bound of a session: how far its deadline and its timer reach, whatever its controller does.
-/

namespace Web

variable {σ ε : Type}

def SessionEvent.isAction : SessionEvent → Bool
  | .activity isTrusted => isTrusted
  | .keep isTrusted => isTrusted
  | _ => false

-- What neither moves the clock nor belongs to an input.
def SessionEvent.isPlain : SessionEvent → Bool
  | .tick _ => false
  | .activity _ => false
  | .microtask _ => false
  | _ => true

-- Clearing leaves no data, and neither the warning nor the clock is data.
structure Options.Sensitive (options : Options σ ε) : Prop where
  clear : ∀ reason host, options.hasData (options.clear reason host).1 = false
  warning : ∀ seconds host, options.hasData (options.warning seconds host) = options.hasData host
  clock : ∀ seconds host, options.hasData (options.clock seconds host) = options.hasData host

-- How a handler that starts on `start` leaves the session. Unless `started`, there may be data without a
-- deadline.
structure Covered (options : Options σ ε) (started : Bool) (start : Page σ ε) (limit : Nat)
    (page : Page σ ε)
    : Prop where
  now : page.now = start.now
  microtasks : page.microtasks = start.microtasks
  deadline : page.session.deadline ≤ limit
  idle : page.session.deadline = 0 → page.session.timer = none
  timer : page.session.deadline ≠ 0 → ∃ due, page.session.timer = some due
    ∧ due ≤ page.session.deadline ∧ (start.session.timer = some due ∨ due ≤ start.now + 1000)
  data : started = true → options.hasData page.host = true → page.session.deadline ≠ 0

namespace Covered

variable {options : Options σ ε} {started : Bool} {start page page' : Page σ ε} {limit : Nat}

-- The host changes without getting data.
theorem same (h : Covered options started start limit page) (hnow : page'.now = page.now)
    (hmicrotasks : page'.microtasks = page.microtasks)
    (hdeadline : page'.session.deadline = page.session.deadline)
    (htimer : page'.session.timer = page.session.timer)
    (hdata : options.hasData page'.host = true → options.hasData page.host = true)
    : Covered options started start limit page' where
  now := hnow.trans h.now
  microtasks := hmicrotasks.trans h.microtasks
  deadline := by
    rw [hdeadline]
    exact h.deadline
  idle := by
    rw [hdeadline, htimer]
    exact h.idle
  timer := by
    rw [hdeadline, htimer]
    exact h.timer
  data hstarted hpresent := by
    rw [hdeadline]
    exact h.data hstarted (hdata hpresent)

theorem emit (h : Covered options started start limit page) (entry : ε)
    : Covered options started start limit (page.emit entry) :=
  h.same rfl rfl rfl rfl id

theorem modify (h : Covered options started start limit page) {f : σ → σ}
    (hdata : options.hasData (f page.host) = true → options.hasData page.host = true)
    : Covered options started start limit (page.modify f) :=
  h.same rfl rfl rfl rfl hdata

theorem clear_of (hsensitive : options.Sensitive) (hnow : page.now = start.now)
    (hmicrotasks : page.microtasks = start.microtasks) (reason : ClearReason)
    : Covered options started start limit (page.clear options reason) where
  now := hnow
  microtasks := hmicrotasks
  deadline := Nat.zero_le _
  idle _ := rfl
  timer hdeadline := absurd rfl hdeadline
  data _ hpresent := by
    have hnone : options.hasData (page.clear options reason).host = false := hsensitive.clear reason _
    rw [hnone] at hpresent
    cases hpresent

theorem clear (hsensitive : options.Sensitive) (h : Covered options started start limit page)
    (reason : ClearReason) : Covered options started start limit (page.clear options reason) :=
  clear_of hsensitive h.now h.microtasks reason

theorem expire (hsensitive : options.Sensitive) (h : Covered options started start limit page)
    {expired : Bool}
    (hexpire : page.expire options = (expired, page')) : Covered options started start limit page' := by
  cases expired with
  | true =>
    rw [Page.expire_eq_true hexpire]
    exact h.clear hsensitive .expired
  | false =>
    rw [← (Page.expire_eq_false hexpire).1]
    exact h

theorem valid (hsensitive : options.Sensitive) (h : Covered options started start limit page)
    {ticket : Ticket}
    {isValid : Bool} (hvalid : page.valid options ticket = (isValid, page'))
    : Covered options started start limit page' := by
  unfold Page.valid at hvalid
  split at hvalid
  . cases hvalid
    exact h
  . split at hvalid
    . next hexpire =>
      cases hvalid
      exact h.expire hsensitive hexpire
    . next hexpire =>
      cases hvalid
      exact h.expire hsensitive hexpire

theorem ticket (hsensitive : options.Sensitive) (h : Covered options started start limit page)
    : Covered options started start limit (page.ticket options).2 :=
  h.expire hsensitive rfl

-- A check sets the timer anew, so it need not be set before.
theorem check_of (hsensitive : options.Sensitive) (hnow : page.now = start.now)
    (hmicrotasks : page.microtasks = start.microtasks) (hdeadline : page.session.deadline ≤ limit)
    (hdata : started = true → options.hasData page.host = true → page.session.deadline ≠ 0)
    : Covered options started start limit (page.check options) := by
  unfold Page.check
  dsimp only
  split
  . next hexpire =>
    rw [Page.expire_eq_true hexpire]
    exact clear_of hsensitive hnow hmicrotasks .expired
  . next hexpire =>
    rcases Page.expire_eq_false hexpire with ⟨rfl, hlive⟩
    dsimp only
    split
    . next hidle =>
      constructor
      . exact hnow
      . exact hmicrotasks
      . exact Nat.zero_le _
      . exact fun _ => rfl
      . exact fun hne => absurd rfl hne
      . intro hstarted hpresent
        have hpresent : options.hasData (options.clock 0 (options.warning 0 page.host)) = true := hpresent
        rw [hsensitive.clock, hsensitive.warning] at hpresent
        rcases hidle with hzero | hnone
        . exact absurd hzero (hdata hstarted hpresent)
        . cases hpresent.symm.trans hnone
    . next hbusy =>
      have hlive : ¬(page.session.deadline ≠ 0 ∧ page.session.deadline ≤ page.now) := hlive
      have hne : page.session.deadline ≠ 0 := fun hzero => hbusy (.inl hzero)
      constructor
      . exact hnow
      . exact hmicrotasks
      . exact hdeadline
      . exact fun hzero => absurd hzero hne
      . intro _
        refine ⟨_, rfl, ?_, .inr ?_⟩
        . dsimp only [Page.modify]
          omega
        . dsimp only [Page.modify]
          omega
      . exact fun _ _ => hne

theorem check (hsensitive : options.Sensitive) (h : Covered options started start limit page)
    : Covered options started start limit (page.check options) :=
  check_of hsensitive h.now h.microtasks h.deadline h.data

-- Touching finds out about data that has come without a deadline.
theorem touchAt (hsensitive : options.Sensitive) (hnow : page.now = start.now)
    (hmicrotasks : page.microtasks = start.microtasks) {time : Nat} (htime : time + 300000 ≤ limit)
    : Covered options started start limit (page.touchAt options time) := by
  unfold Page.touchAt
  apply check_of hsensitive
  . exact hnow
  . exact hmicrotasks
  . dsimp only
    split
    . exact htime
    . exact Nat.zero_le _
  . intro _ hpresent
    have hpresent : options.hasData page.host = true := hpresent
    dsimp only
    rw [if_pos hpresent]
    omega

theorem keep (hsensitive : options.Sensitive) (h : Covered options started start limit page)
    (hlimit : start.now + 300000 ≤ limit) (isTrusted : Bool)
    : Covered options started start limit (page.keep options isTrusted) := by
  unfold Page.keep
  split
  . exact h
  . split
    . next hexpire => exact h.expire hsensitive hexpire
    . next hexpire =>
      have hcovered := h.expire hsensitive hexpire
      apply touchAt hsensitive hcovered.now hcovered.microtasks
      rw [hcovered.now]
      exact hlimit

theorem visibility (hsensitive : options.Sensitive) (h : Covered options started start limit page)
    (hidden : Bool)
    : Covered options started start limit (page.visibility options hidden) := by
  have hshown : Covered options started start limit { page with hidden } := h.same rfl rfl rfl rfl id
  unfold Page.visibility
  dsimp only
  split
  . exact hshown
  . split
    . exact hshown.clear hsensitive .hidden
    . split
      . exact hshown.check hsensitive
      . exact hshown

theorem leave (hsensitive : options.Sensitive) (h : Covered options started start limit page)
    : Covered options started start limit (page.leave options) := by
  unfold Page.leave
  split
  . exact h.clear hsensitive .navigation
  . exact h

theorem restore (hsensitive : options.Sensitive) (h : Covered options started start limit page)
    (persisted : Bool)
    : Covered options started start limit (page.restore options persisted) := by
  unfold Page.restore
  split
  . exact h.clear hsensitive .navigation
  . exact h

theorem fire (hsensitive : options.Sensitive) (h : Covered options started start limit page)
    : Covered options started start limit (page.fire options) := by
  unfold Page.fire
  split
  . exact h
  . split
    . exact h.check hsensitive
    . exact h

theorem destroy (hsensitive : options.Sensitive) (h : Covered options started start limit page)
    : Covered options started start limit (page.destroy options) := by
  unfold Page.destroy
  apply clear_of hsensitive
  . exact h.now
  . exact h.microtasks

theorem dispatch (hsensitive : options.Sensitive) (h : Covered options started start limit page)
    {event : SessionEvent} (hplain : event.isPlain = true)
    (hlimit : event.isAction = true → start.now + 300000 ≤ limit)
    : Covered options started start limit (page.dispatch options event) := by
  cases event with
  | timer => exact h.fire hsensitive
  | keep isTrusted =>
    cases isTrusted with
    | true => exact h.keep hsensitive (hlimit rfl) true
    | false => exact h
  | visibility hidden => exact h.visibility hsensitive hidden
  | pagehide => exact h.leave hsensitive
  | pageshow persisted => exact h.restore hsensitive persisted
  | clear => exact h.clear hsensitive .manual
  | destroy => exact h.destroy hsensitive
  | _ => cases hplain

theorem queue (h : Covered options started start limit page) (microtasks : List (Nat × Nat))
    : Covered options started { start with microtasks } limit { page with microtasks } :=
  ⟨h.now, rfl, h.deadline, h.idle, h.timer, h.data⟩

-- The microtask of a listener looks for data that a binding has written since.
theorem microtask (hsensitive : options.Sensitive) {time : Nat}
    (hmicrotasks : page.microtasks = [(page.session.generation, time)]) (hvisible : page.hidden = false)
    (htime : time + 300000 ≤ limit)
    : Covered options started { page with microtasks := [] } limit (page.microtask options 0) := by
  unfold Page.microtask
  rw [hmicrotasks]
  dsimp only [List.getElem?_cons_zero, List.eraseIdx]
  rw [if_neg (by simp [hvisible])]
  split
  . next hexpire =>
    rw [Page.expire_eq_true hexpire]
    apply clear_of hsensitive
    . rfl
    . rfl
  . next hexpire =>
    rcases Page.expire_eq_false hexpire with ⟨rfl, -⟩
    apply touchAt hsensitive
    . rfl
    . rfl
    . exact htime

end Covered

namespace Page

variable {options : Options σ ε} {page : Page σ ε}

theorem touch_of_no_data (h : options.hasData page.host = false)
    : page.touch options = { page with
        session := { page.session with deadline := 0, timer := none }
        host := options.clock 0 (options.warning 0 page.host) } := by
  have hlive : Live { page with session := { page.session with deadline := 0, timer := none } } := by
    simp [Live]
  unfold touch touchAt check
  dsimp only
  rw [if_neg (by simp [h]), expire_of_live hlive]
  dsimp only
  rw [if_pos (.inl rfl)]
  rfl

theorem touch_frame (options : Options σ ε) (page : Page σ ε)
    : (page.touch options).session.generation = page.session.generation
        ∧ (page.touch options).hidden = page.hidden ∧ (page.touch options).microtasks = page.microtasks := by
  cases hdata : options.hasData page.host with
  | true => simp [touch_of_hasData hdata]
  | false => simp [touch_of_no_data hdata]

theorem activity_of_live (hattached : page.attached = true) (hvisible : page.hidden = false)
    (hlive : page.Live)
    : page.activity options true = { page.touch options with
        microtasks := page.microtasks ++ [(page.session.generation, page.now)] } := by
  unfold activity
  rw [if_neg (by simp [hattached, hvisible]), expire_of_live hlive]
  dsimp only
  rw [← (touch_frame options page).2.2]
  rfl

theorem activity_of_expired (hattached : page.attached = true) (hvisible : page.hidden = false)
    (hexpired : ¬page.Live) : page.activity options true = page.clear options .expired := by
  unfold activity expire
  rw [if_neg (by simp [hattached, hvisible]), if_pos (not_not.mp hexpired)]

theorem live_touch (options : Options σ ε) (page : Page σ ε) : (page.touch options).Live := by
  cases hdata : options.hasData page.host with
  | true =>
    rw [touch_of_hasData hdata]
    unfold Live
    dsimp only
    omega
  | false =>
    rw [touch_of_no_data hdata]
    simp [Live]

theorem hasData_touch (hsensitive : options.Sensitive) (page : Page σ ε)
    : options.hasData (page.touch options).host = options.hasData page.host := by
  cases hdata : options.hasData page.host with
  | true =>
    rw [touch_of_hasData hdata]
    exact (hsensitive.clock _ _).trans ((hsensitive.warning _ _).trans hdata)
  | false =>
    rw [touch_of_no_data hdata]
    exact (hsensitive.clock _ _).trans ((hsensitive.warning _ _).trans hdata)

theorem microtask_of_live (hmicrotasks : page.microtasks = [(page.session.generation, page.now)])
    (hvisible : page.hidden = false) (hlive : page.Live)
    : page.microtask options 0 = { page with microtasks := [] }.touch options := by
  have hlive : Live { page with microtasks := [] } := hlive
  unfold microtask
  rw [hmicrotasks]
  dsimp only [List.getElem?_cons_zero, List.eraseIdx]
  rw [if_neg (by simp [hvisible]), expire_of_live hlive]
  rfl

theorem activity_ignored {isTrusted : Bool}
    (h : page.attached = false ∨ isTrusted = false ∨ page.hidden = true)
    : page.activity options isTrusted = page := by
  unfold activity
  rw [if_pos]
  rcases h with h | h | h <;> simp [h]

end Page

-- A run, with the time of its last action and the time since which the timer is set as it is. Only a check
-- sets the timer, so that the last check is no earlier.
structure Watch (σ ε : Type) where
  page : Page σ ε
  action : Nat
  checked : Nat

def Watch.start (page : Page σ ε) : Watch σ ε where
  page := page
  action := page.now
  checked := page.now

def Watch.step {α : Type} (handle : Page σ ε → α → Page σ ε) (isAction : α → Bool) (watch : Watch σ ε)
    (event : α) : Watch σ ε :=
  let page := handle watch.page event
  { page
    action := if isAction event then watch.page.now else watch.action
    checked := if page.session.timer = watch.page.session.timer then watch.checked else watch.page.now }

def Watch.run {α : Type} (handle : Page σ ε → α → Page σ ε) (isAction : α → Bool) (watch : Watch σ ε)
    (events : List α) : Watch σ ε :=
  events.foldl (Watch.step handle isAction) watch

theorem Watch.run_page {α : Type} (handle : Page σ ε → α → Page σ ε) (isAction : α → Bool)
    (watch : Watch σ ε)
    (events : List α) : (watch.run handle isAction events).page = events.foldl handle watch.page := by
  induction events generalizing watch with
  | nil => rfl
  | cons event events ih => exact ih (watch.step handle isAction event)

-- Where the deadline and the timer stand between two handlers.
structure Guarded (options : Options σ ε) (started : Bool) (watch : Watch σ ε) : Prop where
  action : watch.action ≤ watch.page.now
  deadline : watch.page.session.deadline ≤ watch.action + 300000
  idle : watch.page.session.deadline = 0 → watch.page.session.timer = none
  timer : watch.page.session.deadline ≠ 0 → ∃ due, watch.page.session.timer = some due
    ∧ due ≤ watch.page.session.deadline ∧ due ≤ watch.checked + 1000
  data : started = true → options.hasData watch.page.host = true → watch.page.session.deadline ≠ 0

namespace Guarded

variable {options : Options σ ε} {started started' : Bool} {watch : Watch σ ε} {page : Page σ ε}
    {limit : Nat}
variable {α : Type} {handle : Page σ ε → α → Page σ ε} {isAction : α → Bool} {event : α}

theorem covered (h : Guarded options started watch) (hlimit : watch.page.session.deadline ≤ limit)
    : Covered options started watch.page limit watch.page where
  now := rfl
  microtasks := rfl
  deadline := hlimit
  idle := h.idle
  timer hne := by
    rcases h.timer hne with ⟨due, htimer, hdue, -⟩
    exact ⟨due, htimer, hdue, .inl htimer⟩
  data := h.data

-- An action happens no earlier than the last one.
theorem reach (h : Guarded options started watch)
    : watch.page.session.deadline ≤ (watch.step handle isAction event).action + 300000 := by
  have haction := h.action
  have hdeadline := h.deadline
  unfold Watch.step
  dsimp only
  split <;> omega

theorem weaken (h : Guarded options started watch) : Guarded options false watch := { h with
  data := nofun }

theorem step (h : Guarded options started watch) {start : Page σ ε}
    (hcovered : Covered options started' start limit (handle watch.page event))
    (hlimit : limit ≤ (watch.step handle isAction event).action + 300000)
    (hstart : start.now = watch.page.now) (hbefore : start.session.timer = watch.page.session.timer)
    : Guarded options started' (watch.step handle isAction event) where
  action := by
    have hnow : (watch.step handle isAction event).page.now = watch.page.now := hcovered.now.trans hstart
    have haction := h.action
    rw [hnow]
    unfold Watch.step
    dsimp only
    split <;> omega
  deadline := Nat.le_trans hcovered.deadline hlimit
  idle := hcovered.idle
  timer hne := by
    rcases hcovered.timer hne with ⟨due, htimer, hdue, hset⟩
    refine ⟨due, htimer, hdue, ?_⟩
    unfold Watch.step
    dsimp only
    split
    . next hsame =>
      by_cases hzero : watch.page.session.deadline = 0
      . rw [htimer, h.idle hzero] at hsame
        cases hsame
      . rcases h.timer hzero with ⟨due', htimer', -, hdue'⟩
        rw [htimer, htimer'] at hsame
        cases hsame
        exact hdue'
    . next hother =>
      rcases hset with hsame | hset
      . rw [hbefore] at hsame
        exact absurd (htimer.trans hsame.symm) hother
      . rw [hstart] at hset
        exact hset
  data := hcovered.data

-- A handler that leaves the session as it is.
theorem quiet (h : Guarded options started watch)
    (hnow : watch.page.now ≤ (handle watch.page event).now)
    (hsession : (handle watch.page event).session = watch.page.session)
    (haction : isAction event = false)
    (hdata : started' = true → options.hasData (handle watch.page event).host = true
      → watch.page.session.deadline ≠ 0)
    : Guarded options started' (watch.step handle isAction event) := by
  have hstep : watch.step handle isAction event = { watch with page := handle watch.page event } := by
    unfold Watch.step
    simp [hsession, haction]
  rw [hstep]
  constructor
  . exact Nat.le_trans h.action hnow
  . dsimp only
    rw [hsession]
    exact h.deadline
  . dsimp only
    rw [hsession]
    exact h.idle
  . dsimp only
    rw [hsession]
    exact h.timer
  . dsimp only
    rw [hsession]
    exact hdata

end Guarded

-- Whether the binding of an input writes its value before the listener of the document, after it, or even
-- after the microtask of that listener.
inductive BindingOrder where
  | before
  | between
  | after
  deriving DecidableEq, Repr

-- What a tab runs to completion. Time may pass before a microtask and before a binding that is late.
inductive TabTask (α : Type) where
  | wait (elapsed : Nat)
  | event (event : α)
  | activity (isTrusted : Bool) (elapsed : Nat)
  | input (order : BindingOrder) (binding : α) (elapsed : Nat)
  deriving DecidableEq

def TabTask.events {α : Type} (session : SessionEvent → α) : TabTask α → List α
  | .wait elapsed => [session (.tick elapsed)]
  | .event single => [single]
  | .activity isTrusted elapsed =>
    [session (.activity isTrusted), session (.tick elapsed), session (.microtask 0)]
  | .input .before binding elapsed =>
    [binding, session (.activity true), session (.tick elapsed), session (.microtask 0)]
  | .input .between binding elapsed =>
    [session (.activity true), binding, session (.tick elapsed), session (.microtask 0)]
  | .input .after binding elapsed =>
    [session (.activity true), session (.microtask 0), session (.tick elapsed), binding]

-- A trusted input reaches a visible document.
def Occurs {α : Type} (binds isPlain : α → Bool) (page : Page σ ε) : TabTask α → Prop
  | .event event => isPlain event = true
  | .input _ binding _ => binds binding = true ∧ page.attached = true ∧ page.hidden = false
  | _ => True

-- How a controller hands the events of its session on, and what the bindings of its inputs do.
structure Controls {α : Type} (options : Options σ ε) (handle : Page σ ε → α → Page σ ε)
    (session : SessionEvent → α) (isAction binds blank : α → Bool) : Prop where
  sensitive : options.Sensitive
  dispatch : ∀ page event, ∃ entry, handle page (session event) = (page.emit entry).dispatch options event
  action : ∀ event, isAction (session event) = event.isAction
  passive : ∀ binding, binds binding = true → isAction binding = false
  bind : ∀ page binding, binds binding = true → ∃ entry f, handle page binding = (page.emit entry).modify f
    ∧ (blank binding = true → options.hasData (f page.host) = true → options.hasData page.host = true)

-- A binding that writes after the listener finds the session before its deadline, and one that writes
-- after the microtask as well finds data, unless the field is left empty.
def Prompt {α : Type} (options : Options σ ε) (blank : α → Bool) (page : Page σ ε) : TabTask α → Prop
  | .input order binding _ =>
    order = .before ∨ blank binding = true
      ∨ page.Live ∧ (order = .between ∨ options.hasData page.host = true)
  | _ => True

-- Between two tasks.
structure Settled (options : Options σ ε) (started : Bool) (watch : Watch σ ε) : Prop
    extends Guarded options started watch where
  microtasks : watch.page.microtasks = []

-- The microtask of the last action is queued.
structure Awaiting (options : Options σ ε) (watch : Watch σ ε)
    : Prop extends Guarded options false watch where
  visible : watch.page.hidden = false
  microtasks : watch.page.microtasks = [(watch.page.session.generation, watch.action)]

section

variable {α : Type} {options : Options σ ε} {handle : Page σ ε → α → Page σ ε}
    {session : SessionEvent → α}
variable {isAction binds blank : α → Bool} {started : Bool} {watch : Watch σ ε} {binding : α}

theorem Settled.tick (hcontrols : Controls options handle session isAction binds blank)
    (h : Settled options started watch) (elapsed : Nat)
    : Settled options started (watch.step handle isAction (session (.tick elapsed))) := by
  rcases hcontrols.dispatch watch.page (.tick elapsed) with ⟨entry, hhandle⟩
  constructor
  . apply h.toGuarded.quiet
    . rw [hhandle]
      exact Nat.le_add_right _ _
    . rw [hhandle]
      rfl
    . apply hcontrols.action
    . rw [hhandle]
      exact h.data
  . unfold Watch.step
    dsimp only
    rw [hhandle]
    exact h.microtasks

theorem Awaiting.tick (hcontrols : Controls options handle session isAction binds blank)
    (h : Awaiting options watch) (elapsed : Nat)
    : Awaiting options (watch.step handle isAction (session (.tick elapsed))) := by
  rcases hcontrols.dispatch watch.page (.tick elapsed) with ⟨entry, hhandle⟩
  have haction : isAction (session (.tick elapsed)) = false := hcontrols.action _
  constructor
  . apply h.toGuarded.quiet
    . rw [hhandle]
      exact Nat.le_add_right _ _
    . rw [hhandle]
      rfl
    . exact haction
    . nofun
  . unfold Watch.step
    dsimp only
    rw [hhandle]
    exact h.visible
  . unfold Watch.step
    dsimp only
    rw [hhandle, haction]
    exact h.microtasks

theorem Settled.bind {started' : Bool}
    (hcontrols : Controls options handle session isAction binds blank)
    (h : Settled options started watch) (hbinds : binds binding = true)
    (hdata : started' = true → started = true
      ∧ (blank binding = true ∨ options.hasData watch.page.host = true))
    : Settled options started' (watch.step handle isAction binding) := by
  rcases hcontrols.bind watch.page binding hbinds with ⟨entry, f, hhandle, hblank⟩
  constructor
  . apply h.toGuarded.quiet
    . rw [hhandle]
      exact Nat.le_refl _
    . rw [hhandle]
      rfl
    . exact hcontrols.passive binding hbinds
    . intro hstarted hpresent
      rw [hhandle] at hpresent
      rcases hdata hstarted with ⟨hbefore, hempty | hfull⟩
      . exact h.data hbefore (hblank hempty hpresent)
      . exact h.data hbefore hfull
  . unfold Watch.step
    dsimp only
    rw [hhandle]
    exact h.microtasks

theorem Awaiting.bind (hcontrols : Controls options handle session isAction binds blank)
    (h : Awaiting options watch) (hbinds : binds binding = true)
    : Awaiting options (watch.step handle isAction binding) := by
  rcases hcontrols.bind watch.page binding hbinds with ⟨entry, f, hhandle, -⟩
  constructor
  . apply h.toGuarded.quiet
    . rw [hhandle]
      exact Nat.le_refl _
    . rw [hhandle]
      rfl
    . exact hcontrols.passive binding hbinds
    . nofun
  . unfold Watch.step
    dsimp only
    rw [hhandle]
    exact h.visible
  . unfold Watch.step
    dsimp only
    rw [hhandle, hcontrols.passive binding hbinds]
    exact h.microtasks

theorem Settled.ignore (hcontrols : Controls options handle session isAction binds blank)
    (h : Settled options started watch) {event : SessionEvent}
    (hsame : ∀ entry, (watch.page.emit entry).dispatch options event = watch.page.emit entry)
    : Settled options started (watch.step handle isAction (session event)) := by
  rcases hcontrols.dispatch watch.page event with ⟨entry, hhandle⟩
  rw [hsame] at hhandle
  have hcovered : Covered options started watch.page watch.page.session.deadline
      (handle watch.page (session event)) := by
    rw [hhandle]
    exact (h.toGuarded.covered (Nat.le_refl _)).emit entry
  constructor
  . apply h.toGuarded.step hcovered
    . exact h.toGuarded.reach
    . rfl
    . rfl
  . exact hcovered.microtasks.trans h.microtasks

theorem Settled.microtask (hcontrols : Controls options handle session isAction binds blank)
    (h : Settled options started watch)
    : Settled options started (watch.step handle isAction (session (.microtask 0))) := by
  apply h.ignore hcontrols
  intro entry
  have hnone : (watch.page.emit entry).microtasks = [] := h.microtasks
  change (watch.page.emit entry).microtask options 0 = _
  unfold Page.microtask
  rw [hnone]
  rfl

theorem Awaiting.microtask (hcontrols : Controls options handle session isAction binds blank)
    (h : Awaiting options watch)
    : Settled options started (watch.step handle isAction (session (.microtask 0))) := by
  rcases hcontrols.dispatch watch.page (.microtask 0) with ⟨entry, hhandle⟩
  have haction : isAction (session (.microtask 0)) = false := hcontrols.action _
  have hsame : (watch.step handle isAction (session (.microtask 0))).action = watch.action := by
    unfold Watch.step
    dsimp only
    rw [haction]
    rfl
  have hqueued : (watch.page.emit entry).microtasks
      = [((watch.page.emit entry).session.generation, watch.action)] := h.microtasks
  have hvisible : (watch.page.emit entry).hidden = false := h.visible
  have hcovered : Covered options started { watch.page.emit entry with microtasks := [] }
      (watch.action + 300000) (handle watch.page (session (.microtask 0))) := by
    rw [hhandle]
    exact Covered.microtask hcontrols.sensitive hqueued hvisible (Nat.le_refl _)
  constructor
  . apply h.toGuarded.step hcovered
    . omega
    . rfl
    . rfl
  . exact hcovered.microtasks

-- The listener expires the session, or it has its microtask check again.
theorem Settled.activity (hcontrols : Controls options handle session isAction binds blank)
    (h : Settled options false watch) (hattached : watch.page.attached = true)
    (hvisible : watch.page.hidden = false)
    : (watch.page.Live → Awaiting options (watch.step handle isAction (session (.activity true))))
        ∧ (¬watch.page.Live
          → Settled options started (watch.step handle isAction (session (.activity true)))) := by
  rcases hcontrols.dispatch watch.page (.activity true) with ⟨entry, hhandle⟩
  have haction : isAction (session (.activity true)) = true := hcontrols.action _
  have hsame : (watch.step handle isAction (session (.activity true))).action = watch.page.now := by
    unfold Watch.step
    dsimp only
    rw [haction]
    rfl
  have hhandle : handle watch.page (session (.activity true))
      = (watch.page.emit entry).activity options true := hhandle
  have hattached : (watch.page.emit entry).attached = true := hattached
  have hvisible : (watch.page.emit entry).hidden = false := hvisible
  constructor
  . intro hlive
    have hlive : (watch.page.emit entry).Live := hlive
    rw [Page.activity_of_live hattached hvisible hlive] at hhandle
    have htouched : Covered options false (watch.page.emit entry) (watch.page.now + 300000)
        ((watch.page.emit entry).touch options) :=
      Covered.touchAt hcontrols.sensitive rfl rfl (Nat.le_refl _)
    have hqueued := htouched.queue
      ((watch.page.emit entry).microtasks ++ [((watch.page.emit entry).session.generation, watch.page.now)])
    have hcovered : Covered options false _ (watch.page.now + 300000)
        (handle watch.page (session (.activity true))) :=
      hhandle ▸ hqueued
    rcases Page.touch_frame options (watch.page.emit entry) with ⟨hgeneration, hhidden, -⟩
    constructor
    . apply h.toGuarded.step hcovered
      . omega
      . rfl
      . rfl
    . unfold Watch.step
      dsimp only
      rw [hhandle]
      exact hhidden.trans hvisible
    . have hnone : (watch.page.emit entry).microtasks = [] := h.microtasks
      rw [hsame]
      unfold Watch.step
      dsimp only
      rw [hhandle]
      dsimp only
      rw [hgeneration, hnone]
      rfl
  . intro hexpired
    have hexpired : ¬(watch.page.emit entry).Live := hexpired
    rw [Page.activity_of_expired hattached hvisible hexpired] at hhandle
    have hcovered : Covered options started (watch.page.emit entry) (watch.page.now + 300000)
        (handle watch.page (session (.activity true))) := by
      rw [hhandle]
      exact Covered.clear_of hcontrols.sensitive rfl rfl .expired
    constructor
    . apply h.toGuarded.step hcovered
      . omega
      . rfl
      . rfl
    . exact hcovered.microtasks.trans h.microtasks

theorem Settled.weaken (h : Settled options started watch) : Settled options false watch where
  toGuarded := h.toGuarded.weaken
  microtasks := h.microtasks

theorem Controls.bind_frame (hcontrols : Controls options handle session isAction binds blank)
    (hbinds : binds binding = true) (page : Page σ ε)
    : (handle page binding).attached = page.attached ∧ (handle page binding).hidden = page.hidden := by
  rcases hcontrols.bind page binding hbinds with ⟨entry, f, hhandle, -⟩
  rw [hhandle]
  exact ⟨rfl, rfl⟩

-- An action that finds data leaves it in place.
theorem Controls.hasData_activity (hcontrols : Controls options handle session isAction binds blank)
    {page : Page σ ε} (hattached : page.attached = true) (hvisible : page.hidden = false)
    (hmicrotasks : page.microtasks = []) (hlive : page.Live)
    : options.hasData (handle (handle page (session (.activity true))) (session (.microtask 0))).host
        = options.hasData page.host := by
  rcases hcontrols.dispatch page (.activity true) with ⟨entry, hactivity⟩
  have hactivity : handle page (session (.activity true)) = (page.emit entry).activity options true :=
    hactivity
  have hattached : (page.emit entry).attached = true := hattached
  have hvisible : (page.emit entry).hidden = false := hvisible
  have hlive : (page.emit entry).Live := hlive
  rw [Page.activity_of_live hattached hvisible hlive] at hactivity
  rcases Page.touch_frame options (page.emit entry) with ⟨hgeneration, hhidden, -⟩
  rcases hcontrols.dispatch (handle page (session (.activity true))) (.microtask 0) with ⟨entry', hmicrotask⟩
  have hmicrotask : handle (handle page (session (.activity true))) (session (.microtask 0))
      = ((handle page (session (.activity true))).emit entry').microtask options 0 := hmicrotask
  rw [hmicrotask, hactivity, Page.microtask_of_live]
  . exact (Page.hasData_touch hcontrols.sensitive _).trans (Page.hasData_touch hcontrols.sensitive _)
  . have hnone : (page.emit entry).microtasks = [] := hmicrotasks
    have hnow : ((page.emit entry).touch options).now = page.now :=
      (Covered.touchAt hcontrols.sensitive rfl rfl (Nat.le_refl _)
        : Covered options false (page.emit entry) (page.now + 300000) _).now
    change (page.emit entry).microtasks ++ [((page.emit entry).session.generation, page.now)]
      = [(((page.emit entry).touch options).session.generation, ((page.emit entry).touch options).now)]
    rw [hnone, hgeneration, hnow]
    rfl
  . exact hhidden.trans hvisible
  . exact Page.live_touch options (page.emit entry)

-- The listener and its microtask, which nothing comes between but the clock.
theorem Settled.listen (hcontrols : Controls options handle session isAction binds blank)
    (h : Settled options false watch) (hattached : watch.page.attached = true)
    (hvisible : watch.page.hidden = false) (elapsed : Nat)
    : Settled options started (watch.run handle isAction
        [session (.activity true), session (.tick elapsed), session (.microtask 0)]) := by
  have hactivity : (watch.page.Live → _) ∧ (_ → Settled options started _) := h.activity hcontrols hattached hvisible
  by_cases hlive : watch.page.Live
  . exact ((hactivity.1 hlive).tick hcontrols elapsed).microtask hcontrols
  . exact ((hactivity.2 hlive).tick hcontrols elapsed).microtask hcontrols

theorem Settled.activity_task (hcontrols : Controls options handle session isAction binds blank)
    (h : Settled options started watch) (isTrusted : Bool) (elapsed : Nat)
    : Settled options started
        (watch.run handle isAction ((TabTask.activity isTrusted elapsed).events session)) := by
  by_cases hignored : watch.page.attached = false ∨ isTrusted = false ∨ watch.page.hidden = true
  . have hsame : Settled options started (watch.step handle isAction (session (.activity isTrusted))) := by
      apply h.ignore hcontrols
      intro entry
      exact Page.activity_ignored hignored
    exact (hsame.tick hcontrols elapsed).microtask hcontrols
  . rw [not_or, not_or, Bool.not_eq_false, Bool.not_eq_false, Bool.not_eq_true] at hignored
    rcases hignored with ⟨hattached, rfl, hvisible⟩
    exact h.weaken.listen hcontrols hattached hvisible elapsed

theorem Settled.input_task (hcontrols : Controls options handle session isAction binds blank)
    (h : Settled options started watch) (hattached : watch.page.attached = true)
    (hvisible : watch.page.hidden = false) (hbinds : binds binding = true) {order : BindingOrder}
    {elapsed : Nat}
    (hprompt : started = true → Prompt options blank watch.page (.input order binding elapsed))
    : Settled options started
        (watch.run handle isAction ((TabTask.input order binding elapsed).events session)) := by
  rcases h.weaken.activity hcontrols hattached hvisible with ⟨hlistened, hexpired⟩
  cases order with
  | before =>
    have hbound : Settled options false (watch.step handle isAction binding) := h.bind hcontrols hbinds nofun
    rcases hcontrols.bind_frame hbinds watch.page with ⟨hattached', hhidden'⟩
    exact hbound.listen hcontrols (hattached'.trans hattached) (hhidden'.trans hvisible) elapsed
  | between =>
    by_cases hlive : watch.page.Live
    . exact (((hlistened hlive).bind hcontrols hbinds).tick hcontrols elapsed).microtask hcontrols
    . have hcleared : Settled options started _ := hexpired hlive
      have hbound : Settled options started ((watch.step handle isAction (session (.activity true))).step
          handle isAction binding) := by
        apply hcleared.bind hcontrols hbinds
        intro hstarted
        refine ⟨hstarted, .inl ?_⟩
        simpa [Prompt, hlive] using hprompt hstarted
      exact (hbound.tick hcontrols elapsed).microtask hcontrols
  | after =>
    have hready : Settled options started ((watch.step handle isAction (session (.activity true))).step
        handle isAction (session (.microtask 0))) := by
      by_cases hlive : watch.page.Live
      . exact (hlistened hlive).microtask hcontrols
      . exact (hexpired hlive).microtask hcontrols
    apply (hready.tick hcontrols elapsed).bind hcontrols hbinds
    intro hstarted
    refine ⟨hstarted, ?_⟩
    have hprompt : blank binding = true ∨ watch.page.Live ∧ options.hasData watch.page.host = true := by
      simpa [Prompt] using hprompt hstarted
    rcases hprompt with hblank | ⟨hlive, hpresent⟩
    . exact .inl hblank
    . right
      rcases hcontrols.dispatch
        (handle (handle watch.page (session (.activity true))) (session (.microtask 0))) (.tick elapsed)
        with ⟨entry, hhandle⟩
      have hkept := hcontrols.hasData_activity hattached hvisible h.microtasks hlive
      unfold Watch.step
      dsimp only
      rw [hhandle]
      exact hkept.trans hpresent

theorem Settled.event_task (h : Settled options started watch) {started' : Bool} {event : α}
    (hstep : ∀ limit, Covered options started watch.page limit watch.page
      → (isAction event = true → watch.page.now + 300000 ≤ limit)
      → Covered options started' watch.page limit (handle watch.page event))
    : Settled options started' (watch.step handle isAction event) := by
  have haction := h.action
  have hdeadline := h.deadline
  cases hkind : isAction event with
  | true =>
    have hlater : watch.page.session.deadline ≤ watch.page.now + 300000 := by omega
    have hcovered := hstep _ (h.toGuarded.covered hlater) fun _ => Nat.le_refl _
    constructor
    . apply h.toGuarded.step hcovered
      . unfold Watch.step
        simp [hkind]
      . rfl
      . rfl
    . exact hcovered.microtasks.trans h.microtasks
  | false =>
    have hcovered := hstep _ (h.toGuarded.covered (Nat.le_refl _)) (by simp [hkind])
    constructor
    . apply h.toGuarded.step hcovered
      . exact h.toGuarded.reach
      . rfl
      . rfl
    . exact hcovered.microtasks.trans h.microtasks

theorem Settled.task (hcontrols : Controls options handle session isAction binds blank)
    (h : Settled options started watch) {isPlain : α → Bool} {task : TabTask α}
    (hoccurs : Occurs binds isPlain watch.page task)
    (hprompt : started = true → Prompt options blank watch.page task)
    (hevent : ∀ event, task = .event event → isPlain event = true
      → Settled options started (watch.step handle isAction event))
    : Settled options started (watch.run handle isAction (task.events session)) := by
  cases task with
  | wait elapsed => exact h.tick hcontrols elapsed
  | event event => exact hevent event rfl hoccurs
  | activity isTrusted elapsed => exact h.activity_task hcontrols isTrusted elapsed
  | input order binding elapsed =>
    rcases hoccurs with ⟨hbinds, hattached, hvisible⟩
    exact h.input_task hcontrols hattached hvisible hbinds hprompt

theorem Settled.no_later (h : Settled options started watch) {started' : Bool} {event : α}
    (hstep : ∀ limit, Covered options started watch.page limit watch.page
      → (isAction event = true → watch.page.now + 300000 ≤ limit)
      → Covered options started' watch.page limit (handle watch.page event))
    (hpassive : isAction event = false)
    : (handle watch.page event).session.deadline ≤ watch.page.session.deadline :=
  (hstep _ (h.toGuarded.covered (Nat.le_refl _)) (by simp [hpassive])).deadline

end

-- The data of a session at rest is timed: its deadline is near, a timer is due before it, and once no
-- timer is overdue the data does not outlast it.
structure Bounded (options : Options σ ε) (watch : Watch σ ε) : Prop where
  microtasks : watch.page.microtasks = []
  armed : options.hasData watch.page.host = true → 0 < watch.page.session.deadline
    ∧ watch.page.session.deadline ≤ watch.action + 300000
    ∧ ∃ due, watch.page.session.timer = some due
      ∧ due ≤ min watch.page.session.deadline (watch.checked + 1000)
  idle : watch.page.session.deadline = 0 → watch.page.session.timer = none
  lapsed : ∀ ticket, 0 < watch.page.session.deadline → watch.page.session.deadline ≤ watch.page.now
    → (watch.page.valid options ticket).1 = false
  cleared : (∀ due, watch.page.session.timer = some due → watch.page.now < due)
    → watch.action + 300000 ≤ watch.page.now → options.hasData watch.page.host = false

theorem Page.valid_of_lapsed {options : Options σ ε} {page : Page σ ε}
    (hdeadline : 0 < page.session.deadline)
    (hlapsed : page.session.deadline ≤ page.now) (ticket : Ticket)
    : (page.valid options ticket).1 = false := by
  have hexpired : ¬page.Live := by
    unfold Page.Live
    omega
  by_cases hgeneration : ticket.generation = page.session.generation
  . rw [Page.valid_of_expired hgeneration hexpired]
  . rw [Page.valid_of_stale hgeneration]

theorem Settled.start {options : Options σ ε} {page : Page σ ε} {started : Bool}
    (hsession : page.session = .new)
    (hmicrotasks : page.microtasks = []) (hdata : started = true → options.hasData page.host = false)
    : Settled options started (.start page) where
  action := Nat.le_refl _
  deadline := by
    unfold Watch.start
    rw [hsession]
    exact Nat.zero_le _
  idle _ := by
    unfold Watch.start
    rw [hsession]
    rfl
  timer hdeadline := by
    unfold Watch.start at hdeadline
    rw [hsession] at hdeadline
    exact absurd rfl hdeadline
  data hstarted hpresent := by
    rw [show options.hasData (Watch.start page).page.host = false from hdata hstarted] at hpresent
    cases hpresent
  microtasks := hmicrotasks

theorem Settled.bounded {options : Options σ ε} {watch : Watch σ ε} (h : Settled options true watch)
    : Bounded options watch where
  microtasks := h.microtasks
  armed hpresent := by
    have hne := h.data rfl hpresent
    rcases h.timer hne with ⟨due, htimer, hdeadline, hchecked⟩
    refine ⟨by omega, h.deadline, due, htimer, ?_⟩
    omega
  idle := h.idle
  lapsed ticket hdeadline hlapsed := Page.valid_of_lapsed hdeadline hlapsed ticket
  cleared hrun hlate := by
    cases hpresent : options.hasData watch.page.host with
    | false => rfl
    | true =>
      rcases h.timer (h.data rfl hpresent) with ⟨due, htimer, hdue, -⟩
      have hpending := hrun due htimer
      have hdeadline := h.deadline
      omega

end Web
