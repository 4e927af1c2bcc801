import Mathlib.Data.List.Basic

/-!
Runs of a deterministic step function, and conditions that every step of a run meets.
-/

namespace Runs

variable {σ α : Type} (step : σ → α → σ)

def Along (P : σ → α → Prop) : σ → List α → Prop
  | _, [] => True
  | state, event :: events => P state event ∧ Along P (step state event) events

section

variable {step} {P Q : σ → α → Prop} {I : σ → Prop} {state : σ} {events : List α}

theorem invariant (hstep : ∀ {state event}, I state → P state event → I (step state event))
    (hstate : I state) (h : Along step P state events) : I (events.foldl step state) := by
  induction events generalizing state with
  | nil => exact hstate
  | cons event events ih => exact ih (hstep hstate h.1) h.2

theorem Along.and (h : Along step P state events) (h' : Along step Q state events)
    : Along step (fun state event => P state event ∧ Q state event) state events := by
  induction events generalizing state with
  | nil => trivial
  | cons event events ih => exact ⟨⟨h.1, h'.1⟩, ih h.2 h'.2⟩

theorem along_of_forall (h : ∀ event ∈ events, ∀ state, P state event) : Along step P state events := by
  induction events generalizing state with
  | nil => trivial
  | cons event events ih =>
    constructor
    . exact h event List.mem_cons_self state
    . apply ih
      intro other hother
      exact h other (List.mem_cons_of_mem event hother)

theorem along_append {more : List α} : Along step P state (events ++ more)
    ↔ Along step P state events ∧ Along step P (events.foldl step state) more := by
  induction events generalizing state with
  | nil => simp [Along]
  | cons event events ih => simp [Along, ih, and_assoc]

-- A condition fails at one step of a run, or it holds along all of it.
theorem exists_of_not_along (h : ¬Along step P state events)
    : ∃ before event after, events = before ++ event :: after
      ∧ ¬P (before.foldl step state) event := by
  induction events generalizing state with
  | nil => exact absurd trivial h
  | cons event events ih =>
    by_cases hevent : P state event
    . rcases ih fun hevents => h ⟨hevent, hevents⟩ with ⟨before, failing, after, rfl, hfailing⟩
      exact ⟨event :: before, failing, after, rfl, hfailing⟩
    . exact ⟨[], event, events, rfl, hevent⟩

/--
Where a run that meets a condition so far is as it should be, and the first step that fails it leads
astray, the condition is exact.
-/
theorem along_iff {I : σ → List α → Prop} {Q : σ → Prop}
    (hstep : ∀ {state event events}, I state (event :: events) → P state event
      → I (step state event) events)
    (hfail : ∀ {state event events}, I state (event :: events) → ¬P state event → ¬Q (step state event))
    (hmeets : ∀ {state events}, I state events → Q state) (h : I state events)
    : Along step P state events ↔ ∀ earlier, earlier <+: events → Q (earlier.foldl step state) := by
  induction events generalizing state with
  | nil =>
    constructor
    . intro _ earlier hearlier
      rw [List.eq_nil_of_prefix_nil hearlier]
      exact hmeets h
    . exact fun _ => trivial
  | cons event events ih =>
    constructor
    . rintro ⟨hevent, hevents⟩ earlier hearlier
      cases earlier with
      | nil => exact hmeets h
      | cons first rest =>
        rcases List.cons_prefix_cons.mp hearlier with ⟨rfl, hrest⟩
        exact (ih (hstep h hevent)).mp hevents rest hrest
    . intro hall
      have hevent : P state event := by
        by_contra hevent
        exact hfail h hevent (hall [event] (List.cons_prefix_cons.mpr ⟨rfl, events, rfl⟩))
      refine ⟨hevent, (ih (hstep h hevent)).mpr ?_⟩
      intro earlier hearlier
      exact hall (event :: earlier) (List.cons_prefix_cons.mpr ⟨rfl, hearlier⟩)

/--
Removing what one side cannot see: when every other event keeps two states related, whichever of the
two runs takes it alone, a run stays related to the run with those events removed.
-/
theorem purge {R : σ → σ → Prop} {visible : α → Bool}
    (hvisible : ∀ {left right event}, visible event = true → R left right
      → R (step left event) (step right event))
    (hother : ∀ {left right event}, visible event = false → R left right → R (step left event) right)
    {left right : σ} (h : R left right)
    : R (events.foldl step left) ((events.filter visible).foldl step right) := by
  induction events generalizing left right with
  | nil => exact h
  | cons event events ih =>
    cases hevent : visible event with
    | true =>
      rw [List.filter_cons_of_pos hevent]
      exact ih (hvisible hevent h)
    | false =>
      rw [List.filter_cons_of_neg (by rw [hevent]; exact Bool.false_ne_true)]
      exact ih (hother hevent h)

end

end Runs
