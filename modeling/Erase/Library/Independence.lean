import Mathlib.Data.List.Basic

/-!
Operations with keys on one shared state. When two operations with different keys neither see nor
undo each other, a run answers every key as if it were alone, and only the order of the operations
of each key decides where the run ends.
-/

namespace Independence

variable {σ α β κ : Type} (step : σ → α → β × σ) (key : α → κ)

structure Commutes : Prop where
  reply : ∀ state first second, key first ≠ key second
    → (step (step state first).2 second).1 = (step state second).1
  state : ∀ state first second, key first ≠ key second
    → (step (step state first).2 second).2 = (step (step state second).2 first).2

def run (state : σ) : List α → List (α × β) × σ
  | [] => ([], state)
  | operation :: operations =>
    ((operation, (step state operation).1) :: (run (step state operation).2 operations).1,
      (run (step state operation).2 operations).2)

variable {step key} {state : σ} {operations operations' : List α}

theorem run_cons (operation : α)
    : run step state (operation :: operations)
        = ((operation, (step state operation).1) :: (run step (step state operation).2 operations).1,
          (run step (step state operation).2 operations).2) :=
  rfl

theorem run_append (more : List α)
    : (run step state (operations ++ more)).2 = (run step (run step state operations).2 more).2 := by
  induction operations generalizing state with
  | nil => rfl
  | cons operation operations ih => exact ih

variable (h : Commutes step key)

include h

-- An operation leaves the replies of all other keys alone.
theorem replies_step {first : α} (hothers : ∀ operation ∈ operations, key first ≠ key operation)
    : (run step (step state first).2 operations).1 = (run step state operations).1 := by
  induction operations generalizing state with
  | nil => rfl
  | cons operation operations ih =>
    have hother := hothers operation List.mem_cons_self
    rw [run_cons, run_cons, h.reply state first operation hother, h.state state first operation hother,
      ih fun operation hmem => hothers operation (List.mem_cons_of_mem _ hmem)]

theorem step_run {first : α} (hothers : ∀ operation ∈ operations, key first ≠ key operation)
    : (run step (step state first).2 operations).2 = (step (run step state operations).2 first).2 := by
  induction operations generalizing state with
  | nil => rfl
  | cons operation operations ih =>
    have hother := hothers operation List.mem_cons_self
    rw [run_cons, run_cons, h.state state first operation hother,
      ih fun operation hmem => hothers operation (List.mem_cons_of_mem _ hmem)]

theorem replies_filter [DecidableEq κ] (k : κ)
    : (run step state operations).1.filter (fun entry => key entry.1 = k)
        = (run step state (operations.filter fun operation => key operation = k)).1 := by
  induction operations generalizing state with
  | nil => rfl
  | cons operation operations ih =>
    rw [run_cons]
    by_cases hkey : key operation = k
    . rw [List.filter_cons_of_pos (by simpa using hkey), List.filter_cons_of_pos (by simpa using hkey),
        run_cons, ih]
    . rw [List.filter_cons_of_neg (by simpa using hkey), List.filter_cons_of_neg (by simpa using hkey),
        ih]
      apply replies_step h
      intro other hother
      have hk : key other = k := by simpa using (List.mem_filter.mp hother).2
      rw [hk]
      exact hkey

theorem state_eq_of_filter [DecidableEq κ]
    (hsame : ∀ k, operations.filter (fun operation => key operation = k)
      = operations'.filter fun operation => key operation = k)
    : (run step state operations).2 = (run step state operations').2 := by
  induction operations generalizing operations' state with
  | nil =>
    have hempty : operations' = [] := by
      rw [List.eq_nil_iff_forall_not_mem]
      intro operation hmem
      have hfilter : operation ∈ operations'.filter fun other => key other = key operation := by
        simp [hmem]
      rw [← hsame (key operation)] at hfilter
      cases hfilter
    rw [hempty]
  | cons first rest ih =>
    -- The first operation of its key moves to the front of the other run.
    have hfirst := hsame (key first)
    rw [List.filter_cons_of_pos (by simp), eq_comm, List.filter_eq_cons_iff] at hfirst
    rcases hfirst with ⟨before, after, rfl, hbefore, -, hafter⟩
    have hothers : ∀ operation ∈ before, key first ≠ key operation := by
      intro operation hmem hkey
      exact hbefore operation hmem (by simp [hkey])
    have hrest : ∀ k, rest.filter (fun operation => key operation = k)
        = (before ++ after).filter fun operation => key operation = k := by
      intro k
      have hk := hsame k
      rw [List.filter_append, List.filter_cons, List.filter_cons] at hk
      rw [List.filter_append]
      by_cases hkey : key first = k
      . have hnone : before.filter (fun operation => key operation = k) = [] := by
          rw [List.filter_eq_nil_iff]
          intro operation hmem
          simpa [← hkey] using (hothers operation hmem).symm
        rw [hnone] at hk ⊢
        simpa [hkey] using hk
      . simpa [hkey] using hk
    rw [run_append, run_cons, run_cons, ← step_run h hothers, ← run_append]
    exact ih hrest

end Independence
