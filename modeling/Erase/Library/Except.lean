import Mathlib.Data.List.Forall2

namespace Except

variable {ε α β : Type}

theorem bind_eq_ok {x : Except ε α} {f : α → Except ε β} {b : β}
    : x >>= f = .ok b ↔ ∃ a, x = .ok a ∧ f a = .ok b := by
  cases x with
  | error e => simp [bind, Except.bind]
  | ok a => simp [bind, Except.bind]

-- A step of a `do` block that only checks.
theorem check_eq_ok {x : Except ε Unit} {y : Except ε β} {b : β}
    : (x >>= fun _ => y) = .ok b ↔ x = .ok () ∧ y = .ok b := by
  cases x with
  | error e => simp [bind, Except.bind]
  | ok a => simp [bind, Except.bind]

theorem check_ite_eq_ok {c : Prop} [Decidable c] {x : Except ε Unit} {y : Except ε β} {b : β}
    : (if c then x >>= fun _ => y else y) = .ok b ↔ (c → x = .ok ()) ∧ y = .ok b := by
  split
  . next h => simp [check_eq_ok, h]
  . next h => simp [h]

theorem ok_bind (a : α) (f : α → Except ε β) : (.ok a : Except ε α) >>= f = f a := rfl

theorem bind_ok (x : Except ε α) : (x >>= fun a => .ok a) = x := by
  cases x with
  | error e => rfl
  | ok a => rfl

-- A guard of a `do` block, whose failing branch still binds the rest of the block.
theorem guard_eq_ok {c : Prop} [Decidable c] {e : ε} {f : α → Except ε β} {x : Except ε β} {b : β}
    : (if c then .error e >>= f else x) = .ok b ↔ ¬c ∧ x = .ok b := by
  split
  . next h => simp [h, bind, Except.bind]
  . next h => simp [h]

theorem mapM_eq_ok {f : α → Except ε β} {list : List α} {results : List β}
    : list.mapM f = .ok results ↔ List.Forall₂ (fun a b => f a = .ok b) list results := by
  induction list generalizing results with
  | nil =>
    constructor
    . intro h
      cases h
      exact .nil
    . intro h
      cases h
      rfl
  | cons a list ih =>
    simp only [List.mapM_cons, bind_eq_ok, List.forall₂_cons_left_iff, ih]
    constructor
    . intro h
      rcases h with ⟨b, hb, rest, hrest, hresults⟩
      cases hresults
      exact ⟨b, rest, hb, hrest, rfl⟩
    . intro h
      rcases h with ⟨b, rest, hb, hrest, rfl⟩
      exact ⟨b, hb, rest, hrest, rfl⟩

theorem ite_error_eq_ok {c : Prop} [Decidable c] {e : ε} {x : Except ε β} {b : β}
    : (if c then .error e else x) = .ok b ↔ ¬c ∧ x = .ok b := by
  split
  . next h => simp [h]
  . next h => simp [h]

end Except
