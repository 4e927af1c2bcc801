import Erase.Library.Except

/-!
Fallible computations that write down what they do, and what can be said of all they write down and
of every error they raise.
-/

namespace Except

variable {ε α β : Type} {P : ε → Prop}

/--
Every error that `x` can be is one that `P` allows.
-/
def Raises (P : ε → Prop) (x : Except ε α) : Prop := ∀ e, x = .error e → P e

theorem raises_ok (a : α) : Raises P (.ok a : Except ε α) := by
  intro e h
  cases h

theorem raises_error {e : ε} (h : P e) : Raises P (.error e : Except ε α) := by
  intro e' h'
  cases h'
  exact h

theorem Raises.bind {x : Except ε α} {f : α → Except ε β} (hx : Raises P x)
    (hf : ∀ a, x = .ok a → Raises P (f a))
    : Raises P (x >>= f) := by
  cases x with
  | error e => exact raises_error (hx e rfl)
  | ok a => exact hf a rfl

theorem raises_guard {c : Prop} [Decidable c] {e : ε} {f : α → Except ε β} {x : Except ε β} (he : P e)
    (hx : ¬c → Raises P x)
    : Raises P (if c then .error e >>= f else x) := by
  split
  . exact raises_error he
  . next h => exact hx h

theorem raises_ite {c : Prop} [Decidable c] {x y : Except ε α} (hx : c → Raises P x)
    (hy : ¬c → Raises P y)
    : Raises P (if c then x else y) := by
  split
  . next h => exact hx h
  . next h => exact hy h

theorem Raises.exists_ok_or {x : Except ε α} (h : Raises P x)
    : (∃ a, x = .ok a) ∨ ∃ e, x = .error e ∧ P e := by
  cases x with
  | ok a => exact Or.inl ⟨a, rfl⟩
  | error e => exact Or.inr ⟨e, rfl, h e rfl⟩

end Except

structure Logged (ω ε α : Type) where
  log : List ω
  result : Except ε α

namespace Logged

variable {ω ε α β : Type}

def lift (x : Except ε α) : Logged ω ε α := ⟨[], x⟩

def note (entry : ω) (x : Except ε α) : Logged ω ε α := ⟨[entry], x⟩

def andThen (x : Logged ω ε α) (f : α → Logged ω ε β) : Logged ω ε β :=
  match x.result with
  | .ok a => ⟨x.log ++ (f a).log, (f a).result⟩
  | .error e => ⟨x.log, .error e⟩

instance : Monad (Logged ω ε) where
  pure a := lift (.ok a)
  bind := andThen

instance : MonadLift (Except ε) (Logged ω ε) where
  monadLift := lift

@[simp]
theorem result_pure (a : α) : (pure a : Logged ω ε α).result = .ok a := rfl

@[simp]
theorem result_lift (x : Except ε α) : (liftM x : Logged ω ε α).result = x := rfl

@[simp]
theorem result_note (entry : ω) (x : Except ε α) : (note entry x).result = x := rfl

@[simp]
theorem result_bind (x : Logged ω ε α) (f : α → Logged ω ε β)
    : (x >>= f).result = x.result >>= fun a => (f a).result := by
  rcases x with ⟨log, result⟩
  cases result with
  | error e => rfl
  | ok a => rfl

theorem lift_ok_bind (a : α) (f : α → Logged ω ε β)
    : ((liftM (.ok a : Except ε α) : Logged ω ε α) >>= f) = f a := rfl

theorem note_ok_bind (entry : ω) (a : α) (f : α → Logged ω ε β)
    : (note entry (.ok a) >>= f) = ⟨entry :: (f a).log, (f a).result⟩ := rfl

@[simp]
theorem result_ite {c : Prop} [Decidable c] (x y : Logged ω ε α)
    : (if c then x else y).result = if c then x.result else y.result := by
  split <;> rfl

/--
All that `x` writes down is as `E` says, and every error it raises as `P` says.
-/
structure Meets (E : ω → Prop) (P : ε → Prop) (x : Logged ω ε α) : Prop where
  log : ∀ entry ∈ x.log, E entry
  result : x.result.Raises P

variable {E : ω → Prop} {P : ε → Prop}

theorem meets_lift {x : Except ε α} (h : x.Raises P) : Meets E P (liftM x : Logged ω ε α) where
  log := by
    intro entry hentry
    cases hentry
  result := h

theorem meets_pure (a : α) : Meets E P (pure a : Logged ω ε α) :=
  meets_lift (Except.raises_ok a)

theorem meets_note {entry : ω} {x : Except ε α} (hentry : E entry) (hx : x.Raises P)
    : Meets E P (note entry x) where
  log := by
    intro entry' hmem
    rcases List.mem_singleton.mp hmem with rfl
    exact hentry
  result := hx

theorem Meets.bind {x : Logged ω ε α} {f : α → Logged ω ε β} (hx : Meets E P x)
    (hf : ∀ a, x.result = .ok a → Meets E P (f a))
    : Meets E P (x >>= f) := by
  rcases x with ⟨log, result⟩
  cases result with
  | error e => exact ⟨hx.log, Except.raises_error (hx.result e rfl)⟩
  | ok a =>
    refine ⟨?_, (hf a rfl).result⟩
    intro entry hentry
    rcases List.mem_append.mp hentry with hentry | hentry
    . exact hx.log entry hentry
    . exact (hf a rfl).log entry hentry

-- A guard of a `do` block: the failing branch raises and goes no further.
theorem meets_guard {c : Prop} [Decidable c] {x : Except ε α} {f : α → Logged ω ε β}
    {y : Logged ω ε β} (hx : x.Raises P) (hstop : ∀ a, x ≠ .ok a) (hy : ¬c → Meets E P y)
    : Meets E P (if c then liftM x >>= f else y) := by
  split
  . exact (meets_lift hx).bind fun a ha => absurd ha (hstop a)
  . next h => exact hy h

theorem Meets.mono {E' : ω → Prop} {x : Logged ω ε α} (h : Meets E P x)
    (hE : ∀ entry, E entry → E' entry)
    : Meets E' P x :=
  ⟨fun entry hentry => hE entry (h.log entry hentry), h.result⟩

end Logged
