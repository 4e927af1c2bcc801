import Mathlib.Logic.Function.Basic

/-!
Numbered promises of a run-to-completion event loop. Each suspended call keeps its continuation
under a number that is never used again.
-/

structure Promises (κ : Type) where
  next : Nat
  waiting : Nat → Option κ

namespace Promises

variable {κ : Type}

def empty : Promises κ where
  next := 0
  waiting _ := none

def suspend (promises : Promises κ) (continuation : κ) : Promises κ where
  next := promises.next + 1
  waiting := Function.update promises.waiting promises.next (some continuation)

def settle (promises : Promises κ) (number : Nat) : Promises κ :=
  { promises with waiting := Function.update promises.waiting number none }

-- The same promises, where the ones of `late` go on as in `waiting`.
def owing (late : Nat → Bool) (waiting : Nat → Option κ) (promises : Promises κ) : Promises κ :=
  { promises with
    waiting := fun number => if late number then waiting number else promises.waiting number }

def Numbered (promises : Promises κ) : Prop :=
  ∀ number continuation, promises.waiting number = some continuation → number < promises.next

section

variable {promises : Promises κ} {number other : Nat} {continuation suspended : κ}

theorem waiting_suspend
    : (promises.suspend suspended).waiting number = some continuation
        ↔ number = promises.next ∧ continuation = suspended
          ∨ number ≠ promises.next ∧ promises.waiting number = some continuation := by
  unfold suspend
  by_cases hnumber : number = promises.next
  . simp [hnumber, eq_comm]
  . simp [hnumber]

theorem waiting_settle
    : (promises.settle other).waiting number = some continuation
        ↔ number ≠ other ∧ promises.waiting number = some continuation := by
  unfold settle
  by_cases hnumber : number = other
  . simp [hnumber]
  . simp [hnumber]

theorem owing_self (late : Nat → Bool) (promises : Promises κ)
    : promises.owing late promises.waiting = promises := by
  unfold owing
  simp

theorem owing_owing (late : Nat → Bool) (waiting waiting' : Nat → Option κ) (promises : Promises κ)
    : (promises.owing late waiting').owing late waiting = promises.owing late waiting := by
  unfold owing
  simp only [Promises.mk.injEq, true_and]
  funext number
  cases late number with
  | false => rfl
  | true => rfl

theorem suspend_owing {late : Nat → Bool} (h : ∀ number, late number = true → number < promises.next)
    (waiting : Nat → Option κ) (continuation : κ)
    : (promises.owing late waiting).suspend continuation
        = (promises.suspend continuation).owing late waiting := by
  unfold owing suspend
  simp only [Promises.mk.injEq, true_and]
  funext number
  by_cases hnumber : number = promises.next
  . have hlate : ¬late number = true := fun hlate => absurd (h number hlate) (by omega)
    simp [hnumber, hnumber ▸ hlate]
  . simp [hnumber]

theorem settle_owing {late : Nat → Bool} {number : Nat} (h : late number = false)
    (waiting : Nat → Option κ)
    : (promises.owing late waiting).settle number = (promises.settle number).owing late waiting := by
  unfold owing settle
  simp only [Promises.mk.injEq, true_and]
  funext other
  by_cases hother : other = number
  . simp [hother, h]
  . simp [hother]

theorem settle_owing_late {late : Nat → Bool} {number : Nat} (h : late number = true)
    (waiting : Nat → Option κ)
    : (promises.owing late waiting).settle number
        = promises.owing late (Function.update waiting number none) := by
  unfold owing settle
  simp only [Promises.mk.injEq, true_and]
  funext other
  by_cases hother : other = number
  . simp [hother, h]
  . simp [hother]

theorem numbered_empty : (empty : Promises κ).Numbered := by
  intro number continuation h
  cases h

theorem Numbered.suspend (h : promises.Numbered) (suspended : κ)
    : (promises.suspend suspended).Numbered := by
  intro number continuation hwaiting
  rcases waiting_suspend.mp hwaiting with ⟨rfl, -⟩ | ⟨-, hold⟩
  . exact Nat.lt_succ_self _
  . exact Nat.lt_succ_of_lt (h number continuation hold)

theorem Numbered.settle (h : promises.Numbered) (other : Nat) : (promises.settle other).Numbered :=
  fun number continuation hwaiting => h number continuation (waiting_settle.mp hwaiting).2

end

end Promises
