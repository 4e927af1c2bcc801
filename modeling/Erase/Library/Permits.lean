import Erase.Library.FiniteMap
import Mathlib.Algebra.BigOperators.Ring.Multiset
import Mathlib.Algebra.Order.Group.Nat
import Mathlib.Algebra.Ring.Nat
import Mathlib.Data.List.Count

/-!
Counting semaphores whose permits are held by tasks: what is free and what the tasks hold add up to
the capacity, however the tasks take, keep and drop their permits.
-/

namespace FiniteMap

variable {ι τ : Type}

-- The sum of `f` over the values of a map.
def weigh (f : τ → Nat) (m : FiniteMap ι τ) : Nat := total (mapValues f m)

theorem weigh_eq_sum (f : τ → Nat) (m : FiniteMap ι τ)
    : weigh f m = (m.entries.map fun entry => f entry.2).sum := by
  unfold weigh total mapValues
  rw [Multiset.map_map]
  rfl

theorem weigh_add (f g : τ → Nat) (m : FiniteMap ι τ)
    : weigh (fun value => f value + g value) m = weigh f m + weigh g m := by
  simp only [weigh_eq_sum]
  exact Multiset.sum_map_add

theorem weigh_mono {f g : τ → Nat} (h : ∀ value, f value ≤ g value) (m : FiniteMap ι τ)
    : weigh f m ≤ weigh g m := by
  simp only [weigh_eq_sum]
  exact Multiset.sum_map_le_sum_map _ _ fun entry _ => h entry.2

theorem weigh_mul (n : Nat) (f : τ → Nat) (m : FiniteMap ι τ)
    : weigh (fun value => n * f value) m = n * weigh f m := by
  simp only [weigh_eq_sum]
  exact Multiset.sum_map_mul_left

variable [DecidableEq ι]

theorem weigh_le_of_lookup {f g : τ → Nat} {m : FiniteMap ι τ}
    (h : ∀ i value, m.lookup i = some value → f value ≤ g value) : weigh f m ≤ weigh g m := by
  simp only [weigh_eq_sum]
  apply Multiset.sum_map_le_sum_map
  intro entry hentry
  exact h entry.1 entry.2 (mem_entries_iff.mp hentry)

theorem exists_of_weigh_pos {f : τ → Nat} {m : FiniteMap ι τ} (h : 0 < weigh f m)
    : ∃ i value, m.lookup i = some value ∧ 0 < f value := by
  rw [weigh_eq_sum] at h
  by_contra hnone
  have hzero : (m.entries.map fun entry => f entry.2).sum = 0 := by
    apply Multiset.sum_eq_zero
    intro n hn
    rcases Multiset.mem_map.mp hn with ⟨entry, hentry, rfl⟩
    by_contra hpos
    exact hnone ⟨entry.1, entry.2, mem_entries_iff.mp hentry, Nat.pos_of_ne_zero hpos⟩
  omega

theorem weigh_eq_zero {f : τ → Nat} {m : FiniteMap ι τ} (h : ∀ i value, m.lookup i = some value → f value = 0)
    : weigh f m = 0 := by
  by_contra hpos
  rcases exists_of_weigh_pos (Nat.pos_of_ne_zero hpos) with ⟨i, value, hvalue, hweight⟩
  rw [h i value hvalue] at hweight
  omega

-- What one entry weighs, when it is there.
def weightAt (f : τ → Nat) (m : FiniteMap ι τ) (i : ι) : Nat := ((m.lookup i).map f).getD 0

theorem weigh_insert (f : τ → Nat) (m : FiniteMap ι τ) (i : ι) (value : τ)
    : weigh f (m.insert i value) + weightAt f m i = weigh f m + f value := by
  have herase : (mapValues f m).insert i (f value) = ((mapValues f m).erase i).insert i (f value) := by
    apply Finmap.ext_lookup
    intro x
    simp only [lookup_insert_ite, lookup_erase_ite]
    split <;> rfl
  rw [weigh, mapValues_insert, herase, total_insert Finmap.notMem_erase_self, weightAt, weigh]
  cases hlookup : m.lookup i with
  | none =>
    have habsent : i ∉ mapValues f m := by
      rw [← Finmap.lookup_eq_none, lookup_mapValues, hlookup]
      rfl
    rw [erase_of_notMem habsent]
    simp only [Option.map_none, Option.getD_none]
    omega
  | some old =>
    have hold : (mapValues f m).lookup i = some (f old) := by
      rw [lookup_mapValues, hlookup]
      rfl
    have htotal := total_erase hold
    simp only [Option.map_some, Option.getD_some]
    omega

end FiniteMap

namespace Permits

variable {κ ι τ : Type} [DecidableEq κ] [DecidableEq ι] (permits : τ → List κ)

def holding (tasks : FiniteMap ι τ) (slot : κ) : Nat :=
  tasks.weigh fun task => (permits task).count slot

/--
No permit is lost and none is handed out twice.
-/
def Conserved (capacity free : κ → Nat) (tasks : FiniteMap ι τ) : Prop :=
  ∀ slot, free slot + holding permits tasks slot = capacity slot

def heldBy (tasks : FiniteMap ι τ) (i : ι) : List κ := ((tasks.lookup i).map permits).getD []

variable {permits} {capacity free free' : κ → Nat} {tasks : FiniteMap ι τ} {i : ι} {task : τ}

omit [DecidableEq ι] in
theorem Conserved.holding_le (h : Conserved permits capacity free tasks) (slot : κ)
    : holding permits tasks slot ≤ capacity slot := by
  have hslot := h slot
  omega

theorem weightAt_eq (slot : κ)
    : tasks.weightAt (fun task => (permits task).count slot) i = (heldBy permits tasks i).count slot := by
  unfold FiniteMap.weightAt heldBy
  cases tasks.lookup i with
  | none => rfl
  | some old => rfl

-- A task goes on and changes what it holds, and what is free changes with it.
theorem Conserved.insert (h : Conserved permits capacity free tasks)
    (hbalance : ∀ slot, free' slot + (permits task).count slot
      = free slot + (heldBy permits tasks i).count slot)
    : Conserved permits capacity free' (tasks.insert i task) := by
  intro slot
  have hslot := h slot
  have hfree := hbalance slot
  have hweigh := tasks.weigh_insert (fun task => (permits task).count slot) i task
  rw [weightAt_eq] at hweigh
  unfold holding at *
  omega

end Permits
