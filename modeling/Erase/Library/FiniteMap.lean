import Mathlib.Algebra.BigOperators.Group.Multiset.Basic
import Mathlib.Algebra.Order.BigOperators.Group.Multiset
import Mathlib.Data.Finmap

/-!
Finite maps with values of one type: values mapped, filtered and summed.
-/

abbrev FiniteMap (α β : Type) := Finmap fun _ : α => β

namespace FiniteMap

variable {α β γ : Type}

def mapValues (f : β → γ) (m : FiniteMap α β) : FiniteMap α γ where
  entries := m.entries.map fun entry => ⟨entry.1, f entry.2⟩
  nodupKeys := by
    have hkeys := m.nodupKeys
    rw [← Multiset.nodup_keys] at hkeys ⊢
    simpa only [Multiset.keys, Multiset.map_map, Function.comp_def] using hkeys

def filterValues (p : β → Bool) (m : FiniteMap α β) : FiniteMap α β where
  entries := m.entries.filter fun entry => p entry.2 = true
  nodupKeys := by
    have hkeys := m.nodupKeys
    rw [← Multiset.nodup_keys] at hkeys ⊢
    exact Multiset.nodup_of_le (Multiset.map_le_map (Multiset.filter_le _ _)) hkeys

def total (m : FiniteMap α Nat) : Nat := (m.entries.map fun entry => entry.2).sum

def size (m : FiniteMap α β) : Nat := m.entries.card

@[simp]
theorem total_empty : total (∅ : FiniteMap α Nat) = 0 := rfl

@[simp]
theorem size_empty : size (∅ : FiniteMap α β) = 0 := rfl

@[simp]
theorem size_mapValues (f : β → γ) (m : FiniteMap α β) : size (mapValues f m) = size m :=
  Multiset.card_map _ _

theorem card_keys (m : FiniteMap α β) : m.keys.card = size m := Multiset.card_map _ _

theorem eq_empty_iff_size {m : FiniteMap α β} : m = ∅ ↔ size m = 0 := by
  unfold size
  rw [Multiset.card_eq_zero, ← Finmap.ext_iff']
  rfl

@[simp]
theorem mapValues_eq_empty_iff (f : β → γ) (m : FiniteMap α β) : mapValues f m = ∅ ↔ m = ∅ := by
  rw [eq_empty_iff_size, size_mapValues, eq_empty_iff_size]

variable [DecidableEq α]

theorem mem_entries_iff {m : FiniteMap α β} {a : α} {b : β}
    : (⟨a, b⟩ : Sigma fun _ : α => β) ∈ m.entries ↔ m.lookup a = some b :=
  Finmap.lookup_eq_some_iff.symm

@[simp]
theorem lookup_mapValues (f : β → γ) (m : FiniteMap α β) (a : α)
    : (mapValues f m).lookup a = (m.lookup a).map f := by
  apply Option.ext
  intro c
  simp only [← mem_entries_iff, Option.map_eq_some_iff, mapValues, Multiset.mem_map]
  constructor
  . rintro ⟨⟨a', b⟩, hmem, heq⟩
    cases heq
    exact ⟨b, hmem, rfl⟩
  . rintro ⟨b, hmem, rfl⟩
    exact ⟨⟨a, b⟩, hmem, rfl⟩

@[simp]
theorem lookup_filterValues (p : β → Bool) (m : FiniteMap α β) (a : α)
    : (filterValues p m).lookup a = (m.lookup a).filter p := by
  apply Option.ext
  intro b
  simp only [← mem_entries_iff, filterValues, Multiset.mem_filter, Option.filter_eq_some_iff]

theorem lookup_insert_ite (m : FiniteMap α β) (a x : α) (b : β)
    : (m.insert a b).lookup x = if x = a then some b else m.lookup x := by
  split
  . next h => rw [h, Finmap.lookup_insert]
  . next h => exact Finmap.lookup_insert_of_ne m h

theorem lookup_erase_ite (m : FiniteMap α β) (a x : α)
    : (m.erase a).lookup x = if x = a then none else m.lookup x := by
  split
  . next h => rw [h, Finmap.lookup_erase]
  . next h => exact Finmap.lookup_erase_ne h

theorem mapValues_insert (f : β → γ) (m : FiniteMap α β) (a : α) (b : β)
    : mapValues f (m.insert a b) = (mapValues f m).insert a (f b) := by
  apply Finmap.ext_lookup
  intro x
  simp only [lookup_mapValues, lookup_insert_ite, apply_ite (Option.map f), Option.map_some]

theorem mapValues_erase (f : β → γ) (m : FiniteMap α β) (a : α)
    : mapValues f (m.erase a) = (mapValues f m).erase a := by
  apply Finmap.ext_lookup
  intro x
  simp only [lookup_mapValues, lookup_erase_ite, apply_ite (Option.map f), Option.map_none]

theorem erase_of_notMem {m : FiniteMap α β} {a : α} (h : a ∉ m) : m.erase a = m := by
  apply Finmap.ext_lookup
  intro x
  rw [lookup_erase_ite]
  split
  . next hx => rw [hx, Finmap.lookup_eq_none.mpr h]
  . rfl

@[simp]
theorem erase_insert_self (m : FiniteMap α β) (a : α) (b : β) : (m.insert a b).erase a = m.erase a := by
  apply Finmap.ext_lookup
  intro x
  rw [lookup_erase_ite, lookup_erase_ite, lookup_insert_ite]
  split <;> rfl

@[simp]
theorem erase_erase_self (m : FiniteMap α β) (a : α) : (m.erase a).erase a = m.erase a :=
  erase_of_notMem Finmap.notMem_erase_self

theorem insert_erase {m : FiniteMap α β} {a : α} {b : β} (h : m.lookup a = some b)
    : (m.erase a).insert a b = m := by
  apply Finmap.ext_lookup
  intro x
  rw [lookup_insert_ite, lookup_erase_ite]
  split
  . next hx => rw [hx, h]
  . rfl

theorem total_insert {m : FiniteMap α Nat} {a : α} {n : Nat} (h : a ∉ m)
    : total (m.insert a n) = n + total m := by
  simp [total, Finmap.entries_insert_of_notMem h]

theorem size_insert {m : FiniteMap α β} {a : α} {b : β} (h : a ∉ m)
    : size (m.insert a b) = size m + 1 := by
  simp [size, Finmap.entries_insert_of_notMem h]

theorem total_erase {m : FiniteMap α Nat} {a : α} {n : Nat} (h : m.lookup a = some n)
    : n + total (m.erase a) = total m := by
  rw [← total_insert Finmap.notMem_erase_self, insert_erase h]

theorem le_total {m : FiniteMap α Nat} {a : α} {n : Nat} (h : m.lookup a = some n)
    : n ≤ total m :=
  Nat.le.intro (total_erase h)

theorem size_erase_le (m : FiniteMap α β) (a : α) : size (m.erase a) ≤ size m := by
  by_cases h : a ∈ m
  . rcases Finmap.mem_iff.mp h with ⟨b, hb⟩
    have hsize := size_insert (b := b) (Finmap.notMem_erase_self (a := a) (s := m))
    rw [insert_erase hb] at hsize
    omega
  . rw [erase_of_notMem h]

end FiniteMap
