import Mathlib.Data.List.Basic
import Mathlib.Data.List.Nodup

namespace List

variable {α β : Type}

theorem split_snoc {list before after : List α} {a b : α} (h : list ++ [a] = before ++ b :: after)
    : (before = list ∧ b = a) ∨ ∃ rest, list = before ++ b :: rest := by
  rcases List.eq_nil_or_concat after with rfl | ⟨rest, last, rfl⟩
  . rcases List.append_inj' h rfl with ⟨hlist, hlast⟩
    cases hlast
    exact .inl ⟨hlist.symm, rfl⟩
  . have hsplit : list ++ [a] = (before ++ b :: rest) ++ [last] := by simpa using h
    exact .inr ⟨rest, (List.append_inj' hsplit rfl).1⟩

-- The last separator splits a list in one way.
theorem append_cons_inj_of_not_mem {left right left' right' : List α} {a : α} (hright : a ∉ right)
    (hright' : a ∉ right') (h : left ++ a :: right = left' ++ a :: right')
    : left = left' ∧ right = right' := by
  rcases List.append_eq_append_iff.mp h with ⟨middle, hleft, hrest⟩ | ⟨middle, hleft, hrest⟩
  . cases middle with
    | nil => exact ⟨by simpa using hleft.symm, (List.cons.inj hrest).2⟩
    | cons head middle => exact absurd (by simp [(List.cons.inj hrest).2]) hright
  . cases middle with
    | nil => exact ⟨by simpa using hleft, (List.cons.inj hrest).2.symm⟩
    | cons head middle => exact absurd (by simp [(List.cons.inj hrest).2]) hright'

theorem singleton_eq_append_cons {a b : α} {left right : List α} (h : [a] = left ++ b :: right)
    : left = [] ∧ b = a := by
  cases left with
  | nil =>
    cases h
    exact ⟨rfl, rfl⟩
  | cons head left =>
    have hlength := congrArg List.length h
    simp at hlength

theorem mem_of_lookup [BEq α] [LawfulBEq α] {list : List (α × β)} {a : α} {b : β}
    (h : list.lookup a = some b) : (a, b) ∈ list := by
  rcases List.lookup_eq_some_iff.mp h with ⟨before, after, hsplit, -⟩
  rw [hsplit]
  exact List.mem_append_right before List.mem_cons_self

theorem split_append {list more before after : List α} {a : α}
    (h : list ++ more = before ++ a :: after)
    : (∃ rest, list = before ++ a :: rest) ∨ ∃ middle, before = list ++ middle ∧ more = middle ++ a :: after := by
  rcases List.append_eq_append_iff.mp h with ⟨middle, hbefore, hmore⟩ | ⟨rest, hlist, hrest⟩
  . exact .inr ⟨middle, hbefore, hmore⟩
  . cases rest with
    | nil => exact .inr ⟨[], by simpa using hlist.symm, by simpa using hrest.symm⟩
    | cons head rest =>
      cases hrest
      exact .inl ⟨rest, hlist⟩

theorem eq_of_nodup_filterMap {f : α → Option β} {list : List α} (h : (list.filterMap f).Nodup)
    {left right : α} {b : β} (hleft : left ∈ list) (hright : right ∈ list)
    (hf : f left = some b) (hf' : f right = some b) : left = right := by
  induction list with
  | nil => cases hleft
  | cons head tail ih =>
    have hmem : ∀ {a}, a ∈ tail → f a = some b → b ∈ tail.filterMap f :=
      fun ha hfa => List.mem_filterMap.mpr ⟨_, ha, hfa⟩
    rw [List.filterMap_cons] at h
    rcases List.mem_cons.mp hleft with rfl | hleft'
    . rcases List.mem_cons.mp hright with rfl | hright'
      . rfl
      . rw [hf] at h
        exact absurd (hmem hright' hf') (List.nodup_cons.mp h).1
    . rcases List.mem_cons.mp hright with rfl | hright'
      . rw [hf'] at h
        exact absurd (hmem hleft' hf) (List.nodup_cons.mp h).1
      . apply ih _ hleft' hright'
        cases hhead : f head with
        | none => simpa only [hhead] using h
        | some _ =>
          rw [hhead] at h
          exact (List.nodup_cons.mp h).2

-- A filter that is downward closed along the list keeps a prefix of what a weaker filter keeps.
theorem filter_prefix_filter {p q : α → Bool} {list : List α} (hpq : ∀ a, p a = true → q a = true)
    (hsorted : list.Pairwise fun a b => p b = true → p a = true) : list.filter p <+: list.filter q := by
  induction list with
  | nil => exact List.prefix_refl _
  | cons head tail ih =>
    rw [List.pairwise_cons] at hsorted
    by_cases hhead : p head = true
    . rw [List.filter_cons_of_pos hhead, List.filter_cons_of_pos (hpq head hhead)]
      exact (List.prefix_cons_inj head).mpr (ih hsorted.2)
    . have hnone : (head :: tail).filter p = [] := by
        rw [List.filter_cons_of_neg hhead, List.filter_eq_nil_iff]
        exact fun b hb hpb => hhead (hsorted.1 b hb hpb)
      rw [hnone]
      exact List.nil_prefix

-- A filter that drops the first elements keeps at most the others.
theorem length_filter_le_sub {p : α → Bool} {list : List α} {n : Nat} (h : ∀ a ∈ list.take n, p a = false)
    : (list.filter p).length ≤ list.length - n := by
  have hsplit : list.filter p = (list.take n).filter p ++ (list.drop n).filter p := by
    rw [← List.filter_append, List.take_append_drop]
  have hnone : (list.take n).filter p = [] := by
    rw [List.filter_eq_nil_iff]
    intro a ha
    simp [h a ha]
  rw [hsplit, hnone, List.nil_append, ← List.length_drop]
  exact List.length_filter_le _ _

end List
