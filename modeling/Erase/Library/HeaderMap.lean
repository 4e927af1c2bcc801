import Mathlib.Data.List.Basic

/-!
Maps with several values a name, in the order in which they came.
-/

abbrev HeaderMap (κ ν : Type) := List (κ × ν)

namespace HeaderMap

variable {κ ν : Type} [DecidableEq κ]

def getAll (headers : HeaderMap κ ν) (name : κ) : List ν :=
  (headers.filter fun header => header.1 = name).map Prod.snd

-- The other values of the name go.
def insert (headers : HeaderMap κ ν) (name : κ) (value : ν) : HeaderMap κ ν :=
  headers.filter (fun header => header.1 ≠ name) ++ [(name, value)]

def insertAll (headers pairs : HeaderMap κ ν) : HeaderMap κ ν :=
  pairs.foldl (fun headers pair => headers.insert pair.1 pair.2) headers

variable {headers pairs : HeaderMap κ ν} {name other : κ} {value : ν}

@[simp]
theorem getAll_nil : getAll ([] : HeaderMap κ ν) name = [] := rfl

@[simp]
theorem getAll_insert : (headers.insert name value).getAll name = [value] := by
  have hnone : (headers.filter fun header => header.1 ≠ name).filter (fun header => header.1 = name) = [] := by
    rw [List.filter_filter, List.filter_eq_nil_iff]
    simp
  rw [getAll, insert, List.filter_append, hnone]
  simp

theorem getAll_insert_of_ne (h : name ≠ other)
    : (headers.insert name value).getAll other = headers.getAll other := by
  have hkeep : (headers.filter fun header => header.1 ≠ name).filter (fun header => header.1 = other)
      = headers.filter fun header => header.1 = other := by
    rw [List.filter_filter]
    apply List.filter_congr
    intro header _
    by_cases hother : header.1 = other
    . simp [hother, h.symm]
    . simp [hother]
  rw [getAll, insert, List.filter_append, hkeep]
  simp [getAll, h]

theorem getAll_insertAll_of_not_mem (h : name ∉ pairs.map Prod.fst)
    : (headers.insertAll pairs).getAll name = headers.getAll name := by
  induction pairs generalizing headers with
  | nil => rfl
  | cons pair pairs ih =>
    simp only [List.map_cons, List.mem_cons, not_or] at h
    rw [insertAll, List.foldl_cons]
    change ((headers.insert pair.1 pair.2).insertAll pairs).getAll name = _
    rw [ih h.2, getAll_insert_of_ne (Ne.symm h.1)]

theorem getAll_insertAll (hnodup : (pairs.map Prod.fst).Nodup) (h : (name, value) ∈ pairs)
    : (headers.insertAll pairs).getAll name = [value] := by
  induction pairs generalizing headers with
  | nil => cases h
  | cons pair pairs ih =>
    simp only [List.map_cons, List.nodup_cons] at hnodup
    rw [insertAll, List.foldl_cons]
    change ((headers.insert pair.1 pair.2).insertAll pairs).getAll name = _
    cases List.mem_cons.mp h with
    | inl hhead =>
      subst hhead
      rw [getAll_insertAll_of_not_mem hnodup.1, getAll_insert]
    | inr htail => exact ih hnodup.2 htail

end HeaderMap
