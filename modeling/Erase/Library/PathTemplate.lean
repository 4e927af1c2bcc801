import Mathlib.Data.List.Basic

/-!
Paths as segments between slashes, and templates that capture some of the segments.
-/

namespace PathTemplate

inductive Segment where
  | literal (text : List Char)
  | parameter
  deriving DecidableEq, Repr

def segments (path : List Char) : List (List Char) := path.splitOn '/'

def unsplit (segments : List (List Char)) : List Char := ['/'].intercalate segments

-- A segment in braces is a parameter.
def Segment.parse (text : List Char) : Segment :=
  if text.head? = some '{' ∧ text.getLast? = some '}' then .parameter else .literal text

def parse (template : String) : List Segment := (segments template.toList).map Segment.parse

-- A parameter captures one segment that is not empty.
def capture? : List Segment → List (List Char) → Option (List (List Char))
  | [], [] => some []
  | .literal text :: template, segment :: path =>
    if text = segment then capture? template path else none
  | .parameter :: template, segment :: path =>
    if segment = [] then none else (capture? template path).map (segment :: ·)
  | _, _ => none

def fill : List Segment → List (List Char) → List (List Char)
  | .literal text :: template, captured => text :: fill template captured
  | .parameter :: template, segment :: captured => segment :: fill template captured
  | _, _ => []

def arity (template : List Segment) : Nat := template.count .parameter

theorem unsplit_segments (path : List Char) : unsplit (segments path) = path :=
  List.intercalate_splitOn '/'

theorem segments_unsplit {list : List (List Char)} (hplain : ∀ segment ∈ list, '/' ∉ segment)
    (hne : list ≠ []) : segments (unsplit list) = list :=
  List.splitOn_intercalate '/' hplain hne

theorem not_mem_segment {path segment : List Char} (h : segment ∈ segments path) : '/' ∉ segment := by
  unfold segments at h
  induction path generalizing segment with
  | nil =>
    rw [List.splitOn_nil, List.mem_singleton] at h
    rw [h]
    exact List.not_mem_nil
  | cons c path ih =>
    rw [List.splitOn_cons_eq_if_modifyHead] at h
    split at h
    . rcases List.mem_cons.mp h with rfl | h
      . exact List.not_mem_nil
      . exact ih h
    . next hc =>
      have hne : c ≠ '/' := by simpa using hc
      cases hsplit : path.splitOn '/' with
      | nil => exact absurd hsplit (List.splitOn_ne_nil _ _)
      | cons first rest =>
        rw [hsplit, List.modifyHead_cons] at h
        rcases List.mem_cons.mp h with rfl | h
        . have hfirst := ih (hsplit ▸ List.mem_cons_self)
          simp [hfirst, hne.symm]
        . exact ih (hsplit ▸ List.mem_cons_of_mem _ h)

theorem mem_of_mem_segment {path segment : List Char} {c : Char} (h : segment ∈ segments path)
    (hc : c ∈ segment) : c ∈ path := by
  unfold segments at h
  induction path generalizing segment with
  | nil =>
    rw [List.splitOn_nil, List.mem_singleton] at h
    rwa [h] at hc
  | cons head path ih =>
    rw [List.splitOn_cons_eq_if_modifyHead] at h
    split at h
    . rcases List.mem_cons.mp h with rfl | h
      . cases hc
      . exact List.mem_cons_of_mem _ (ih h hc)
    . cases hsplit : path.splitOn '/' with
      | nil => exact absurd hsplit (List.splitOn_ne_nil _ _)
      | cons first rest =>
        rw [hsplit, List.modifyHead_cons] at h
        rcases List.mem_cons.mp h with rfl | h
        . rcases List.mem_cons.mp hc with rfl | hc
          . exact List.mem_cons_self
          . exact List.mem_cons_of_mem _ (ih (hsplit ▸ List.mem_cons_self) hc)
        . exact List.mem_cons_of_mem _ (ih (hsplit ▸ List.mem_cons_of_mem _ h) hc)

theorem segments_append (left right : List Char)
    : segments (left ++ '/' :: right) = segments left ++ segments right :=
  List.splitOn_append_cons_self left right

-- A suffix without slashes is one of the last segment.
theorem exists_last_segment {suffix path : List Char} (hplain : '/' ∉ suffix) (h : suffix <:+ path)
    : ∃ initial last, segments path = initial ++ [last] ∧ suffix <:+ last := by
  rcases h with ⟨front, rfl⟩
  induction front with
  | nil => exact ⟨[], suffix, List.splitOn_eq_singleton hplain, List.suffix_refl suffix⟩
  | cons c front ih =>
    rcases ih with ⟨initial, last, hsegments, hlast⟩
    unfold segments at hsegments ⊢
    rw [List.cons_append, List.splitOn_cons_eq_if_modifyHead, hsegments]
    split
    . exact ⟨[] :: initial, last, rfl, hlast⟩
    . cases initial with
      | nil => exact ⟨[], c :: last, rfl, hlast.trans (List.suffix_cons c last)⟩
      | cons first initial => exact ⟨(c :: first) :: initial, last, rfl, hlast⟩

theorem capture?_eq_some_iff {template : List Segment} {path captured : List (List Char)}
    : capture? template path = some captured
        ↔ captured.length = arity template ∧ [] ∉ captured ∧ path = fill template captured := by
  induction template generalizing path captured with
  | nil =>
    cases path with
    | nil => cases captured <;> simp [capture?, arity, fill]
    | cons segment path => simp [capture?, fill]
  | cons head template ih =>
    cases head with
    | literal text =>
      cases path with
      | nil => simp [capture?, fill]
      | cons segment path =>
        by_cases htext : text = segment
        . simp [capture?, htext, ih, arity, fill]
        . simp [capture?, htext, fill, Ne.symm htext]
    | parameter =>
      cases path with
      | nil =>
        cases captured with
        | nil => simp [capture?, arity]
        | cons first captured => simp [capture?, fill]
      | cons segment path =>
        cases captured with
        | nil => simp [capture?, arity]
        | cons first captured =>
          by_cases hempty : segment = []
          . simp only [capture?, hempty, if_true, fill, List.cons.injEq, reduceCtorEq, false_iff]
            rintro ⟨-, hmem, hfirst, -⟩
            apply hmem
            simp [← hfirst]
          . simp only [capture?, hempty, if_false, fill, Option.map_eq_some_iff, List.cons.injEq, ih,
              List.length_cons, arity, List.count_cons_self, List.mem_cons, not_or]
            constructor
            . rintro ⟨rest, ⟨hlength, hmem, rfl⟩, rfl, rfl⟩
              exact ⟨by omega, ⟨fun h => hempty h.symm, hmem⟩, rfl, rfl⟩
            . rintro ⟨hlength, ⟨-, hmem⟩, rfl, rfl⟩
              exact ⟨captured, ⟨by omega, hmem, rfl⟩, rfl, rfl⟩

-- What a template captures from a path, and which path it is.
theorem capture?_segments {template : List Segment} {path : List Char} {captured : List (List Char)}
    (h : capture? template (segments path) = some captured)
    : path = unsplit (fill template captured)
        ∧ ∀ segment ∈ captured, segment ≠ [] ∧ segment ∈ segments path := by
  rcases capture?_eq_some_iff.mp h with ⟨hlength, hnonempty, hpath⟩
  refine ⟨?_, ?_⟩
  . rw [← hpath, unsplit_segments]
  . intro segment hsegment
    refine ⟨fun hnil => hnonempty (hnil ▸ hsegment), ?_⟩
    rw [hpath]
    clear h hpath hnonempty path
    induction template generalizing captured with
    | nil => simp [arity] at hlength; simp [hlength] at hsegment
    | cons head template ih =>
      cases head with
      | literal text =>
        rw [fill]
        exact List.mem_cons_of_mem _ (ih (by simpa [arity] using hlength) hsegment)
      | parameter =>
        cases captured with
        | nil => cases hsegment
        | cons first captured =>
          rw [fill]
          rcases List.mem_cons.mp hsegment with rfl | hsegment
          . exact List.mem_cons_self
          . exact List.mem_cons_of_mem _ (ih (by simpa [arity] using hlength) hsegment)

end PathTemplate
