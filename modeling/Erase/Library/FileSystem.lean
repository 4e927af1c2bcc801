import Mathlib.Data.List.Basic
import Mathlib.Logic.Function.Basic
import Erase.Library.Bytes
import Erase.Library.Text

/-!
Paths as `join` of a POSIX `path` module resolves them, and the files of a volume on which every
file is created exclusively.
-/

namespace Posix

def separator : UInt16 := 47

def dot : JsString := [46]

def dots : JsString := [46, 46]

structure Path where
  absolute : Bool
  segments : List JsString
  deriving DecidableEq

namespace Path

-- The resolved segments are kept in reverse order.
def push (absolute : Bool) (resolved : List JsString) (segment : JsString) : List JsString :=
  if segment = [] ∨ segment = dot then resolved
  else if segment = dots then
    match resolved with
    | [] => if absolute then [] else [dots]
    | last :: rest => if last = dots then dots :: last :: rest else rest
  else segment :: resolved

def normalize (text : JsString) : Path where
  absolute := text.head? = some separator
  segments :=
    ((text.splitOn separator).foldl (push (text.head? = some separator)) []).reverse

def join (directory name : JsString) : Path :=
  normalize ([separator].intercalate ([directory, name].filter (· ≠ [])))

def child (directory : Path) (name : JsString) : Path :=
  { directory with segments := directory.segments ++ [name] }

theorem push_of_ne {absolute : Bool} {resolved : List JsString} {segment : JsString}
    (hnil : segment ≠ []) (hdot : segment ≠ dot) (hdots : segment ≠ dots)
    : push absolute resolved segment = segment :: resolved := by
  simp [push, hnil, hdot, hdots]

-- A plain name, joined to a directory, is a child of this directory.
theorem join_eq_child {directory name : JsString} (hnil : name ≠ []) (hdot : name ≠ dot)
    (hdots : name ≠ dots) (hseparator : separator ∉ name)
    : join directory name = (normalize directory).child name := by
  have hname : name.splitOn separator = [name] := by
    rw [List.splitOn_eq_splitOnP]
    apply List.splitOnP_eq_singleton
    intro unit hunit
    simpa using fun h : unit = separator => hseparator (h ▸ hunit)
  by_cases hdirectory : directory = []
  . subst hdirectory
    have hhead : name.head? ≠ some separator := fun h => hseparator (List.mem_of_mem_head? h)
    have hjoin : [separator].intercalate ([[], name].filter (· ≠ [])) = name := by
      simp [hnil]
    rw [join, hjoin]
    simp [normalize, child, hname, hhead, push, hnil, hdot, hdots]
  . have hjoin : [separator].intercalate ([directory, name].filter (· ≠ []))
        = directory ++ separator :: name := by
      simp [hnil, hdirectory, List.intercalate]
    have hhead : (directory ++ separator :: name).head? = directory.head? := by
      cases directory with
      | nil => exact absurd rfl hdirectory
      | cons unit rest => simp
    have hsplit : (directory ++ separator :: name).splitOn separator
        = directory.splitOn separator ++ [name] := by
      rw [List.splitOn_eq_splitOnP, List.splitOnP_append_cons _ _ (by simp),
        ← List.splitOn_eq_splitOnP, ← List.splitOn_eq_splitOnP, hname]
    rw [join, hjoin]
    simp [normalize, child, hhead, hsplit, push_of_ne hnil hdot hdots]

structure IsPlain (name : JsString) : Prop where
  nonempty : name ≠ []
  dot : name ≠ Posix.dot
  dots : name ≠ Posix.dots
  separator : Posix.separator ∉ name

-- What is below a directory, through these names.
def descend (directory : Path) (names : List JsString) : Path :=
  { directory with segments := directory.segments ++ names }

-- A component added to the text of a path.
def add (directory name : JsString) : JsString :=
  if directory = [] then name
  else if directory.getLast? = some separator then directory ++ name
  else directory ++ separator :: name

theorem splitOn_separator (left right : JsString)
    : (left ++ separator :: right).splitOn separator = left.splitOn separator ++ right.splitOn separator := by
  rw [List.splitOn_eq_splitOnP, List.splitOnP_append_cons _ _ (by simp), ← List.splitOn_eq_splitOnP,
    ← List.splitOn_eq_splitOnP]

theorem IsPlain.splitOn {name : JsString} (h : IsPlain name) : name.splitOn Posix.separator = [name] := by
  rw [List.splitOn_eq_splitOnP]
  apply List.splitOnP_eq_singleton
  intro unit hunit
  simpa using fun hsame : unit = Posix.separator => h.separator (hsame ▸ hunit)

theorem normalize_add {directory name : JsString} (hplain : IsPlain name)
    : normalize (add directory name) = (normalize directory).child name := by
  have hpush : ∀ {absolute resolved}, push absolute resolved name = name :: resolved :=
    push_of_ne hplain.nonempty hplain.dot hplain.dots
  have hnil : ∀ {absolute resolved}, push absolute resolved [] = resolved := by simp [push]
  unfold add
  split
  . next hempty =>
    have hhead : name.head? ≠ some separator := fun h => hplain.separator (List.mem_of_mem_head? h)
    simp [normalize, child, hempty, hplain.splitOn, hhead, hpush, hnil]
  . next hdirectory =>
    split
    . next hlast =>
      rcases List.getLast?_eq_some_iff.mp hlast with ⟨parent, rfl⟩
      have hhead : (parent ++ separator :: name).head? = (parent ++ [separator]).head? := by
        cases parent <;> rfl
      have hsplit := splitOn_separator parent name
      have hparent := splitOn_separator parent []
      rw [List.append_assoc, List.singleton_append]
      simp [normalize, child, hhead, hsplit, hparent, hplain.splitOn, hpush, hnil]
    . have hhead : (directory ++ separator :: name).head? = directory.head? := by
        cases directory with
        | nil => exact absurd rfl hdirectory
        | cons unit rest => rfl
      simp [normalize, child, hhead, splitOn_separator, hplain.splitOn, hpush]

-- Plain names lead below a directory and nowhere else.
theorem normalize_foldl_add {directory : JsString} {names : List JsString}
    (hplain : ∀ name ∈ names, IsPlain name)
    : normalize (names.foldl add directory) = (normalize directory).descend names := by
  induction names generalizing directory with
  | nil => simp [descend]
  | cons name names ih =>
    rw [List.foldl_cons, ih fun other hother => hplain other (List.mem_cons_of_mem _ hother),
      normalize_add (hplain name List.mem_cons_self)]
    simp [descend, child]

end Path

-- The content of each file. Two paths with one key name one file: a volume may ignore case.
abbrev Files (κ : Type) := κ → Option Bytes

structure Volume (κ : Type) where
  key : Path → κ
  -- Whether a file cannot be opened although there is none.
  refuses : Path → Bool
  -- After how many bytes writing to a file fails.
  breaks : Path → Option Nat
  message : Path → String

inductive Outcome where
  | refused
  | broken
  | created
  deriving DecidableEq

structure Attempt where
  path : Path
  data : Bytes
  outcome : Outcome
  deriving DecidableEq

namespace Volume

variable {κ : Type} [DecidableEq κ] (volume : Volume κ)

-- `open` with the flag `wx`, and what is then written.
def create (files : Files κ) (path : Path) (data : Bytes) : Outcome × Files κ :=
  if (files (volume.key path)).isSome ∨ volume.refuses path then (.refused, files)
  else
    match volume.breaks path with
    | some count => (.broken, Function.update files (volume.key path) (some (data.take count)))
    | none => (.created, Function.update files (volume.key path) (some data))

-- Stops at the first failure.
def createAll (files : Files κ) : List (Path × Bytes) → List Attempt × Files κ
  | [] => ([], files)
  | (path, data) :: rest =>
    if (volume.create files path data).1 = .created then
      (⟨path, data, .created⟩ :: (createAll (volume.create files path data).2 rest).1,
        (createAll (volume.create files path data).2 rest).2)
    else ([⟨path, data, (volume.create files path data).1⟩], (volume.create files path data).2)

variable {volume} {files : Files κ} {path : Path} {data : Bytes} {key : κ} {bytes : Bytes}

theorem create_cases (volume : Volume κ) (files : Files κ) (path : Path) (data : Bytes)
    : volume.create files path data = (.refused, files)
      ∨ files (volume.key path) = none
        ∧ ((∃ count, volume.create files path data
            = (.broken, Function.update files (volume.key path) (some (data.take count))))
          ∨ volume.create files path data
            = (.created, Function.update files (volume.key path) (some data))) := by
  unfold create
  split
  . exact .inl rfl
  . next h =>
    simp only [not_or, Bool.not_eq_true, Option.isSome_eq_false_iff, Option.isNone_iff_eq_none] at h
    refine .inr ⟨h.1, ?_⟩
    split
    . next count _ => exact .inl ⟨count, rfl⟩
    . exact .inr rfl

theorem create_keeps (h : files key = some bytes)
    : (volume.create files path data).2 key = some bytes := by
  have hne : files (volume.key path) = none → key ≠ volume.key path := by
    intro hnone hkey
    rw [hkey, hnone] at h
    cases h
  rcases create_cases volume files path data with heq | ⟨hnone, ⟨count, heq⟩ | heq⟩
  . rw [heq]
    exact h
  . rw [heq]
    simpa [Function.update_of_ne (hne hnone)] using h
  . rw [heq]
    simpa [Function.update_of_ne (hne hnone)] using h

theorem create_exclusive (h : (volume.create files path data).1 ≠ .refused)
    : files (volume.key path) = none := by
  rcases create_cases volume files path data with heq | ⟨hnone, -⟩
  . exact absurd (by rw [heq]) h
  . exact hnone

theorem create_created (h : (volume.create files path data).1 = .created)
    : (volume.create files path data).2 (volume.key path) = some data := by
  rcases create_cases volume files path data with heq | ⟨-, ⟨count, heq⟩ | heq⟩
  . rw [heq] at h
    cases h
  . rw [heq] at h
    cases h
  . rw [heq]
    simp

theorem createAll_cons_of_created {rest : List (Path × Bytes)}
    (h : (volume.create files path data).1 = .created)
    : volume.createAll files ((path, data) :: rest)
        = (⟨path, data, .created⟩ :: (volume.createAll (volume.create files path data).2 rest).1,
          (volume.createAll (volume.create files path data).2 rest).2) := by
  simp [createAll, h]

theorem createAll_cons_of_failed {rest : List (Path × Bytes)}
    (h : (volume.create files path data).1 ≠ .created)
    : volume.createAll files ((path, data) :: rest)
        = ([⟨path, data, (volume.create files path data).1⟩], (volume.create files path data).2) := by
  simp [createAll, h]

variable (volume)

theorem createAll_keeps (requests : List (Path × Bytes)) {files : Files κ} (h : files key = some bytes)
    : (volume.createAll files requests).2 key = some bytes := by
  induction requests generalizing files with
  | nil => exact h
  | cons request rest ih =>
    rcases request with ⟨path, data⟩
    by_cases hcreated : (volume.create files path data).1 = .created
    . rw [createAll_cons_of_created hcreated]
      exact ih (create_keeps h)
    . rw [createAll_cons_of_failed hcreated]
      exact create_keeps h

-- The attempts take the requests in order, and only the last of them may fail.
theorem createAll_attempts (files : Files κ) (requests : List (Path × Bytes))
    : (volume.createAll files requests).1.map (fun attempt => (attempt.path, attempt.data)) <+: requests
      ∧ (∀ attempt ∈ (volume.createAll files requests).1.dropLast, attempt.outcome = .created)
      ∧ ((∀ attempt ∈ (volume.createAll files requests).1, attempt.outcome = .created)
        → (volume.createAll files requests).1.map (fun attempt => (attempt.path, attempt.data))
          = requests) := by
  induction requests generalizing files with
  | nil => simp [createAll]
  | cons request rest ih =>
    rcases request with ⟨path, data⟩
    by_cases hcreated : (volume.create files path data).1 = .created
    . rw [createAll_cons_of_created hcreated]
      rcases ih (volume.create files path data).2 with ⟨horder, hlast, hall⟩
      refine ⟨?_, ?_, ?_⟩
      . simpa using horder
      . intro attempt hmem
        rcases List.mem_cons.mp (List.mem_of_mem_dropLast hmem) with rfl | hrest
        . rfl
        . cases hattempts : (volume.createAll (volume.create files path data).2 rest).1 with
          | nil =>
            rw [hattempts] at hrest
            cases hrest
          | cons first others =>
            rw [hattempts, List.dropLast_cons_of_ne_nil (by simp), ← hattempts] at hmem
            rcases List.mem_cons.mp hmem with rfl | hmem
            . rfl
            . exact hlast attempt hmem
      . intro h
        have hrest := hall fun attempt hmem => h attempt (List.mem_cons_of_mem _ hmem)
        simp [hrest]
    . rw [createAll_cons_of_failed hcreated]
      refine ⟨by simp, by simp, ?_⟩
      intro h
      exact absurd (h _ (List.mem_singleton_self _)) hcreated

-- A file is created only where none was, and holds in the end what was written to it.
theorem createAll_created {attempt : Attempt} (files : Files κ) (requests : List (Path × Bytes))
    (hmem : attempt ∈ (volume.createAll files requests).1)
    : (attempt.outcome ≠ .refused → files (volume.key attempt.path) = none)
      ∧ (attempt.outcome = .created
        → (volume.createAll files requests).2 (volume.key attempt.path) = some attempt.data) := by
  induction requests generalizing files with
  | nil => cases hmem
  | cons request rest ih =>
    rcases request with ⟨path, data⟩
    by_cases hcreated : (volume.create files path data).1 = .created
    . rw [createAll_cons_of_created hcreated] at hmem ⊢
      rcases List.mem_cons.mp hmem with rfl | hmem
      . constructor
        . intro _
          have hne : (volume.create files path data).1 ≠ .refused := by simp [hcreated]
          exact create_exclusive hne
        . intro _
          exact createAll_keeps volume rest (create_created hcreated)
      . rcases ih _ hmem with ⟨hexclusive, hholds⟩
        refine ⟨?_, hholds⟩
        intro hattempt
        cases hfile : files (volume.key attempt.path) with
        | none => rfl
        | some bytes =>
          have hkept : (volume.create files path data).2 (volume.key attempt.path) = some bytes :=
            create_keeps hfile
          rw [hexclusive hattempt] at hkept
          cases hkept
    . rw [createAll_cons_of_failed hcreated] at hmem ⊢
      rw [List.mem_singleton] at hmem
      subst hmem
      exact ⟨create_exclusive, fun h => absurd h hcreated⟩

end Volume

end Posix
