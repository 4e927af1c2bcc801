import Mathlib.Data.List.Dedup
import Erase.Library.FileSystem
import Erase.Cli.Receive
import Erase.Shared.RoundTrip

namespace Cli

open Posix (Attempt Files Path Volume)

structure Output where
  name : JsString
  data : Bytes
  deriving DecidableEq

def messageName : JsString := JsString.ofString "message.txt"

def numberedName (n : Nat) : JsString :=
  JsString.ofString "message-" ++ Ascii.units (Decimal.codes n) ++ JsString.ofString ".txt"

-- What a call has done to the files, whether or not it fails in the end.
structure Report (κ : Type) where
  attempts : List Attempt
  files : Files κ
  result : Except Failure Unit

section

variable (unicode : Shared.Unicode)

def isTaken (names : List JsString) (textName : JsString) : Bool :=
  names.any fun name => unicode.toLowerCase name = unicode.toLowerCase textName

-- The search may go on after this number of tries.
def findTextName (names : List JsString)
    : (tries : Nat) → (textName : JsString) → (n : Nat) → Option JsString
  | 0, _, _ => none
  | tries + 1, textName, n =>
    if isTaken unicode names textName then findTextName names tries (numberedName n) (n + 1)
    else some textName

def outputs (tries : Nat) (content : Shared.ContentInput)
    : Except Failure (Option (List Output)) := do
  let names ← (content.files.mapM fun file =>
    Shared.normalizeFilename unicode file.name).mapError .shared
  if (names.map unicode.toLowerCase).dedup.length ≠ names.length then
    .error (.cli (.error "Duplicate output file names."))
  return (findTextName unicode names tries messageName 1).map fun textName =>
    List.zipWith (fun name file => ⟨name, file.data⟩) names content.files
      ++ if content.text ≠ [] then [⟨textName, Shared.encoderEncode content.text⟩] else []

variable {κ : Type} [DecidableEq κ] (volume : Volume κ) (directory : JsString)

def writeOutputs (files : Files κ) (list : List Output) : Report κ :=
  let (attempts, files) := volume.createAll files
    (list.map fun output => (Path.join directory output.name, output.data))
  let result :=
    match attempts.find? fun attempt => attempt.outcome ≠ .created with
    | some attempt => .error (.cli (.error (volume.message attempt.path)))
    | none => .ok ()
  ⟨attempts, files, result⟩

def writeContent (files : Files κ) (tries : Nat) (content : Shared.ContentInput) : Option (Report κ) :=
  match outputs unicode tries content with
  | .error failure => some ⟨[], files, .error failure⟩
  | .ok list => list.map (writeOutputs volume directory files)

end

-- The names of the text that the search tries, in order.
def candidate : Nat → JsString
  | 0 => messageName
  | n + 1 => numberedName (n + 1)

def IsPlainUnit (unit : UInt16) : Prop :=
  unit.toNat = 45 ∨ unit.toNat = 46 ∨ (48 ≤ unit.toNat ∧ unit.toNat ≤ 57)
    ∨ (97 ≤ unit.toNat ∧ unit.toNat ≤ 122)

instance (unit : UInt16) : Decidable (IsPlainUnit unit) :=
  inferInstanceAs (Decidable (_ ∨ _ ∨ (_ ∧ _) ∨ (_ ∧ _)))

theorem messageName_eq : messageName = JsString.ofString "message" ++ 46 :: [116, 120, 116] := by decide

theorem numberedName_eq (n : Nat)
    : numberedName n = JsString.ofString "message"
        ++ 45 :: (Ascii.units (Decimal.codes n) ++ [46, 116, 120, 116]) := by
  have hstart : JsString.ofString "message-" = JsString.ofString "message" ++ [45] := by decide
  have hend : JsString.ofString ".txt" = [46, 116, 120, 116] := by decide
  rw [numberedName, hstart, hend]
  simp

theorem plain_of_mem_candidate {n : Nat} {unit : UInt16} (h : unit ∈ candidate n)
    : IsPlainUnit unit := by
  cases n with
  | zero =>
    have hall : messageName.all (fun unit => IsPlainUnit unit) = true := by decide
    exact of_decide_eq_true (List.all_eq_true.mp hall unit h)
  | succ n =>
    have hall : (JsString.ofString "message-" ++ JsString.ofString ".txt").all
        (fun unit => IsPlainUnit unit) = true := by decide
    have hmem : unit ∈ Ascii.units (Decimal.codes (n + 1))
        ∨ unit ∈ JsString.ofString "message-" ++ JsString.ofString ".txt" := by
      simp only [candidate, numberedName, List.mem_append] at h ⊢
      tauto
    rcases hmem with hdigit | hother
    . simp only [Ascii.units, List.mem_map] at hdigit
      rcases hdigit with ⟨code, hcode, rfl⟩
      have hrange := Decimal.isDigit_of_mem_codes hcode
      simp only [Decimal.isDigit, Bool.and_eq_true, decide_eq_true_eq] at hrange
      have hlt : code < UInt16.size := show code < 65536 by omega
      have hnat : (UInt16.ofNat code).toNat = code := UInt16.toNat_ofNat_of_lt' hlt
      right; right; left
      omega
    . exact of_decide_eq_true (List.all_eq_true.mp hall unit hother)

theorem candidate_injective : Function.Injective candidate := by
  intro left right h
  cases left with
  | zero =>
    cases right with
    | zero => rfl
    | succ right =>
      simp only [candidate, messageName_eq, numberedName_eq, List.append_cancel_left_eq,
        List.cons.injEq] at h
      exact absurd h.1 (by decide)
  | succ left =>
    cases right with
    | zero =>
      simp only [candidate, messageName_eq, numberedName_eq, List.append_cancel_left_eq,
        List.cons.injEq] at h
      exact absurd h.1 (by decide)
    | succ right =>
      simp only [candidate, numberedName, List.append_cancel_left_eq, List.append_cancel_right_eq,
        List.append_assoc] at h
      have hcodes := Ascii.units_injOn (Decimal.isAscii_codes _) (Decimal.isAscii_codes _) h
      have hvalue := congrArg Decimal.value hcodes
      simpa using hvalue

variable {unicode : Shared.Unicode}

theorem toLowerCase_candidate (hunicode : unicode.Lawful) (n : Nat)
    : unicode.toLowerCase (candidate n) = candidate n := by
  have hplain : ∀ unit ∈ candidate n, unit.toNat < 128 ∧ Shared.foldUnit unit = id unit := by
    intro unit hunit
    have hunit := plain_of_mem_candidate hunit
    simp only [IsPlainUnit] at hunit
    refine ⟨by omega, ?_⟩
    have hrange : ¬(65 ≤ unit && unit ≤ 90) := by
      simp only [Bool.and_eq_true, decide_eq_true_eq, UInt16.le_iff_toNat_le]
      have h65 : (65 : UInt16).toNat = 65 := rfl
      have h90 : (90 : UInt16).toNat = 90 := rfl
      omega
    rw [Shared.foldUnit, if_neg hrange, id]
  rw [hunicode.toLowerCase_ascii _ fun unit hunit => (hplain unit hunit).1,
    List.map_congr_left fun unit hunit => (hplain unit hunit).2, List.map_id]

-- One of more candidates than there are names is free.
theorem exists_free (hunicode : unicode.Lawful) (names : List JsString)
    : ∃ k ≤ names.length, isTaken unicode names (candidate k) = false
      ∧ ∀ j < k, isTaken unicode names (candidate j) = true := by
  have hexists : ∃ k ≤ names.length, isTaken unicode names (candidate k) = false := by
    by_contra hnone
    push Not at hnone
    have hsubset : (List.range (names.length + 1)).map candidate ⊆ names.map unicode.toLowerCase := by
      intro name hname
      simp only [List.mem_map, List.mem_range] at hname
      rcases hname with ⟨k, hk, rfl⟩
      have htaken := hnone k (by omega)
      simp only [isTaken, Bool.not_eq_false, List.any_eq_true, decide_eq_true_eq,
        toLowerCase_candidate hunicode] at htaken
      rw [List.mem_map]
      exact htaken
    have hnodup : ((List.range (names.length + 1)).map candidate).Nodup :=
      List.nodup_range.map candidate_injective
    have hlength := (List.subperm_of_subset hnodup hsubset).length_le
    simp at hlength
  have hleast := Nat.find_spec hexists
  refine ⟨Nat.find hexists, hleast.1, hleast.2, ?_⟩
  intro j hj
  have hmin := Nat.find_min hexists hj
  by_contra htaken
  exact hmin ⟨by omega, by simpa using htaken⟩

theorem findTextName_from {names : List JsString} {k : Nat} (n : Nat) {tries : Nat} (htries : k < tries)
    (hfree : isTaken unicode names (candidate (n + k)) = false)
    (htaken : ∀ j < k, isTaken unicode names (candidate (n + j)) = true)
    : findTextName unicode names tries (candidate n) (n + 1) = some (candidate (n + k)) := by
  induction k generalizing n tries with
  | zero =>
    cases tries with
    | zero => omega
    | succ tries =>
      rw [Nat.add_zero] at hfree ⊢
      rw [findTextName, hfree]
      rfl
  | succ k ih =>
    cases tries with
    | zero => omega
    | succ tries =>
      have hnext : isTaken unicode names (candidate n) = true := htaken 0 (by omega)
      have hadd : ∀ j, n + (j + 1) = n + 1 + j := by omega
      rw [hadd k] at hfree ⊢
      rw [findTextName, if_pos hnext]
      apply ih (n + 1) (by omega) hfree
      intro j hj
      rw [← hadd]
      exact htaken (j + 1) (by omega)

theorem findTextName_ends (hunicode : unicode.Lawful) (names : List JsString)
    : ∃ k, isTaken unicode names (candidate k) = false
      ∧ ∀ tries, names.length + 1 ≤ tries
        → findTextName unicode names tries messageName 1 = some (candidate k) := by
  rcases exists_free hunicode names with ⟨k, hk, hfree, htaken⟩
  refine ⟨k, hfree, ?_⟩
  intro tries htries
  rw [← Nat.zero_add k] at hfree ⊢
  apply findTextName_from 0 (by omega) hfree
  intro j hj
  rw [Nat.zero_add]
  exact htaken j hj

-- A name that cannot leave its directory.
structure IsChildName (name : JsString) : Prop where
  ne_nil : name ≠ []
  ne_dot : name ≠ Posix.dot
  ne_dots : name ≠ Posix.dots
  not_path : ∀ unit ∈ name, unit ≠ 47 ∧ unit ≠ 92 ∧ unit ≠ 58
  not_control : ∀ unit ∈ name, 32 ≤ unit.toNat ∧ ¬(127 ≤ unit.toNat ∧ unit.toNat ≤ 159)

theorem isChildName_of_isFilename {name : JsString} (h : Shared.IsFilename name)
    : IsChildName name where
  ne_nil := h.ne_nil
  ne_dot := h.ne_dot
  ne_dots := h.ne_dots
  not_path := by
    intro unit hunit
    have hallowed := List.any_eq_false.mp h.not_forbidden unit hunit
    refine ⟨?_, ?_, ?_⟩
    . intro heq
      subst heq
      exact hallowed (by decide)
    . intro heq
      subst heq
      exact hallowed (by decide)
    . intro heq
      subst heq
      exact hallowed (by decide)
  not_control := by
    intro unit hunit
    have hallowed := List.any_eq_false.mp h.not_forbidden unit hunit
    simp only [Shared.isForbidden, Bool.or_eq_true, not_or, Bool.and_eq_true, decide_eq_true_eq,
      UInt16.le_iff_toNat_le] at hallowed
    have h31 : (0x1F : UInt16).toNat = 31 := rfl
    have h127 : (0x7F : UInt16).toNat = 127 := rfl
    have h159 : (0x9F : UInt16).toNat = 159 := rfl
    omega

theorem isChildName_candidate (n : Nat) : IsChildName (candidate n) := by
  have hhead : ∃ rest, candidate n = 109 :: rest := by
    have hmessage : JsString.ofString "message" = 109 :: [101, 115, 115, 97, 103, 101] := by decide
    cases n with
    | zero => exact ⟨_, by rw [candidate, messageName_eq, hmessage]; rfl⟩
    | succ n => exact ⟨_, by rw [candidate, numberedName_eq, hmessage]; rfl⟩
  rcases hhead with ⟨rest, hrest⟩
  constructor
  . simp [hrest]
  . simp [hrest, Posix.dot]
  . simp [hrest, Posix.dots]
  . intro unit hunit
    have hplain := plain_of_mem_candidate hunit
    refine ⟨?_, ?_, ?_⟩
    . intro heq
      subst heq
      exact absurd hplain (by decide)
    . intro heq
      subst heq
      exact absurd hplain (by decide)
    . intro heq
      subst heq
      exact absurd hplain (by decide)
  . intro unit hunit
    have hplain := plain_of_mem_candidate hunit
    simp only [IsPlainUnit] at hplain
    omega

-- One output for each file, in order, and one for a text.
def Saves (unicode : Shared.Unicode) (content : Shared.ContentInput) (list : List Output) : Prop :=
  ∃ saved textName,
    List.Forall₂ (fun file output =>
      Shared.normalizeFilename unicode file.name = .ok output.name ∧ output.data = file.data)
      content.files saved
      ∧ list = saved
        ++ if content.text ≠ [] then [⟨textName, Shared.encoderEncode content.text⟩] else []

structure Separate (unicode : Shared.Unicode) (list : List Output) : Prop where
  isChildName : ∀ output ∈ list, IsChildName output.name
  nodup : (list.map fun output => unicode.toLowerCase output.name).Nodup

structure Report.Follows {κ : Type} (report : Report κ) (volume : Volume κ) (directory : Path)
    (list : List Output) : Prop where
  inOrder : report.attempts.map (fun attempt => (attempt.path, attempt.data))
    <+: list.map fun output => (directory.child output.name, output.data)
  -- Nothing is attempted after a failure.
  stops : ∀ attempt ∈ report.attempts.dropLast, attempt.outcome = .created
  result : report.result = .ok () ↔ ∀ attempt ∈ report.attempts, attempt.outcome = .created
  complete : (∀ attempt ∈ report.attempts, attempt.outcome = .created)
    → report.attempts.map (fun attempt => (attempt.path, attempt.data))
        = list.map (fun output => (directory.child output.name, output.data))
      ∧ ∀ output ∈ list, report.files (volume.key (directory.child output.name)) = some output.data

structure Report.Exclusive {κ : Type} (report : Report κ) (volume : Volume κ) (files : Files κ)
    : Prop where
  keeps : ∀ key bytes, files key = some bytes → report.files key = some bytes
  fresh : ∀ attempt ∈ report.attempts, attempt.outcome ≠ .refused
    → files (volume.key attempt.path) = none

-- The outputs of the files, under the names that their normalization gives.
abbrev saved (names : List JsString) (files : List Shared.FileInput) : List Output :=
  List.zipWith (fun name file => ⟨name, file.data⟩) names files

theorem forall₂_saved {files : List Shared.FileInput} {names : List JsString}
    (h : List.Forall₂ (fun file name => Shared.normalizeFilename unicode file.name = .ok name)
      files names)
    : List.Forall₂ (fun file output =>
        Shared.normalizeFilename unicode file.name = .ok output.name ∧ output.data = file.data)
        files (saved names files)
      ∧ (saved names files).map Output.name = names
      ∧ ∀ name ∈ names, IsChildName name := by
  induction h with
  | nil => exact ⟨.nil, rfl, by simp⟩
  | cons hname _ ih =>
    rcases ih with ⟨hforall, hnames, hchildren⟩
    have hchild := isChildName_of_isFilename (Shared.normalizeFilename_eq_ok_iff.mp hname).2.2
    exact ⟨.cons ⟨hname, rfl⟩ hforall, by simpa using hnames,
      List.forall_mem_cons.mpr ⟨hchild, hchildren⟩⟩

theorem nodup_of_length_dedup {α : Type} [DecidableEq α] {list : List α}
    (h : list.dedup.length = list.length) : list.Nodup := by
  rw [← List.dedup_eq_self]
  exact (List.dedup_sublist list).eq_of_length h

theorem separate_append {list : List Output} {names : List JsString} {textName : JsString}
    {data : Bytes}
    {condition : Prop} [Decidable condition]
    (hlist : list.map Output.name = names) (hnodup : (names.map unicode.toLowerCase).Nodup)
    (hchildren : ∀ name ∈ names, IsChildName name) (hchild : IsChildName textName)
    (hfree : isTaken unicode names textName = false)
    : Separate unicode (list ++ if condition then [⟨textName, data⟩] else []) := by
  subst hlist
  have hlist : Separate unicode list := by
    constructor
    . intro output houtput
      exact hchildren _ (List.mem_map_of_mem houtput)
    . simpa [Function.comp_def] using hnodup
  split
  . constructor
    . intro output houtput
      rcases List.mem_append.mp houtput with houtput | houtput
      . exact hlist.isChildName output houtput
      . rw [List.mem_singleton] at houtput
        subst houtput
        exact hchild
    . simp only [isTaken, List.any_eq_false, decide_eq_true_eq, List.mem_map, forall_exists_index,
        and_imp, forall_apply_eq_imp_iff₂] at hfree
      rw [List.map_append, List.map_singleton]
      apply hlist.nodup.append (List.nodup_singleton _)
      simpa using hfree
  . simpa using hlist

theorem outputs_cases (hunicode : unicode.Lawful) (content : Shared.ContentInput)
    : (∃ failure, ∀ tries, outputs unicode tries content = .error failure)
      ∨ ∃ list, (∀ tries, content.files.length + 1 ≤ tries
          → outputs unicode tries content = .ok (some list))
        ∧ Saves unicode content list
        ∧ Separate unicode list := by
  cases hnames : content.files.mapM fun file => Shared.normalizeFilename unicode file.name with
  | error error => exact .inl ⟨.shared error, fun tries => by rw [outputs, hnames]; rfl⟩
  | ok names =>
    by_cases hdistinct : (names.map unicode.toLowerCase).dedup.length = names.length
    . rcases findTextName_ends hunicode names with ⟨k, hfree, hfind⟩
      have hnormalized := Except.mapM_eq_ok.mp hnames
      have hlength := hnormalized.length_eq
      rcases forall₂_saved hnormalized with ⟨hforall, hmap, hchildren⟩
      refine .inr ⟨_, ?_, ⟨saved names content.files, candidate k, hforall, rfl⟩, ?_⟩
      . intro tries htries
        rw [outputs, hnames]
        simp only [Except.mapError, Except.ok_bind]
        rw [if_neg (by simpa using hdistinct), hfind tries (by omega)]
        rfl
      . have hnodup := nodup_of_length_dedup (hdistinct.trans (List.length_map _).symm)
        exact separate_append hmap hnodup hchildren (isChildName_candidate k) hfree
    . refine .inl ⟨.cli (.error "Duplicate output file names."), fun tries => ?_⟩
      rw [outputs, hnames]
      simp only [Except.mapError, Except.ok_bind]
      rw [if_pos (by simpa using hdistinct)]
      rfl

section

variable {κ : Type} [DecidableEq κ]

theorem writeOutputs_follows (volume : Volume κ) (directory : JsString) (files : Files κ)
    {list : List Output} (h : Separate unicode list)
    : (writeOutputs volume directory files list).Follows volume (Path.normalize directory) list := by
  have hpaths : list.map (fun output => (Path.join directory output.name, output.data))
      = list.map fun output => ((Path.normalize directory).child output.name, output.data) := by
    apply List.map_congr_left
    intro output houtput
    have hchild := h.isChildName output houtput
    rw [Path.join_eq_child hchild.ne_nil hchild.ne_dot hchild.ne_dots]
    exact fun hmem => (hchild.not_path _ hmem).1 rfl
  have hattempts := volume.createAll_attempts files
    (list.map fun output => ((Path.normalize directory).child output.name, output.data))
  unfold writeOutputs
  rw [hpaths]
  constructor
  . exact hattempts.1
  . exact hattempts.2.1
  . dsimp only
    split
    . next attempt hfind =>
      have hmem := List.mem_of_find?_eq_some hfind
      have hfailed := List.find?_some hfind
      simp only [reduceCtorEq, false_iff, not_forall]
      exact ⟨attempt, hmem, by simpa using hfailed⟩
    . next hfind => simpa using hfind
  . intro hall
    have hcomplete := hattempts.2.2 hall
    refine ⟨hcomplete, ?_⟩
    intro output houtput
    have hrequest : ((Path.normalize directory).child output.name, output.data)
        ∈ list.map fun output => ((Path.normalize directory).child output.name, output.data) :=
      List.mem_map_of_mem houtput
    rw [← hcomplete, List.mem_map] at hrequest
    rcases hrequest with ⟨attempt, hattempt, hpair⟩
    have hpath : attempt.path = (Path.normalize directory).child output.name := congrArg Prod.fst hpair
    have hdata : attempt.data = output.data := congrArg Prod.snd hpair
    rw [← hpath, ← hdata]
    exact (volume.createAll_created files _ hattempt).2 (hall attempt hattempt)

theorem writeOutputs_exclusive (volume : Volume κ) (directory : JsString) (files : Files κ)
    (list : List Output) : (writeOutputs volume directory files list).Exclusive volume files where
  keeps _ _ h := volume.createAll_keeps _ h
  fresh _ hattempt := (volume.createAll_created files _ hattempt).1

theorem writeContent_apart (hunicode : unicode.Lawful) (volume : Volume κ) (directory : JsString)
    (files : Files κ) (content : Shared.ContentInput)
    : ∃ report,
      (∀ tries, content.files.length + 1 ≤ tries
        → writeContent unicode volume directory files tries content = some report)
      ∧ ((∃ failure, report = ⟨[], files, .error failure⟩)
        ∨ ∃ list, Saves unicode content list
          ∧ Separate unicode list
          ∧ report.Follows volume (Path.normalize directory) list)
      ∧ report.Exclusive volume files := by
  rcases outputs_cases hunicode content with ⟨failure, hfailure⟩ | ⟨list, hlist, hsaves, hseparate⟩
  . refine ⟨⟨[], files, .error failure⟩, ?_, .inl ⟨failure, rfl⟩, ?_⟩
    . intro tries _
      simp only [writeContent, hfailure]
    . exact ⟨fun _ _ h => h, fun _ h => absurd h List.not_mem_nil⟩
  . refine ⟨writeOutputs volume directory files list, ?_, .inr ⟨list, hsaves, hseparate, ?_⟩, ?_⟩
    . intro tries htries
      simp only [writeContent, hlist tries htries, Option.map_some]
    . exact writeOutputs_follows volume directory files hseparate
    . exact writeOutputs_exclusive volume directory files list

end

def exampleVolume : Volume Path where
  key := id
  refuses _ := false
  breaks _ := none
  message _ := ""

def exampleContent : Shared.ContentInput where
  text := JsString.ofString "hi"
  files := [⟨JsString.ofString "Message.TXT", JsString.ofString "text/plain", [9]⟩]

theorem outputs_exampleContent
    : outputs Shared.Unicode.ascii 2 exampleContent = .ok (some [
        ⟨JsString.ofString "Message.TXT", [9]⟩, ⟨JsString.ofString "message-1.txt", [104, 105]⟩]) := by
  have hname : Shared.normalizeFilename Shared.Unicode.ascii (JsString.ofString "Message.TXT")
      = .ok (JsString.ofString "Message.TXT") := by
    rw [Shared.normalizeFilename_eq_ok_iff]
    exact ⟨by decide, rfl, by decide, by decide, by decide, by decide, by decide, by decide,
      by decide, by decide⟩
  have hnames : exampleContent.files.mapM
      (fun file => Shared.normalizeFilename Shared.Unicode.ascii file.name)
        = .ok [JsString.ofString "Message.TXT"] := by
    rw [Except.mapM_eq_ok]
    exact .cons hname .nil
  rw [outputs, hnames]
  decide

theorem writeContent_apart_exampleContent
    : ∃ report,
      writeContent Shared.Unicode.ascii exampleVolume (JsString.ofString "out") (fun _ => none) 2
        exampleContent = some report
      ∧ report.attempts = [
        ⟨⟨false, [JsString.ofString "out", JsString.ofString "Message.TXT"]⟩, [9], .created⟩,
        ⟨⟨false, [JsString.ofString "out", JsString.ofString "message-1.txt"]⟩, [104, 105], .created⟩]
      ∧ report.Exclusive exampleVolume (fun _ => none) := by
  rcases writeContent_apart Shared.Unicode.ascii_lawful exampleVolume (JsString.ofString "out")
    (fun _ => none) exampleContent with ⟨report, hreport, -, hexclusive⟩
  have hwritten := hreport 2 (by decide)
  refine ⟨report, hwritten, ?_, hexclusive⟩
  simp only [writeContent, outputs_exampleContent, Option.map_some, Option.some.injEq] at hwritten
  rw [← hwritten]
  decide

end Cli
