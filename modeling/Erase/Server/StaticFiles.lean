import Erase.Library.FileSystem
import Erase.Server.Router

/-!
The files that a process reads for the requests that are none to the API.
-/

namespace Server

-- Which file below its directory the asset service reads, as the components of its path.
abbrev ServeDir := List Char → Option (List (List Char))

-- The index of the directory is read for its own path. The guard lets no other path through that would have
-- to be decoded or resolved.
structure ServeDir.Lawful (serveDir : ServeDir) : Prop where
  index : ∀ file, serveDir ['/'] = some file → file = ["index.html".toList]
  asset : ∀ path file, isAsset ("/assets".toList ++ path) = true → serveDir path = some file
    → file = (PathTemplate.segments path).filter (· ≠ [])

-- The components below the static directory.
def readFile (serveDir : ServeDir) (config : Configuration) (head : RequestHead)
    : Option (List (List Char)) :=
  match authorize config head with
  | .error _ => none
  | .ok () =>
    match route head with
    | .handler .page _ => some ["index.html".toList]
    | .handler .favicon _ => some ["favicon.svg".toList]
    | .handler .theme _ => some ["theme.js".toList]
    | .assets path =>
      if head.method = .get ∨ head.method = .head then (serveDir path).map ("assets".toList :: ·) else none
    | _ => none

-- `PathBuf::push` for each component.
def filePath (config : Configuration) (file : List (List Char)) : JsString :=
  (file.map JsString.ofChars).foldl Posix.Path.add (JsString.ofString config.staticDir)

def fixedFiles : List (List (List Char)) := [
  ["index.html".toList],
  ["favicon.svg".toList],
  ["theme.js".toList],
  ["assets".toList, "index.html".toList]]

structure IsAssetName (name : List Char) : Prop where
  nonempty : name ≠ []
  visible : name.head? ≠ some '.'
  plain : ∀ c ∈ name, isAssetChar c = true ∧ c ≠ '/'

-- A file of the build: in visible directories, with one of the extensions and a name before it.
structure IsAssetFile (file : List (List Char)) : Prop where
  below : ∃ directories stem extension, extension ∈ assetExtensions ∧ stem ≠ []
    ∧ file = "assets".toList :: directories ++ [stem ++ extension.toList]
  names : ∀ name ∈ file, IsAssetName name

section

open PathTemplate

theorem eq_slash_of_mem {c : Char} (h : Posix.separator ∈ JsString.encodeChar c) : c = '/' := by
  have hseparator : Posix.separator.toNat = 47 := rfl
  have hrange := JsString.toNat_cases c
  unfold JsString.encodeChar at h
  split at h
  . next hbmp =>
    have hunit : Posix.separator.toNat = c.toNat := by
      rw [List.mem_singleton.mp h]
      exact UInt16.toNat_ofNat_of_lt' hbmp
    apply Char.ext
    apply UInt32.toNat_inj.mp
    exact hunit.symm
  . simp only [List.mem_cons, List.not_mem_nil, or_false] at h
    rcases h with h | h
    . have hunit := congrArg UInt16.toNat h
      rw [UInt16.toNat_ofNat_of_lt' (show _ < 65536 by omega)] at hunit
      omega
    . have hunit := congrArg UInt16.toNat h
      rw [UInt16.toNat_ofNat_of_lt' (show _ < 65536 by omega)] at hunit
      omega

theorem IsAssetName.isPlain {name : List Char} (h : IsAssetName name)
    : Posix.Path.IsPlain (JsString.ofChars name) := by
  have hne : ∀ text : List Char, text.head? = some '.' → JsString.ofChars name ≠ JsString.ofChars text := by
    intro text htext hsame
    apply h.visible
    rw [JsString.ofChars_injective hsame]
    exact htext
  constructor
  . intro hnil
    exact h.nonempty (JsString.ofChars_injective hnil)
  . exact hne ['.'] rfl
  . exact hne ['.', '.'] rfl
  . intro hmem
    rcases List.mem_flatMap.mp hmem with ⟨c, hc, hunit⟩
    exact (h.plain c hc).2 (eq_slash_of_mem hunit)

theorem isAssetName_fixed : ∀ file ∈ fixedFiles, ∀ name ∈ file, IsAssetName name := by
  have hall : ∀ file ∈ fixedFiles, ∀ name ∈ file,
      name ≠ [] ∧ name.head? ≠ some '.' ∧ name.all (fun c => isAssetChar c && c != '/') = true := by
    decide
  intro file hfile name hname
  rcases hall file hfile name hname with ⟨hnonempty, hvisible, hplain⟩
  refine ⟨hnonempty, hvisible, fun c hc => ?_⟩
  simpa using List.all_eq_true.mp hplain c hc

theorem isAssetName_of_segment {path name : List Char} (hasset : isAsset path = true)
    (hmem : name ∈ segments path) (hne : name ≠ []) : IsAssetName name := by
  simp only [isAsset, Bool.and_eq_true, List.all_eq_true, Bool.not_eq_true', List.any_eq_false,
    decide_eq_true_eq] at hasset
  refine ⟨hne, hasset.1.2 name hmem, ?_⟩
  intro c hc
  refine ⟨hasset.1.1 c (mem_of_mem_segment hmem hc), ?_⟩
  rintro rfl
  exact not_mem_segment hmem hc

theorem segments_assets (rest : List Char)
    : segments ("/assets".toList ++ '/' :: rest) = [[], "assets".toList] ++ segments rest :=
  segments_append _ _

-- The name of an asset ends in an extension, and something visible stands before it.
theorem exists_asset_name {rest : List Char} (hasset : isAsset ("/assets".toList ++ '/' :: rest) = true)
    : ∃ directories stem extension, extension ∈ assetExtensions ∧ stem ≠ []
        ∧ segments rest = directories ++ [stem ++ extension.toList] := by
  have hextensions : ∀ extension ∈ assetExtensions, '/' ∉ extension.toList
      ∧ extension.toList.head? = some '.' := by
    decide
  have hassets := hasset
  simp only [isAsset, Bool.and_eq_true, List.any_eq_true, List.isSuffixOf_iff_suffix] at hassets
  rcases hassets with ⟨-, extension, hextension, hsuffix⟩
  rcases hextensions extension hextension with ⟨hslash, hdot⟩
  have hne : extension.toList ≠ [] := by
    intro hnil
    rw [hnil] at hdot
    cases hdot
  rcases exists_last_segment hslash hsuffix with ⟨initial, last, hinitial, stem, rfl⟩
  rw [segments_assets] at hinitial
  rcases List.eq_nil_or_concat (segments rest) with hnil | ⟨directories, final, hfinal⟩
  . exact absurd hnil (List.splitOn_ne_nil _ _)
  . rw [List.concat_eq_append] at hfinal
    rw [hfinal, ← List.append_assoc] at hinitial
    have hsame : final = stem ++ extension.toList :=
      List.singleton_inj.mp (List.append_inj' hinitial rfl).2
    subst hsame
    refine ⟨directories, stem, extension, hextension, ?_, hfinal⟩
    rintro rfl
    have hmem : [] ++ extension.toList ∈ segments ("/assets".toList ++ '/' :: rest) := by
      rw [segments_assets, hfinal]
      simp
    exact (isAssetName_of_segment hasset hmem hne).visible hdot

theorem nested_of_route {head : RequestHead} {path : List Char} (h : route head = .assets path)
    : head.path = "/assets".toList ∧ path = ['/']
        ∨ ∃ rest, head.path = "/assets".toList ++ '/' :: rest ∧ path = '/' :: rest := by
  unfold route at h
  split at h
  . split at h <;> cases h
  . split at h
    . next path' hnested =>
      cases h
      unfold nested at hnested
      split at hnested
      . next hpath =>
        cases hnested
        exact .inl ⟨hpath, rfl⟩
      . split at hnested
        . next hstarts =>
          rcases (by simpa using hstarts : "/assets/".toList <+: head.path) with ⟨rest, hrest⟩
          rw [← hrest] at hnested ⊢
          cases hnested
          exact .inr ⟨rest, by simp, by simp⟩
        . cases hnested
    . cases h

theorem isAssetFile_of_nested {serveDir : ServeDir} (hserve : serveDir.Lawful) {rest : List Char}
    (hasset : isAsset ("/assets".toList ++ '/' :: rest) = true) {file : List (List Char)}
    (hfile : serveDir ('/' :: rest) = some file)
    : IsAssetFile ("assets".toList :: file) := by
  rcases exists_asset_name hasset with ⟨directories, stem, extension, hextension, hstem, hrest⟩
  have hpath : segments ('/' :: rest) = [] :: segments rest := segments_append [] rest
  have heq : file = (segments rest).filter (· ≠ []) := by
    rw [hserve.asset _ file hasset hfile, hpath, List.filter_cons_of_neg (by simp)]
  constructor
  . refine ⟨directories.filter (· ≠ []), stem, extension, hextension, hstem, ?_⟩
    rw [heq, hrest, List.filter_append]
    simp [hstem]
  . intro name hname
    rcases List.mem_cons.mp hname with rfl | hname
    . apply isAssetName_fixed ["assets".toList, "index.html".toList] (by simp [fixedFiles])
      exact List.mem_cons_self
    . rw [heq, List.mem_filter] at hname
      apply isAssetName_of_segment hasset _ (by simpa using hname.2)
      rw [segments_assets]
      exact List.mem_append_right _ hname.1

end

/--
A process reads four fixed files and the visible files of its build, all of them below its static
directory.
-/
theorem served_files_contained {serveDir : ServeDir} (hserve : serveDir.Lawful) (config : Configuration)
    (head : RequestHead) {file : List (List Char)} (h : readFile serveDir config head = some file)
    : (file ∈ fixedFiles ∨ IsAssetFile file)
      ∧ Posix.Path.normalize (filePath config file)
        = (Posix.Path.normalize (JsString.ofString config.staticDir)).descend (file.map JsString.ofChars) := by
  have hkind : file ∈ fixedFiles ∨ IsAssetFile file := by
    unfold readFile at h
    split at h
    . cases h
    . next hauthorize =>
      have hauthorized := authorize_eq_ok_iff.mp hauthorize
      split at h
      . cases h
        simp [fixedFiles]
      . cases h
        simp [fixedFiles]
      . cases h
        simp [fixedFiles]
      . next path hroute =>
        split at h
        . rcases Option.map_eq_some_iff.mp h with ⟨below, hbelow, rfl⟩
          rcases nested_of_route hroute with ⟨-, rfl⟩ | ⟨rest, hpath, rfl⟩
          . left
            rw [hserve.index below hbelow]
            decide
          . right
            have hasset := hauthorized.asset (by rw [hpath]; simp)
            rw [hpath] at hasset
            exact isAssetFile_of_nested hserve hasset hbelow
        . cases h
      . cases h
  refine ⟨hkind, ?_⟩
  apply Posix.Path.normalize_foldl_add
  intro name hname
  rcases List.mem_map.mp hname with ⟨text, htext, rfl⟩
  apply IsAssetName.isPlain
  rcases hkind with hfixed | hasset
  . exact isAssetName_fixed file hfixed text htext
  . exact hasset.names text htext

def plainServeDir : ServeDir := fun path =>
  some (if path = ['/'] then ["index.html".toList] else (PathTemplate.segments path).filter (· ≠ []))

theorem lawful_plainServeDir : plainServeDir.Lawful where
  index file hfile := (Option.some.inj hfile).symm
  asset path file hasset hfile := by
    have hpath : path ≠ ['/'] := by
      rintro rfl
      exact absurd hasset (by decide)
    rw [plainServeDir, if_neg hpath] at hfile
    exact (Option.some.inj hfile).symm

def exampleAsset : RequestHead where
  method := .get
  uri := { scheme := none, authority := none, path := "/assets/js/app.js".toList, query := none }
  headers := [(asBytes "host", asBytes "localhost:3001")]

theorem served_files_contained_exampleAsset
    : ∃ file, readFile plainServeDir .default exampleAsset = some file
        ∧ (file ∈ fixedFiles ∨ IsAssetFile file)
        ∧ Posix.Path.normalize (filePath .default file)
          = (Posix.Path.normalize (JsString.ofString "../web/dist")).descend (file.map JsString.ofChars) :=
  ⟨["assets".toList, "js".toList, "app.js".toList], by decide +kernel,
    served_files_contained lawful_plainServeDir .default exampleAsset (by decide +kernel)⟩

end Server
