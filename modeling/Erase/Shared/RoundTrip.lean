import Erase.Shared.Canonical

namespace Shared

variable {unicode : Unicode}

theorem normalizedMime_normalizedMime (hlawful : unicode.Lawful) {mime : JsString}
    (hmime : isMime (normalizedMime unicode mime) = true)
    : normalizedMime unicode (normalizedMime unicode mime) = normalizedMime unicode mime := by
  have hascii := isMime_ascii hmime
  generalize normalizedMime unicode mime = result at hmime hascii
  unfold normalizedMime
  rw [if_neg (mem_of_isMime hmime).1, hlawful.toLowerCase_ascii result hascii.1, hascii.2]

theorem length_normalizedMime_le (hlawful : unicode.Lawful) {mime : JsString}
    (hlength : mime.length ≤ maxMimeBytes) (hmime : isMime (normalizedMime unicode mime) = true)
    : (normalizedMime unicode mime).length ≤ maxMimeBytes := by
  have hascii := (isMime_ascii hmime).1
  unfold normalizedMime at hascii ⊢
  split
  . decide
  . next hne =>
    rw [if_neg hne] at hascii
    exact Nat.le_trans (hlawful.length_toLowerCase_ascii mime hascii) hlength

theorem normalizedFile_normalizedFile (hlawful : unicode.Lawful) {file : FileInput}
    (h : AcceptsFile unicode file)
    : normalizedFile unicode (normalizedFile unicode file) = normalizedFile unicode file := by
  rw [normalizedFile_eq_iff]
  exact ⟨hlawful.normalize_normalize _, normalizedMime_normalizedMime hlawful h.isMime⟩

theorem acceptsFile_normalizedFile (hlawful : unicode.Lawful) {file : FileInput}
    (h : AcceptsFile unicode file)
    : AcceptsFile unicode (normalizedFile unicode file) := by
  have hfixed := normalizedFile_eq_iff.mp (normalizedFile_normalizedFile hlawful h)
  have hname := h.isFilename
  have hlength := length_le_length_encoderEncode hname.wellFormed
  have hbytes := hname.length_le
  have hlimit : maxFilenameBytes = 255 := rfl
  constructor
  . rw [hfixed.1, normalizeFilename_eq_ok_iff]
    exact ⟨by unfold normalizedFile; dsimp only; omega, hfixed.1.symm, hname⟩
  . rw [hfixed.2, normalizeMime_eq_ok_iff]
    refine ⟨?_, hfixed.2.symm, h.isMime⟩
    exact length_normalizedMime_le hlawful (normalizeMime_eq_ok_iff.mp h.mime).1 h.isMime

theorem accepts_normalizedFile (hlawful : unicode.Lawful) {files : List FileInput}
    {names : List JsString} {contentBytes : Nat} (h : Accepts unicode names contentBytes files)
    : Accepts unicode names contentBytes (files.map (normalizedFile unicode))
      ∧ (files.map (normalizedFile unicode)).map (normalizedFile unicode)
          = files.map (normalizedFile unicode) := by
  induction files generalizing names contentBytes with
  | nil => exact ⟨trivial, rfl⟩
  | cons file files ih =>
    rcases h with ⟨hcontent, hfile, hfolded, hrest⟩
    have hfixed := normalizedFile_normalizedFile hlawful hfile
    have hname := (normalizedFile_eq_iff.mp hfixed).1
    constructor
    . rw [List.map_cons]
      unfold Accepts
      rw [hname]
      exact ⟨hcontent, acceptsFile_normalizedFile hlawful hfile, hfolded, (ih hrest).1⟩
    . simp only [List.map_cons, hfixed, (ih hrest).2]

theorem isCanonical_normalized (hlawful : unicode.Lawful) {input : ContentInput}
    (h : IsPackable unicode input)
    : IsCanonical unicode (normalized unicode input) := by
  have haccepts := accepts_normalizedFile hlawful h.accepts
  refine ⟨⟨h.text_wellFormed, h.text_le, ?_, ?_, haccepts.1⟩, ?_⟩
  . rw [normalized, List.length_map]
    exact h.files_le
  . rw [normalized, List.map_eq_nil_iff]
    exact h.nonempty
  . rw [normalized, normalized, haccepts.2]

theorem at_of_layOut {random : Nat → UInt8} {text padded : Bytes} {files : List PackedFile}
    (h : layOut random text files = .ok padded)
    : padded.At 0 (envelope text files) ∧ padded.length = bucket (envelope text files).length := by
  rcases layOut_extends random text files with ⟨out, hout, hextends, hlength⟩
  rw [h] at hout
  rw [Except.ok.inj hout, length_envelope]
  exact ⟨hextends, hlength⟩

theorem unpack_of_pack (hlawful : unicode.Lawful) {random : Nat → UInt8} {input : ContentInput}
    {padded : Bytes} (h : pack unicode random input = .ok padded)
    : unpack unicode padded = .ok (normalized unicode input) := by
  rcases pack_eq_ok_iff.mp h with ⟨hpackable, hlayOut⟩
  rw [unpack_eq_ok_iff]
  exact ⟨isCanonical_normalized hlawful hpackable, at_of_layOut hlayOut⟩

-- Every length of the envelope fits the field it is written to.
structure FitsFields (text : Bytes) (files : List PackedFile) : Prop where
  logicalLength_lt : logicalLength text files < 2 ^ 32
  text_lt : text.length < 2 ^ 32
  files_lt : files.length < 2 ^ 16
  name_lt : ∀ file ∈ files, file.name.length < 2 ^ 16
  mime_lt : ∀ file ∈ files, file.mime.length < 2 ^ 16
  data_lt : ∀ file ∈ files, file.data.length < 2 ^ 32

theorem Accepts.sum_le {files : List FileInput} {names : List JsString} {contentBytes : Nat}
    (h : Accepts unicode names contentBytes files) (hcontent : contentBytes ≤ maxContentBytes)
    : contentBytes + (files.map fun file => file.data.length).sum ≤ maxContentBytes := by
  induction files generalizing names contentBytes with
  | nil => simpa using hcontent
  | cons file files ih =>
    have hrest := ih h.2.2.2 h.1
    rw [List.map_cons, List.sum_cons]
    omega

theorem Accepts.acceptsFile {files : List FileInput} {names : List JsString} {contentBytes : Nat}
    (h : Accepts unicode names contentBytes files)
    : ∀ file ∈ files, AcceptsFile unicode file := by
  induction files generalizing names contentBytes with
  | nil => simp
  | cons head files ih =>
    intro file hfile
    rcases List.mem_cons.mp hfile with hhead | htail
    . rw [hhead]
      exact h.2.1
    . exact ih h.2.2.2 file htail

theorem Accepts.nodup {files : List FileInput} {names : List JsString} {contentBytes : Nat}
    (h : Accepts unicode names contentBytes files)
    : (files.map fun file => unicode.toLowerCase (unicode.normalize file.name)).Nodup
      ∧ ∀ file ∈ files, unicode.toLowerCase (unicode.normalize file.name) ∉ names := by
  induction files generalizing names contentBytes with
  | nil => simp
  | cons head files ih =>
    rcases ih h.2.2.2 with ⟨hnodup, hfresh⟩
    constructor
    . rw [List.map_cons, List.nodup_cons]
      refine ⟨?_, hnodup⟩
      intro hmem
      rw [List.mem_map] at hmem
      rcases hmem with ⟨file, hfile, heq⟩
      exact hfresh file hfile (heq ▸ List.mem_cons_self)
    . intro file hfile hmem
      rcases List.mem_cons.mp hfile with hhead | htail
      . exact h.2.2.1 (hhead ▸ hmem)
      . exact hfresh file htail (List.mem_cons_of_mem _ hmem)

theorem IsCanonical.normalizedFile_eq {input : ContentInput} (h : IsCanonical unicode input)
    : ∀ file ∈ input.files, normalizedFile unicode file = file := by
  have hfiles := congrArg ContentInput.files h.normalized_eq
  intro file hfile
  exact List.map_inj_left.mp (hfiles.trans (List.map_id _).symm) file hfile

theorem IsCanonical.fitsFields {input : ContentInput} (h : IsCanonical unicode input)
    : FitsFields (encoderEncode input.text) (input.files.map packedFile) := by
  have hlength := h.length_le
  have htext := h.text_le
  have hfiles := h.files_le
  have hlimits : maxTextBytes = 8388608 ∧ maxFiles = 8 ∧ maxInnerBytes = 67111998
      ∧ maxFilenameBytes = 255 ∧ maxMimeBytes = 127 ∧ maxContentBytes = 67108864 :=
    ⟨rfl, rfl, rfl, rfl, rfl, rfl⟩
  rw [contentEnvelope, length_envelope] at hlength
  have hfile : ∀ file ∈ input.files.map packedFile, file.name.length ≤ maxFilenameBytes
      ∧ file.mime.length ≤ maxMimeBytes ∧ file.data.length ≤ maxContentBytes := by
    intro packed hpacked
    rw [List.mem_map] at hpacked
    rcases hpacked with ⟨file, hfile, rfl⟩
    have hbounds := packedFile_bounds (h.accepts.acceptsFile file hfile) (h.normalizedFile_eq file hfile)
    refine ⟨hbounds.1.2, hbounds.2.1.2, ?_⟩
    have hsum := h.accepts.sum_le (by omega)
    have hle : file.data.length ≤ (input.files.map fun file => file.data.length).sum :=
      List.le_sum_of_mem (List.mem_map_of_mem hfile)
    have hdata : (packedFile file).data = file.data := rfl
    rw [hdata]
    omega
  constructor
  . omega
  . omega
  . rw [List.length_map]
    omega
  . intro file hmem
    have := (hfile file hmem).1
    omega
  . intro file hmem
    have := (hfile file hmem).2.1
    omega
  . intro file hmem
    have := (hfile file hmem).2.2
    omega

theorem unpack_pack (hlawful : unicode.Lawful) {random : Nat → UInt8} {input : ContentInput}
    {padded : Bytes} (hpack : pack unicode random input = .ok padded)
    : unpack unicode padded = .ok {
        text := input.text
        files := input.files.map fun file => {
          name := unicode.normalize file.name
          mime := if file.mime = [] then octetStream else unicode.toLowerCase file.mime
          data := file.data } }
      ∧ FitsFields (encoderEncode input.text)
          ((normalized unicode input).files.map packedFile) := by
  constructor
  . exact unpack_of_pack hlawful hpack
  . exact (isCanonical_normalized hlawful (pack_eq_ok_iff.mp hpack).1).fitsFields

-- Unicode tables that are right for ASCII strings.
def Unicode.ascii : Unicode where
  normalize := id
  toLowerCase text := text.map foldUnit

theorem Unicode.ascii_lawful : Unicode.ascii.Lawful where
  normalize_normalize _ := rfl
  toLowerCase_ascii _ _ := rfl
  length_toLowerCase_ascii text _ := by
    unfold Unicode.ascii
    rw [List.length_map]

def exampleInput : ContentInput where
  text := JsString.ofString "hi"
  files := [{
    name := JsString.ofString "A.txt"
    mime := JsString.ofString "Text/Plain"
    data := [1, 2, 3] }]

theorem isPackable_exampleInput : IsPackable Unicode.ascii exampleInput where
  text_wellFormed := by decide
  text_le := by decide
  files_le := by decide
  nonempty := by decide
  accepts := by
    refine ⟨by decide, ⟨?_, ?_⟩, by decide, trivial⟩
    . rw [normalizeFilename_eq_ok_iff]
      exact ⟨by decide, rfl, by decide, by decide, by decide, by decide, by decide, by decide,
        by decide, by decide⟩
    . rw [normalizeMime_eq_ok_iff]
      exact ⟨by decide, rfl, by decide⟩

theorem exists_pack_exampleInput
    : ∃ padded, pack Unicode.ascii (fun _ => 7) exampleInput = .ok padded := by
  rcases layOut_extends (fun _ => 7) (encoderEncode exampleInput.text)
    ((normalized Unicode.ascii exampleInput).files.map packedFile) with ⟨padded, hpadded, -⟩
  exact ⟨padded, pack_eq_ok_iff.mpr ⟨isPackable_exampleInput, hpadded⟩⟩

theorem unpack_pack_exampleInput
    : ∃ padded, pack Unicode.ascii (fun _ => 7) exampleInput = .ok padded
      ∧ unpack Unicode.ascii padded = .ok {
          text := JsString.ofString "hi"
          files := [{
            name := JsString.ofString "A.txt"
            mime := JsString.ofString "text/plain"
            data := [1, 2, 3] }] } := by
  rcases exists_pack_exampleInput with ⟨padded, hpack⟩
  refine ⟨padded, hpack, ?_⟩
  rw [(unpack_pack Unicode.ascii_lawful hpack).1]
  decide

-- The two agree in length and on the logical bytes, whose number stands at offset 4.
structure SameEnvelope (packed padded : Bytes) : Prop where
  length_eq : packed.length = padded.length
  logical_eq : ∃ length, getUint32 padded 4 = .ok length ∧ getUint32 packed 4 = .ok length
    ∧ packed.take length = padded.take length

-- What an accepted envelope may hold.
structure IsStrict (unicode : Unicode) (padded : Bytes) (input : ContentInput) : Prop where
  text_wellFormed : JsString.WellFormed input.text
  text_le : (encoderEncode input.text).length ≤ 8 * 1024 * 1024
  content_le : (encoderEncode input.text).length
    + (input.files.map fun file => file.data.length).sum ≤ 64 * 1024 * 1024
  files_le : input.files.length ≤ 8
  filename : ∀ file ∈ input.files, unicode.normalize file.name = file.name ∧ IsFilename file.name
  nodup : (input.files.map fun file => unicode.toLowerCase file.name).Nodup
  mime : ∀ file ∈ input.files, isMime file.mime = true
  logical_bytes : padded.take (contentEnvelope input).length = contentEnvelope input
  logical_length : getUint32 padded 4 = .ok (contentEnvelope input).length
  minimal : padded.length = bucket (contentEnvelope input).length

theorem getUint32_of_at {padded text : Bytes} {files : List PackedFile}
    (hlt : logicalLength text files < 2 ^ 32) (hat : padded.At 0 (envelope text files))
    : getUint32 padded 4 = .ok (envelope text files).length := by
  rw [getUint32_eq_ok_iff, length_envelope]
  exact ⟨hlt, (at_envelope_iff.mp hat).2.1⟩

theorem take_of_at {padded part : Bytes} (hat : padded.At 0 part)
    : padded.take part.length = part := by
  have htake := hat.take_eq
  rwa [List.drop_zero] at htake

theorem sameEnvelope_of_at {left right text : Bytes} {files : List PackedFile}
    (hlt : logicalLength text files < 2 ^ 32) (hleft : left.At 0 (envelope text files))
    (hright : right.At 0 (envelope text files)) (hlength : left.length = right.length)
    : SameEnvelope left right where
  length_eq := hlength
  logical_eq := ⟨_, getUint32_of_at hlt hright, getUint32_of_at hlt hleft,
    (take_of_at hleft).trans (take_of_at hright).symm⟩

theorem isStrict_of_unpack {padded : Bytes} {input : ContentInput}
    (h : unpack unicode padded = .ok input)
    : IsStrict unicode padded input := by
  rcases unpack_eq_ok_iff.mp h with ⟨hcanonical, hat, hlength⟩
  have hname : ∀ file ∈ input.files, unicode.normalize file.name = file.name := by
    intro file hfile
    exact (normalizedFile_eq_iff.mp (hcanonical.normalizedFile_eq file hfile)).1
  have hfolded : (input.files.map fun file => unicode.toLowerCase (unicode.normalize file.name))
      = input.files.map fun file => unicode.toLowerCase file.name := by
    apply List.map_congr_left
    intro file hfile
    rw [hname file hfile]
  have htext : (encoderEncode input.text).length ≤ maxContentBytes :=
    Nat.le_trans hcanonical.text_le (by decide)
  constructor
  . exact hcanonical.text_wellFormed
  . exact hcanonical.text_le
  . exact hcanonical.accepts.sum_le htext
  . exact hcanonical.files_le
  . intro file hfile
    have hfilename := (hcanonical.accepts.acceptsFile file hfile).isFilename
    rw [hname file hfile] at hfilename
    exact ⟨hname file hfile, hfilename⟩
  . rw [← hfolded]
    exact hcanonical.accepts.nodup.1
  . intro file hfile
    have hmime := (hcanonical.accepts.acceptsFile file hfile).isMime
    rwa [(normalizedFile_eq_iff.mp (hcanonical.normalizedFile_eq file hfile)).2] at hmime
  . exact take_of_at hat
  . exact getUint32_of_at hcanonical.fitsFields.logicalLength_lt hat
  . exact hlength

theorem pack_of_isCanonical {input : ContentInput} (h : IsCanonical unicode input)
    (random : Nat → UInt8)
    : ∃ packed, pack unicode random input = .ok packed ∧ packed.At 0 (contentEnvelope input)
      ∧ packed.length = bucket (contentEnvelope input).length := by
  rcases layOut_extends random (encoderEncode input.text) (input.files.map packedFile)
    with ⟨packed, hpacked, -⟩
  refine ⟨packed, ?_, at_of_layOut hpacked⟩
  rw [pack_eq_ok_iff, h.normalized_eq]
  exact ⟨h.toIsPackable, hpacked⟩

theorem unpack_of_sameEnvelope (hlawful : unicode.Lawful) {random : Nat → UInt8}
    {input : ContentInput} {packed padded : Bytes} (hpack : pack unicode random input = .ok packed)
    (hsame : SameEnvelope packed padded)
    : unpack unicode padded = .ok (normalized unicode input) := by
  rcases pack_eq_ok_iff.mp hpack with ⟨hpackable, hlayOut⟩
  have hcanonical := isCanonical_normalized hlawful hpackable
  have hat : packed.At 0 (contentEnvelope (normalized unicode input)) := (at_of_layOut hlayOut).1
  have hlength : packed.length = bucket (contentEnvelope (normalized unicode input)).length :=
    (at_of_layOut hlayOut).2
  rcases hsame.logical_eq with ⟨length, -, hpacked, htake⟩
  have hword : getUint32 packed 4 = .ok (contentEnvelope (normalized unicode input)).length :=
    getUint32_of_at hcanonical.fitsFields.logicalLength_lt hat
  rw [hpacked] at hword
  rw [unpack_eq_ok_iff]
  refine ⟨hcanonical, ?_, hsame.length_eq.symm.trans hlength⟩
  rw [Except.ok.inj hword, take_of_at hat] at htake
  rw [Bytes.At, List.drop_zero, htake]
  exact List.take_prefix _ _

theorem unpack_exactly_image (unicode : Unicode) (padded : Bytes)
    : (∀ input, unpack unicode padded = .ok input →
        (∀ random, ∃ packed, pack unicode random input = .ok packed ∧ SameEnvelope packed padded)
        ∧ IsStrict unicode padded input
        ∧ ∀ other, unpack unicode other = .ok input → SameEnvelope other padded)
      ∧ ((∀ random input packed, pack unicode random input = .ok packed →
          ¬SameEnvelope packed padded) → ∃ error, unpack unicode padded = .error error)
      ∧ (unicode.Lawful → ∀ random input packed, pack unicode random input = .ok packed →
          SameEnvelope packed padded → ∃ output, unpack unicode padded = .ok output) := by
  have hsame : ∀ input, unpack unicode padded = .ok input → ∀ random,
      ∃ packed, pack unicode random input = .ok packed ∧ SameEnvelope packed padded := by
    intro input h random
    rcases unpack_eq_ok_iff.mp h with ⟨hcanonical, hat, hlength⟩
    rcases pack_of_isCanonical hcanonical random with ⟨packed, hpack, hpacked, hpackedLength⟩
    refine ⟨packed, hpack, ?_⟩
    apply sameEnvelope_of_at hcanonical.fitsFields.logicalLength_lt hpacked hat
    rw [hpackedLength, hlength]
  refine ⟨?_, ?_, ?_⟩
  . intro input h
    refine ⟨hsame input h, isStrict_of_unpack h, ?_⟩
    intro other hother
    rcases unpack_eq_ok_iff.mp h with ⟨hcanonical, hat, hlength⟩
    rcases unpack_eq_ok_iff.mp hother with ⟨-, hotherAt, hotherLength⟩
    apply sameEnvelope_of_at hcanonical.fitsFields.logicalLength_lt hotherAt hat
    rw [hotherLength, hlength]
  . intro hnone
    cases hresult : unpack unicode padded with
    | error error => exact ⟨error, rfl⟩
    | ok input =>
      rcases hsame input hresult fun _ => 0 with ⟨packed, hpack, hpacked⟩
      exact absurd hpacked (hnone _ _ _ hpack)
  . intro hlawful random input packed hpack hpacked
    exact ⟨_, unpack_of_sameEnvelope hlawful hpack hpacked⟩

theorem unpack_exactly_image_exampleInput
    : ∃ padded packed, pack Unicode.ascii (fun _ => 0) (normalized Unicode.ascii exampleInput)
          = .ok packed
        ∧ SameEnvelope packed padded
        ∧ IsStrict Unicode.ascii padded (normalized Unicode.ascii exampleInput) := by
  rcases exists_pack_exampleInput with ⟨padded, hpack⟩
  have hunpack := unpack_of_pack Unicode.ascii_lawful hpack
  rcases (unpack_exactly_image Unicode.ascii padded).1 _ hunpack with ⟨hsame, hstrict, -⟩
  rcases hsame fun _ => 0 with ⟨packed, hpacked, hagree⟩
  exact ⟨padded, packed, hpacked, hagree, hstrict⟩

end Shared
