import Erase.Shared.Envelope
import Erase.Shared.Normalize

/-!
What `pack` accepts, what it makes of it, and that `unpack` accepts exactly the envelopes of contents
that normalisation leaves as they are.
-/

namespace Shared

def packedFile (file : FileInput) : PackedFile where
  name := encoderEncode file.name
  mime := encoderEncode file.mime
  data := file.data

def contentEnvelope (input : ContentInput) : Bytes :=
  envelope (encoderEncode input.text) (input.files.map packedFile)

section

variable (unicode : Unicode)

def normalizedFile (file : FileInput) : FileInput where
  name := unicode.normalize file.name
  mime := normalizedMime unicode file.mime
  data := file.data

def normalized (input : ContentInput) : ContentInput where
  text := input.text
  files := input.files.map (normalizedFile unicode)

structure AcceptsFile (file : FileInput) : Prop where
  name : normalizeFilename unicode file.name = .ok (unicode.normalize file.name)
  mime : normalizeMime unicode file.mime = .ok (normalizedMime unicode file.mime)

-- The files pass the checks behind files of the folded names and `contentBytes` bytes of content.
def Accepts (names : List JsString) (contentBytes : Nat) : List FileInput → Prop
  | [] => True
  | file :: files =>
    contentBytes + file.data.length ≤ maxContentBytes
    ∧ AcceptsFile unicode file
    ∧ unicode.toLowerCase (unicode.normalize file.name) ∉ names
    ∧ Accepts (unicode.toLowerCase (unicode.normalize file.name) :: names)
        (contentBytes + file.data.length) files

structure IsPackable (input : ContentInput) : Prop where
  text_wellFormed : JsString.WellFormed input.text
  text_le : (encoderEncode input.text).length ≤ maxTextBytes
  files_le : input.files.length ≤ maxFiles
  nonempty : ¬(input.text = [] ∧ input.files = [])
  accepts : Accepts unicode [] (encoderEncode input.text).length input.files

structure IsCanonical (input : ContentInput) : Prop extends IsPackable unicode input where
  normalized_eq : normalized unicode input = input

end

variable {unicode : Unicode}

theorem acceptsFile_of_eq_ok {file : FileInput} {name mime : JsString}
    (hname : normalizeFilename unicode file.name = .ok name)
    (hmime : normalizeMime unicode file.mime = .ok mime)
    : AcceptsFile unicode file ∧ name = unicode.normalize file.name
      ∧ mime = normalizedMime unicode file.mime := by
  have hnameEq := (normalizeFilename_eq_ok_iff.mp hname).2.1
  have hmimeEq := (normalizeMime_eq_ok_iff.mp hmime).2.1
  rw [hnameEq] at hname
  rw [hmimeEq] at hmime
  exact ⟨⟨hname, hmime⟩, hnameEq, hmimeEq⟩

theorem AcceptsFile.isFilename {file : FileInput} (h : AcceptsFile unicode file)
    : IsFilename (unicode.normalize file.name) :=
  (normalizeFilename_eq_ok_iff.mp h.name).2.2

theorem AcceptsFile.isMime {file : FileInput} (h : AcceptsFile unicode file)
    : isMime (normalizedMime unicode file.mime) = true :=
  (normalizeMime_eq_ok_iff.mp h.mime).2.2

theorem packFiles_eq_ok_iff {files : List FileInput} {names : List JsString} {contentBytes : Nat}
    {packed : List PackedFile}
    : packFiles unicode names contentBytes files = .ok packed
        ↔ Accepts unicode names contentBytes files
          ∧ packed = files.map fun file => packedFile (normalizedFile unicode file) := by
  induction files generalizing names contentBytes packed with
  | nil =>
    simp only [packFiles, Accepts, List.map_nil, true_and, Except.ok.injEq]
    exact eq_comm
  | cons file files ih =>
    simp only [packFiles, tooLarge, Except.guard_eq_ok, Except.bind_eq_ok, encodeText_eq_ok_iff, ih,
      pure, Except.pure, Except.ok.injEq, List.map_cons, Accepts]
    constructor
    . intro h
      rcases h with ⟨hcontent, name, hname, hfolded, _, ⟨-, rfl⟩, mime, hmime, _, ⟨-, rfl⟩, _,
        ⟨haccepts, rfl⟩, hpacked⟩
      rcases acceptsFile_of_eq_ok hname hmime with ⟨hfile, rfl, rfl⟩
      exact ⟨⟨by omega, hfile, hfolded, haccepts⟩, hpacked.symm⟩
    . intro h
      rcases h with ⟨⟨hcontent, hfile, hfolded, haccepts⟩, rfl⟩
      have hmime := (wellFormed_of_ascii (isMime_ascii hfile.isMime).1).1
      exact ⟨by omega, _, hfile.name, hfolded, _, ⟨hfile.isFilename.wellFormed, rfl⟩, _, hfile.mime,
        _, ⟨hmime, rfl⟩, _, ⟨haccepts, rfl⟩, rfl⟩

theorem pack_eq_ok_iff {random : Nat → UInt8} {input : ContentInput} {padded : Bytes}
    : pack unicode random input = .ok padded
        ↔ IsPackable unicode input
          ∧ layOut random (encoderEncode input.text)
              ((normalized unicode input).files.map packedFile) = .ok padded := by
  simp only [pack, invalid, tooLarge, Except.guard_eq_ok, Except.bind_eq_ok, encodeText_eq_ok_iff,
    packFiles_eq_ok_iff, normalized, List.map_map]
  constructor
  . intro h
    rcases h with ⟨hlengths, _, ⟨hwellFormed, rfl⟩, htext, hnonempty, _, ⟨haccepts, rfl⟩, hpadded⟩
    push Not at hlengths
    rw [encoderEncode_eq_nil hwellFormed, List.length_eq_zero_iff] at hnonempty
    exact ⟨⟨hwellFormed, by omega, hlengths.2, hnonempty, haccepts⟩, hpadded⟩
  . intro h
    rcases h with ⟨h, hpadded⟩
    have htext := h.text_le
    have hfiles := h.files_le
    have hunits := length_le_length_encoderEncode h.text_wellFormed
    refine ⟨by omega, _, ⟨h.text_wellFormed, rfl⟩, by omega, ?_, _, ⟨h.accepts, rfl⟩, hpadded⟩
    rw [encoderEncode_eq_nil h.text_wellFormed, List.length_eq_zero_iff]
    exact h.nonempty

theorem at_ofNatBE_iff {bytes : Bytes} {offset width n : Nat} (hwidth : 0 < width)
    : (∃ word, bytes.read offset width = some word ∧ Bytes.toNatBE word = n)
        ↔ n < 256 ^ width ∧ bytes.At offset (Bytes.ofNatBE width n) := by
  simp only [Bytes.read_eq_some_iff hwidth]
  constructor
  . intro h
    rcases h with ⟨word, ⟨hlength, hat⟩, rfl⟩
    have hlt := Bytes.toNatBE_lt word
    rw [hlength] at hlt
    refine ⟨hlt, ?_⟩
    rw [← hlength, Bytes.ofNatBE_toNatBE]
    exact hat
  . intro h
    exact ⟨_, ⟨Bytes.length_ofNatBE width n, h.2⟩, Bytes.toNatBE_ofNatBE h.1⟩

theorem getUint16_eq_ok_iff {bytes : Bytes} {offset n : Nat}
    : getUint16 bytes offset = .ok n ↔ n < 256 ^ 2 ∧ bytes.At offset (Bytes.ofNatBE 2 n) := by
  rw [← at_ofNatBE_iff (by decide)]
  unfold getUint16
  split
  . next word hread => simp [hread]
  . next hread => simp [hread]

theorem getUint32_eq_ok_iff {bytes : Bytes} {offset n : Nat}
    : getUint32 bytes offset = .ok n ↔ n < 256 ^ 4 ∧ bytes.At offset (Bytes.ofNatBE 4 n) := by
  rw [← at_ofNatBE_iff (by decide)]
  unfold getUint32
  split
  . next word hread => simp [hread]
  . next hread => simp [hread]

theorem take_eq_ok_iff {padded part : Bytes} {length offset count stop : Nat}
    (hlength : length ≤ padded.length)
    : take padded length offset count = .ok (part, stop)
        ↔ offset + count ≤ length ∧ part.length = count ∧ padded.At offset part
          ∧ stop = offset + count := by
  simp only [take, invalid, Except.guard_eq_ok, pure, Except.pure, Except.ok.injEq, Prod.mk.injEq]
  constructor
  . intro h
    rcases h with ⟨hfit, rfl, rfl⟩
    refine ⟨by omega, ?_, Bytes.at_take _ _ _, rfl⟩
    simp only [List.length_take, List.length_drop]
    omega
  . intro h
    rcases h with ⟨hfit, rfl, hat, rfl⟩
    exact ⟨by omega, hat.take_eq, rfl⟩

theorem at_fileBytes_iff {padded : Bytes} {offset : Nat} {file : PackedFile}
    : padded.At offset (fileBytes file)
        ↔ padded.At offset (Bytes.ofNatBE 2 file.name.length)
          ∧ padded.At (offset + 2) (Bytes.ofNatBE 2 file.mime.length)
          ∧ padded.At (offset + 4) (Bytes.ofNatBE 4 file.data.length)
          ∧ padded.At (offset + 8) file.name
          ∧ padded.At (offset + 8 + file.name.length) file.mime
          ∧ padded.At (offset + 8 + file.name.length + file.mime.length) file.data := by
  simp only [fileBytes, Bytes.at_append, List.length_append, Bytes.length_ofNatBE, and_assoc,
    Nat.add_assoc, Nat.reduceAdd]

theorem normalizedFile_eq_iff {file : FileInput}
    : normalizedFile unicode file = file
        ↔ unicode.normalize file.name = file.name ∧ normalizedMime unicode file.mime = file.mime := by
  cases file
  simp [normalizedFile]

theorem packedFile_bounds {file : FileInput} (h : AcceptsFile unicode file)
    (hnormalized : normalizedFile unicode file = file)
    : ((packedFile file).name.length ≠ 0 ∧ (packedFile file).name.length ≤ maxFilenameBytes)
      ∧ ((packedFile file).mime.length ≠ 0 ∧ (packedFile file).mime.length ≤ maxMimeBytes)
      ∧ JsString.WellFormed file.name ∧ JsString.WellFormed file.mime := by
  have hname := h.isFilename
  have hmime := h.isMime
  have hlength := (normalizeMime_eq_ok_iff.mp h.mime).1
  rw [(normalizedFile_eq_iff.mp hnormalized).1] at hname
  rw [(normalizedFile_eq_iff.mp hnormalized).2] at hmime
  have hascii := wellFormed_of_ascii (isMime_ascii hmime).1
  have hnonempty := (mem_of_isMime hmime).1
  unfold packedFile
  refine ⟨⟨?_, hname.length_le⟩, ⟨?_, ?_⟩, hname.wellFormed, hascii.1⟩
  . rw [ne_eq, encoderEncode_eq_nil hname.wellFormed]
    exact hname.ne_nil
  . rw [ne_eq, encoderEncode_eq_nil hascii.1]
    exact hnonempty
  . rw [hascii.2]
    exact hlength

theorem unpackFiles_eq_ok_iff {padded : Bytes} {length count offset contentBytes stop : Nat}
    {names : List JsString} {files : List FileInput} (hlength : length ≤ padded.length)
    (hoffset : offset ≤ length)
    : unpackFiles unicode padded length count offset contentBytes names = .ok (files, stop)
        ↔ files.length = count ∧ files.map (normalizedFile unicode) = files
          ∧ Accepts unicode names contentBytes files
          ∧ padded.At offset ((files.map packedFile).flatMap fileBytes)
          ∧ stop = offset + ((files.map packedFile).flatMap fileBytes).length ∧ stop ≤ length := by
  induction count generalizing offset contentBytes names files stop with
  | zero =>
    simp only [unpackFiles, Except.ok.injEq, Prod.mk.injEq]
    constructor
    . intro h
      rcases h with ⟨rfl, rfl⟩
      exact ⟨rfl, rfl, trivial, List.nil_prefix, rfl, hoffset⟩
    . intro h
      rcases h with ⟨hnil, -, -, -, hstop, -⟩
      rw [List.length_eq_zero_iff] at hnil
      subst hnil
      exact ⟨rfl, hstop.symm⟩
  | succ count ih =>
    simp only [unpackFiles, invalid, Except.guard_eq_ok, Except.bind_eq_ok, getUint16_eq_ok_iff,
      getUint32_eq_ok_iff, Prod.exists, take_eq_ok_iff hlength, utf8_eq_ok_iff]
    constructor
    . intro h
      rcases h with ⟨-, _, ⟨-, hnameLength⟩, _, ⟨-, hmimeLength⟩, _, ⟨-, hdataLength⟩, -, hcontent,
        _, _, ⟨-, rfl, hname, rfl⟩, name, ⟨-, rfl⟩, _, _, ⟨-, rfl, hmime, rfl⟩, mime, ⟨-, rfl⟩,
        normalName, hnormalName, hnameEq, normalMime, hnormalMime, hmimeEq, hfolded, data, _,
        ⟨hfit, rfl, hdata, rfl⟩, rest, _, hrest, hresult⟩
      rw [not_not] at hnameEq hmimeEq
      rw [hnameEq] at hnormalName
      rw [hmimeEq] at hnormalMime
      simp only [pure, Except.pure, Except.ok.injEq, Prod.mk.injEq] at hresult
      rcases hresult with ⟨rfl, rfl⟩
      rcases (ih hfit).mp hrest with ⟨hcount, hnormalized, haccepts, hat, hstop, hle⟩
      have hfile : AcceptsFile unicode ⟨name, mime, data⟩ ∧ name = unicode.normalize name
          ∧ mime = normalizedMime unicode mime := acceptsFile_of_eq_ok hnormalName hnormalMime
      have heq : normalizedFile unicode ⟨name, mime, data⟩ = ⟨name, mime, data⟩ :=
        normalizedFile_eq_iff.mpr ⟨hfile.2.1.symm, hfile.2.2.symm⟩
      have hbytes : padded.At offset (fileBytes (packedFile ⟨name, mime, data⟩)) :=
        at_fileBytes_iff.mpr ⟨hnameLength, hmimeLength, hdataLength, hname, hmime, hdata⟩
      have hsize := length_fileBytes (packedFile ⟨name, mime, data⟩)
      simp only [packedFile] at hsize
      refine ⟨by rw [List.length_cons, hcount], ?_, ?_, ?_, ?_, hle⟩
      . rw [List.map_cons, heq, hnormalized]
      . unfold Accepts
        rw [← hfile.2.1]
        exact ⟨Nat.le_of_not_lt hcontent, hfile.1, hfolded, haccepts⟩
      . rw [List.map_cons, List.flatMap_cons, Bytes.at_append]
        refine ⟨hbytes, ?_⟩
        rw [packedFile, hsize]
        simpa only [Nat.add_assoc] using hat
      . rw [List.map_cons, List.flatMap_cons, List.length_append, hstop, packedFile, hsize]
        omega
    . intro h
      rcases h with ⟨hcount, hnormalized, haccepts, hat, hstop, hle⟩
      cases files with
      | nil => contradiction
      | cons file files =>
        rw [List.map_cons, List.cons.injEq] at hnormalized
        rw [List.length_cons, Nat.succ_inj] at hcount
        rcases haccepts with ⟨hcontent, hfile, hfolded, haccepts⟩
        rw [List.map_cons, List.flatMap_cons, Bytes.at_append, length_fileBytes,
          at_fileBytes_iff] at hat
        rw [List.map_cons, List.flatMap_cons, List.length_append, length_fileBytes] at hstop
        rcases hat with ⟨⟨hnameLength, hmimeLength, hdataLength, hname, hmime, hdata⟩, hat⟩
        rcases packedFile_bounds hfile hnormalized.1
          with ⟨hnameBounds, hmimeBounds, hnameWellFormed, hmimeWellFormed⟩
        have heq := normalizedFile_eq_iff.mp hnormalized.1
        have hnormalName := hfile.name
        have hnormalMime := hfile.mime
        rw [heq.1] at hnormalName hfolded haccepts
        rw [heq.2] at hnormalMime
        have hsize : maxFilenameBytes = 255 ∧ maxMimeBytes = 127 ∧ maxContentBytes = 67108864 :=
          ⟨rfl, rfl, rfl⟩
        have hdataSize : (packedFile file).data = file.data := rfl
        rw [hdataSize] at hstop hdataLength hdata hat
        refine ⟨by omega, _, ⟨by omega, hnameLength⟩, _, ⟨by omega, hmimeLength⟩, _,
          ⟨by omega, hdataLength⟩, by omega, by omega, _, _, ⟨by omega, rfl, hname, rfl⟩, _,
          ⟨hnameWellFormed, rfl⟩, _, _, ⟨by omega, rfl, hmime, rfl⟩, _, ⟨hmimeWellFormed, rfl⟩, _,
          hnormalName, by simp, _, hnormalMime, by simp, hfolded, _, _, ⟨by omega, rfl, hdata, rfl⟩,
          files, stop, ?_, rfl⟩
        rw [ih (by omega)]
        refine ⟨hcount, hnormalized.2, haccepts, ?_, by omega, hle⟩
        simpa only [Nat.add_assoc] using hat

theorem logicalLength_le {files : List FileInput} {names : List JsString} {contentBytes : Nat}
    (hcontent : contentBytes ≤ maxContentBytes) (haccepts : Accepts unicode names contentBytes files)
    (hnormalized : files.map (normalizedFile unicode) = files)
    : contentBytes + ((files.map packedFile).map fun file =>
          8 + file.name.length + file.mime.length + file.data.length).sum
        ≤ maxContentBytes + files.length * (8 + maxFilenameBytes + maxMimeBytes) := by
  induction files generalizing names contentBytes with
  | nil => simpa using hcontent
  | cons file files ih =>
    rw [List.map_cons, List.cons.injEq] at hnormalized
    rcases haccepts with ⟨hnext, hfile, -, haccepts⟩
    rcases packedFile_bounds hfile hnormalized.1 with ⟨hname, hmime, -, -⟩
    have hrest := ih hnext haccepts hnormalized.2
    have hdata : (packedFile file).data = file.data := rfl
    simp only [List.map_cons, List.sum_cons, List.length_cons, hdata, Nat.succ_mul]
    omega

theorem IsCanonical.length_le {input : ContentInput} (h : IsCanonical unicode input)
    : (contentEnvelope input).length ≤ maxInnerBytes := by
  have hfiles := congrArg ContentInput.files h.normalized_eq
  have htext := h.text_le
  have hcount := h.files_le
  have hlimits : maxContentBytes = 67108864 ∧ maxTextBytes = 8388608 ∧ maxFiles = 8
      ∧ maxFilenameBytes = 255 ∧ maxMimeBytes = 127 ∧ maxInnerBytes = 67111998 :=
    ⟨rfl, rfl, rfl, rfl, rfl, rfl⟩
  have hsum := logicalLength_le (by omega) h.accepts hfiles
  rw [contentEnvelope, length_envelope, logicalLength, innerHeaderBytes]
  rw [hlimits.2.2.2.1, hlimits.2.2.2.2.1] at hsum
  omega

theorem at_envelope_iff {padded text : Bytes} {files : List PackedFile}
    : padded.At 0 (envelope text files)
        ↔ padded.At 0 [69, 67, 78, 49]
          ∧ padded.At 4 (Bytes.ofNatBE 4 (logicalLength text files))
          ∧ padded.At 8 (Bytes.ofNatBE 4 text.length)
          ∧ padded.At 12 (Bytes.ofNatBE 2 files.length)
          ∧ padded.At innerHeaderBytes text
          ∧ padded.At (innerHeaderBytes + text.length) (files.flatMap fileBytes) := by
  simp only [envelope, Bytes.at_append, List.length_append, Bytes.length_ofNatBE, and_assoc,
    List.length_cons, List.length_nil, Nat.zero_add, Nat.reduceAdd, innerHeaderBytes]

theorem at_magic_iff {padded : Bytes}
    : padded.At 0 [69, 67, 78, 49] ↔ padded.take 4 = [69, 67, 78, 49] := by
  rw [Bytes.At, List.prefix_iff_eq_take, List.drop_zero]
  exact eq_comm

theorem unpack_eq_ok_iff {padded : Bytes} {input : ContentInput}
    : unpack unicode padded = .ok input
        ↔ IsCanonical unicode input ∧ padded.At 0 (contentEnvelope input)
          ∧ padded.length = bucket (contentEnvelope input).length := by
  simp only [unpack, invalid, Except.guard_eq_ok, Except.bind_eq_ok, getUint16_eq_ok_iff,
    getUint32_eq_ok_iff, Prod.exists, utf8_eq_ok_iff, pure, Except.pure, Except.ok.injEq]
  constructor
  . intro h
    rcases h with ⟨hframe, length, ⟨-, hlength⟩, textLength, ⟨-, htextLength⟩, count, ⟨-, hcount⟩,
      hlengths, textBytes, offset, htake, text, ⟨hwellFormed, rfl⟩, files, stop, hfiles, hstop,
      rfl⟩
    push Not at hframe hlengths
    rcases hlengths with ⟨hmin, hmax, hinside, hbucket, htextMax, hcountMax, hnonempty⟩
    rw [take_eq_ok_iff hinside] at htake
    rcases htake with ⟨hfit, rfl, htext, rfl⟩
    rw [unpackFiles_eq_ok_iff hinside hfit] at hfiles
    rcases hfiles with ⟨rfl, hnormalized, haccepts, hat, rfl, -⟩
    have hlogical : length = logicalLength (encoderEncode text) (files.map packedFile) := by
      rw [not_not, length_flatMap_fileBytes] at hstop
      exact hstop.symm
    subst hlogical
    have hcanonical : IsCanonical unicode ⟨text, files⟩ := by
      refine ⟨⟨hwellFormed, htextMax, hcountMax, ?_, haccepts⟩, ?_⟩
      . intro hempty
        rcases hempty with ⟨htextNil, hfilesNil⟩
        exact hnonempty ((encoderEncode_eq_nil hwellFormed).mpr htextNil)
          (List.length_eq_zero_iff.mpr hfilesNil)
      . rw [normalized, hnormalized]
    refine ⟨hcanonical, ?_, ?_⟩
    . rw [contentEnvelope, at_envelope_iff, List.length_map]
      exact ⟨at_magic_iff.mpr hframe.2.2.2, hlength, htextLength, hcount, htext, hat⟩
    . rw [contentEnvelope, length_envelope]
      exact hbucket.symm
  . intro h
    rcases h with ⟨hcanonical, hat, hpadded⟩
    have hmax := hcanonical.length_le
    have htext := hcanonical.text_le
    have hcount := hcanonical.files_le
    have hfiles := congrArg ContentInput.files hcanonical.normalized_eq
    have hlimits : maxTextBytes = 8388608 ∧ maxFiles = 8 ∧ maxInnerBytes = 67111998 :=
      ⟨rfl, rfl, rfl⟩
    have hbucket := le_bucket (contentEnvelope input).length
    have hpaddedMax := bucket_mono hmax
    have hmod := bucket_mod (contentEnvelope input).length
    rw [contentEnvelope, at_envelope_iff, List.length_map] at hat
    rw [contentEnvelope, length_envelope] at hmax hpadded hbucket hpaddedMax hmod
    rcases hat with ⟨hmagic, hlength, htextLength, hcountField, htextAt, hfilesAt⟩
    have hsum := length_flatMap_fileBytes (input.files.map packedFile)
    have hlogical : logicalLength (encoderEncode input.text) (input.files.map packedFile)
        = innerHeaderBytes + (encoderEncode input.text).length
          + ((input.files.map packedFile).flatMap fileBytes).length := by
      rw [hsum, logicalLength]
    have hmin : 4096 ≤ bucket (logicalLength (encoderEncode input.text)
        (input.files.map packedFile)) := by
      have : innerHeaderBytes = 14 := rfl
      unfold bucket paddingBytes
      omega
    have hpaddingBytes : paddingBytes = 4096 := rfl
    have hmaxPadded : maxPaddedBytes = bucket maxInnerBytes := rfl
    refine ⟨?_, _, ⟨by omega, hlength⟩, _, ⟨by omega, htextLength⟩, _, ⟨by omega, hcountField⟩, ?_,
      encoderEncode input.text, innerHeaderBytes + (encoderEncode input.text).length, ?_, input.text,
      ⟨hcanonical.text_wellFormed, rfl⟩, input.files, innerHeaderBytes
        + (encoderEncode input.text).length
        + ((input.files.map packedFile).flatMap fileBytes).length, ?_, ?_, rfl⟩
    . push Not
      refine ⟨by omega, by omega, ?_, at_magic_iff.mp hmagic⟩
      rw [hpadded]
      exact hmod
    . push Not
      refine ⟨by omega, by omega, by omega, hpadded.symm, by omega, by omega, ?_⟩
      intro hnil hempty
      rw [encoderEncode_eq_nil hcanonical.text_wellFormed] at hnil
      exact hcanonical.nonempty ⟨hnil, List.length_eq_zero_iff.mp hempty⟩
    . rw [take_eq_ok_iff (by omega)]
      exact ⟨by omega, rfl, htextAt, rfl⟩
    . rw [unpackFiles_eq_ok_iff (by omega) (by omega)]
      exact ⟨rfl, hfiles, hcanonical.accepts, hfilesAt, rfl, by omega⟩
    . rw [not_not, hlogical]

end Shared
