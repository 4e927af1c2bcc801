import Erase.Shared.Errors

/-!
The parsers on the typed arrays they are given: a part of a buffer, read through a `DataView` and
`subarray`, with every range they ask for.
-/

namespace Shared

-- `count` bytes from `offset` on, counted from the start of the view.
structure Span where
  offset : Nat
  count : Nat
  deriving DecidableEq, Repr

def Span.stop (span : Span) : Nat := span.offset + span.count

abbrev Reading := Logged Span JsError

-- Every range the call asks for is as `inside` says, and it raises a `ProtocolError` or nothing.
abbrev Reading.Keeps {α : Type} (inside : Span → Prop) (x : Reading α) : Prop :=
  x.Meets inside JsError.IsProtocolError

-- A `Uint8Array`: its place in the buffer.
structure View where
  buffer : Bytes
  byteOffset : Nat
  byteLength : Nat
  fits : byteOffset + byteLength ≤ buffer.length

namespace View

def bytes (view : View) : Bytes := (view.buffer.drop view.byteOffset).take view.byteLength

-- A `DataView` reads from the buffer, and raises on an index that leaves the view.
def word (view : View) (width offset : Nat) : Reading Nat :=
  .note ⟨offset, width⟩ <|
    if offset + width ≤ view.byteLength then
      .ok (Bytes.toNatBE ((view.buffer.drop (view.byteOffset + offset)).take width))
    else
      .error .rangeError

def getUint16 (view : View) (offset : Nat) : Reading Nat := view.word 2 offset

def getUint32 (view : View) (offset : Nat) : Reading Nat := view.word 4 offset

-- The bytes of `subarray` or `slice`, which move both ends into the view and never raise.
def subarray (view : View) (start stop : Nat) : Reading Bytes :=
  .note ⟨start, stop - start⟩ <| .ok <|
    (view.buffer.drop (view.byteOffset + min start view.byteLength)).take
      (min stop view.byteLength - min start view.byteLength)

def parsePacket (packet : View) : Reading ParsedPacket := do
  if packet.byteLength < 8 ∨ packet.byteLength > maxPacketBytes
      ∨ packet.bytes.take 4 ≠ [69, 82, 83, 49] then
    invalid
  let length ← packet.getUint32 4
  if length < 1 ∨ length > maxHeaderBytes ∨ packet.byteLength < 8 + length + 4112 then invalid
  let headerBytes ← packet.subarray 8 (8 + length)
  let ciphertext ← packet.subarray (8 + length) packet.byteLength
  if (ciphertext.length - 16) % 4096 ≠ 0 then invalid
  return { header := ← parseHeader headerBytes, headerBytes, ciphertext }

def take (padded : View) (logicalLength offset length : Nat) : Reading (Bytes × Nat) := do
  if offset + length > logicalLength then invalid "Truncated content."
  return (← padded.subarray offset (offset + length), offset + length)

section

variable (unicode : Unicode)

def unpackFiles (padded : View) (logicalLength : Nat)
    : (count offset contentBytes : Nat) → (names : List JsString) → Reading (List FileInput × Nat)
  | 0, offset, _, _ => return ([], offset)
  | count + 1, offset, contentBytes, names => do
    if offset + 8 > logicalLength then invalid "Truncated file header."
    let nameLength ← padded.getUint16 offset
    let mimeLength ← padded.getUint16 (offset + 2)
    let dataLength ← padded.getUint32 (offset + 4)
    if nameLength = 0 ∨ nameLength > maxFilenameBytes ∨ mimeLength = 0 ∨ mimeLength > maxMimeBytes then
      invalid "Invalid file metadata."
    let contentBytes := contentBytes + dataLength
    if contentBytes > maxContentBytes then invalid "Content exceeds the size limit."
    let (nameBytes, offset) ← padded.take logicalLength (offset + 8) nameLength
    let name ← utf8 nameBytes
    let (mimeBytes, offset) ← padded.take logicalLength offset mimeLength
    let mime ← utf8 mimeBytes
    if (← normalizeFilename unicode name) ≠ name then invalid "Noncanonical file metadata."
    if (← normalizeMime unicode mime) ≠ mime then invalid "Noncanonical file metadata."
    if unicode.toLowerCase name ∈ names then invalid "Noncanonical file metadata."
    let (data, offset) ← padded.take logicalLength offset dataLength
    let (files, offset) ← unpackFiles padded logicalLength count offset contentBytes
      (unicode.toLowerCase name :: names)
    return ({ name, mime, data } :: files, offset)

def unpack (padded : View) : Reading ContentInput := do
  if padded.byteLength < paddingBytes ∨ padded.byteLength > maxPaddedBytes
      ∨ padded.byteLength % paddingBytes ≠ 0 ∨ padded.bytes.take 4 ≠ [69, 67, 78, 49] then
    invalid "Invalid encrypted content envelope."
  let logicalLength ← padded.getUint32 4
  let textLength ← padded.getUint32 8
  let count ← padded.getUint16 12
  if logicalLength < innerHeaderBytes ∨ logicalLength > maxInnerBytes
      ∨ logicalLength > padded.byteLength ∨ bucket logicalLength ≠ padded.byteLength
      ∨ textLength > maxTextBytes ∨ count > maxFiles ∨ (textLength = 0 ∧ count = 0) then
    invalid "Invalid content lengths."
  let (textBytes, offset) ← padded.take logicalLength innerHeaderBytes textLength
  let text ← utf8 textBytes
  let (files, offset) ← unpackFiles unicode padded logicalLength count offset textLength []
  if offset ≠ logicalLength then invalid "Unexpected content bytes."
  return { text, files }

end

@[simp]
theorem length_bytes (view : View) : view.bytes.length = view.byteLength := by
  have h := view.fits
  rw [bytes, List.length_take, List.length_drop]
  omega

theorem drop_take_bytes (view : View) {offset count : Nat} (h : offset + count ≤ view.byteLength)
    : (view.buffer.drop (view.byteOffset + offset)).take count = (view.bytes.drop offset).take count := by
  rw [bytes, List.drop_take, List.take_take, List.drop_drop]
  congr 1
  omega

theorem result_word (view : View) (width offset : Nat)
    : (view.word width offset).result
        = match view.bytes.read offset width with
          | some word => .ok word.toNatBE
          | none => .error .rangeError := by
  rw [word, Logged.result_note, Bytes.read, length_bytes]
  split
  . next h => rw [drop_take_bytes view h]
  . next h => rfl

@[simp]
theorem result_getUint16 (view : View) (offset : Nat)
    : (view.getUint16 offset).result = Shared.getUint16 view.bytes offset :=
  result_word view 2 offset

@[simp]
theorem result_getUint32 (view : View) (offset : Nat)
    : (view.getUint32 offset).result = Shared.getUint32 view.bytes offset :=
  result_word view 4 offset

theorem result_subarray (view : View) (start stop : Nat)
    : (view.subarray start stop).result = .ok ((view.bytes.drop start).take (stop - start)) := by
  have hfits := view.fits
  rw [subarray, Logged.result_note]
  congr 1
  apply List.ext_getElem?
  intro i
  simp only [bytes, List.getElem?_take, List.getElem?_drop]
  split
  . next h =>
    rw [if_pos (by omega), if_pos (by omega)]
    congr 1
    omega
  . next h =>
    split
    . next hless =>
      rw [if_neg (by omega)]
    . rfl

theorem result_take (view : View) (logicalLength offset length : Nat)
    : (view.take logicalLength offset length).result
        = Shared.take view.bytes logicalLength offset length := by
  simp only [take, Shared.take, Logged.result_ite, Logged.result_bind, Logged.result_lift,
    result_subarray, Logged.result_pure, Nat.add_sub_cancel_left, Except.ok_bind]
  split
  . rfl
  . rfl

theorem invalid_bind {α β : Type} (message : String) (f : α → Except JsError β)
    : invalid message >>= f = .error (.protocolError "invalid_package" message) := rfl

theorem result_parsePacket (packet : View)
    : packet.parsePacket.result = Shared.parsePacket packet.bytes := by
  have hheader (length : Nat) : 8 + length - 8 = length := Nat.add_sub_cancel_left ..
  have hrest (length : Nat) : (packet.bytes.drop (8 + length)).take (packet.byteLength - (8 + length))
      = packet.bytes.drop (8 + length) := by
    apply List.take_of_length_le
    rw [List.length_drop, length_bytes]
  simp only [parsePacket, Shared.parsePacket, ↓Logged.result_ite, ↓Logged.result_bind, ↓invalid_bind,
    Logged.result_lift, result_subarray, result_getUint32, Logged.result_pure, Except.ok_bind,
    length_bytes, hheader, hrest]
  rfl

theorem result_unpackFiles (unicode : Unicode) (padded : View)
    (logicalLength count offset contentBytes : Nat)
    (names : List JsString)
    : (padded.unpackFiles unicode logicalLength count offset contentBytes names).result
        = Shared.unpackFiles unicode padded.bytes logicalLength count offset contentBytes names := by
  induction count generalizing offset contentBytes names with
  | zero => rfl
  | succ count ih =>
    simp only [unpackFiles, Shared.unpackFiles, ↓Logged.result_ite, ↓Logged.result_bind, ↓invalid_bind,
      Logged.result_lift, result_take, result_getUint16, result_getUint32, Logged.result_pure, ih]
    rfl

theorem result_unpack (unicode : Unicode) (padded : View)
    : (padded.unpack unicode).result = Shared.unpack unicode padded.bytes := by
  simp only [unpack, Shared.unpack, ↓Logged.result_ite, ↓Logged.result_bind, ↓invalid_bind,
    Logged.result_lift, result_take, result_getUint16, result_getUint32, Logged.result_pure, length_bytes,
    result_unpackFiles]
  rfl

section

variable {view : View} {inside : Span → Prop}

theorem word_keeps {width offset : Nat} (hinside : inside ⟨offset, width⟩)
    (hfits : offset + width ≤ view.byteLength)
    : (view.word width offset).Keeps inside := by
  apply Logged.meets_note hinside
  rw [if_pos hfits]
  apply Except.raises_ok

theorem subarray_keeps {start stop : Nat} (hinside : inside ⟨start, stop - start⟩)
    : (view.subarray start stop).Keeps inside :=
  Logged.meets_note hinside (Except.raises_ok _)

theorem check_keeps {α : Type} {c : Prop} [Decidable c] {message : String} {f : Unit → Reading α}
    {x : Reading α} (hx : ¬c → x.Keeps inside)
    : Reading.Keeps inside (if c then liftM (invalid message) >>= f else x) :=
  Logged.meets_guard (invalid_raises _) (fun a => invalid_ne_ok message a) hx

end

theorem parsePacket_keeps (packet : View)
    : packet.parsePacket.Keeps fun span => span.stop ≤ packet.byteLength := by
  apply check_keeps
  intro hframe
  have hfour : 4 + 4 ≤ packet.byteLength := by omega
  apply (word_keeps hfour hfour).bind
  intro length _
  apply check_keeps
  intro hlength
  apply (subarray_keeps (by simp only [Span.stop]; omega)).bind
  intro headerBytes _
  apply (subarray_keeps (by simp only [Span.stop]; omega)).bind
  intro ciphertext _
  apply check_keeps
  intro _
  apply (Logged.meets_lift (parseHeader_raises _)).bind
  intro header _
  apply Logged.meets_pure

-- Inside the logical envelope and behind its head.
def InEnvelope (logicalLength : Nat) (span : Span) : Prop :=
  innerHeaderBytes ≤ span.offset ∧ span.stop ≤ logicalLength

theorem take_keeps {view : View} {logicalLength offset length : Nat}
    (hoffset : innerHeaderBytes ≤ offset)
    : (view.take logicalLength offset length).Keeps (InEnvelope logicalLength) := by
  apply check_keeps
  intro hlength
  have hinside : InEnvelope logicalLength ⟨offset, offset + length - offset⟩ := by
    constructor
    . exact hoffset
    . simp only [Span.stop]
      omega
  apply (subarray_keeps hinside).bind
  intro part _
  apply Logged.meets_pure

theorem le_of_take {view : View} {logicalLength offset length : Nat} {part : Bytes} {stop : Nat}
    (h : (view.take logicalLength offset length).result = .ok (part, stop))
    : offset ≤ stop := by
  simp only [result_take, Shared.take, invalid, Except.guard_eq_ok, pure, Except.pure, Except.ok.injEq,
    Prod.mk.injEq] at h
  omega

theorem unpackFiles_keeps (unicode : Unicode) (padded : View) {logicalLength : Nat}
    (hlogical : logicalLength ≤ padded.byteLength) (count offset contentBytes : Nat)
    (names : List JsString) (hoffset : innerHeaderBytes ≤ offset)
    : (padded.unpackFiles unicode logicalLength count offset contentBytes names).Keeps
        (InEnvelope logicalLength) := by
  induction count generalizing offset contentBytes names with
  | zero => exact Logged.meets_pure _
  | succ count ih =>
    apply check_keeps
    intro hheader
    have hword (width place : Nat) (hplace : offset ≤ place) (hstop : place + width ≤ offset + 8)
        : (padded.word width place).Keeps (InEnvelope logicalLength) := by
      have hinside : InEnvelope logicalLength ⟨place, width⟩ := by
        constructor
        . exact Nat.le_trans hoffset hplace
        . simp only [Span.stop]
          omega
      exact word_keeps hinside (by omega)
    apply (hword 2 offset (by omega) (by omega)).bind
    intro nameLength _
    apply (hword 2 (offset + 2) (by omega) (by omega)).bind
    intro mimeLength _
    apply (hword 4 (offset + 4) (by omega) (by omega)).bind
    intro dataLength _
    apply check_keeps
    intro _
    apply check_keeps
    intro _
    apply (take_keeps (by omega)).bind
    rintro ⟨nameBytes, mimeOffset⟩ hname
    have hmime := le_of_take hname
    apply (Logged.meets_lift (utf8_raises _)).bind
    intro name _
    apply (take_keeps (by omega)).bind
    rintro ⟨mimeBytes, dataOffset⟩ hmimeBytes
    have hdata := le_of_take hmimeBytes
    apply (Logged.meets_lift (utf8_raises _)).bind
    intro mime _
    apply (Logged.meets_lift (normalizeFilename_raises _ _)).bind
    intro normalName _
    apply check_keeps
    intro _
    apply (Logged.meets_lift (normalizeMime_raises _ _)).bind
    intro normalMime _
    apply check_keeps
    intro _
    apply check_keeps
    intro _
    apply (take_keeps (by omega)).bind
    rintro ⟨data, next⟩ hdataBytes
    have hnext := le_of_take hdataBytes
    apply (ih next _ _ (by omega)).bind
    rintro ⟨files, stop⟩ _
    apply Logged.meets_pure

-- The three lengths at the head of the envelope.
def headSpans : List Span := [⟨4, 4⟩, ⟨8, 4⟩, ⟨12, 2⟩]

def declaredLength (padded : View) : Nat := Bytes.toNatBE ((padded.bytes.drop 4).take 4)

theorem unpack_keeps (unicode : Unicode) (padded : View)
    : (padded.unpack unicode).Keeps fun span =>
        span.stop ≤ padded.byteLength
        ∧ (span ∈ headSpans ∨ InEnvelope padded.declaredLength span) := by
  apply check_keeps
  intro hframe
  have hpage : paddingBytes ≤ padded.byteLength := by omega
  unfold paddingBytes at hpage
  have hhead (span : Span) (hspan : span ∈ headSpans) : span.stop ≤ padded.byteLength := by
    simp only [headSpans, List.mem_cons, List.not_mem_nil, or_false] at hspan
    rcases hspan with rfl | rfl | rfl <;> simp only [Span.stop] <;> omega
  have hword (width place : Nat) (hspan : (⟨place, width⟩ : Span) ∈ headSpans)
      : (padded.word width place).Keeps fun span =>
          span.stop ≤ padded.byteLength
          ∧ (span ∈ headSpans ∨ InEnvelope padded.declaredLength span) :=
    word_keeps ⟨hhead _ hspan, Or.inl hspan⟩ (hhead _ hspan)
  apply (hword 4 4 (by decide)).bind
  intro logicalLength hlogical
  have hdeclared : padded.declaredLength = logicalLength := by
    rw [result_word, Bytes.read_eq_some (by rw [length_bytes]; omega)] at hlogical
    simpa [declaredLength] using hlogical
  apply (hword 4 8 (by decide)).bind
  intro textLength _
  apply (hword 2 12 (by decide)).bind
  intro count _
  apply check_keeps
  intro hlengths
  rw [hdeclared]
  have hfits : logicalLength ≤ padded.byteLength := by omega
  apply Logged.Meets.mono (E := InEnvelope logicalLength)
  . apply (take_keeps (Nat.le_refl _)).bind
    rintro ⟨textBytes, offset⟩ htext
    have hoffset := le_of_take htext
    apply (Logged.meets_lift (utf8_raises _)).bind
    intro text _
    apply (unpackFiles_keeps unicode padded hfits count offset textLength [] hoffset).bind
    rintro ⟨files, stop⟩ _
    apply check_keeps
    intro _
    apply Logged.meets_pure
  . intro span hspan
    exact ⟨Nat.le_trans hspan.2 hfits, Or.inr hspan⟩

end View

end Shared
