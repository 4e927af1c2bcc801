import Erase.Shared.Encoding

namespace Shared

-- What the platform's Unicode tables decide: `normalize('NFC')` and `toLowerCase()`.
structure Unicode where
  normalize : JsString → JsString
  toLowerCase : JsString → JsString

def innerHeaderBytes : Nat := 14

def maxInnerBytes : Nat :=
  maxContentBytes + innerHeaderBytes + maxFiles * (8 + maxFilenameBytes + maxMimeBytes)

-- `Math.ceil(length / PADDING_BYTES) * PADDING_BYTES`
def bucket (length : Nat) : Nat := (length + (paddingBytes - 1)) / paddingBytes * paddingBytes

def maxPaddedBytes : Nat := bucket maxInnerBytes

def isBidiControl (unit : UInt16) : Bool :=
  unit = 0x061C || unit = 0x200E || unit = 0x200F
  || (0x202A ≤ unit && unit ≤ 0x202E) || (0x2066 ≤ unit && unit ≤ 0x2069)

def isForbidden (unit : UInt16) : Bool :=
  unit ≤ 0x1F || (0x7F ≤ unit && unit ≤ 0x9F) || ([60, 62, 58, 34, 47, 92, 124, 63, 42].contains unit)
  || isBidiControl unit

def endsInDotOrSpace (name : JsString) : Bool :=
  match name.getLast? with
  | some unit => unit = 46 || unit = 32
  | none => false

def deviceDigits : JsString := [49, 50, 51, 52, 53, 54, 55, 56, 57, 0xB9, 0xB2, 0xB3]

def reservedNames : List JsString :=
  ["con", "prn", "aux", "nul", "conin$", "conout$"].map JsString.ofString
  ++ deviceDigits.map (fun digit => JsString.ofString "com" ++ [digit])
  ++ deviceDigits.map (fun digit => JsString.ofString "lpt" ++ [digit])

-- The `i` flag without `u` folds no other unit onto the letters, digits and `$` of the pattern.
def foldUnit (unit : UInt16) : UInt16 := if 65 ≤ unit && unit ≤ 90 then unit + 32 else unit

def isReserved (name : JsString) : Bool :=
  reservedNames.any fun reserved =>
    (name.take reserved.length).map foldUnit = reserved
    && (name.length = reserved.length || name[reserved.length]? = some 46)

def invalidFilename : Except JsError α :=
  .error (.protocolError "invalid_filename" ("Use a file name without paths, control characters or "
    ++ "reserved device names (maximum 255 UTF-8 bytes)."))

def isMimeUnit (unit : UInt16) : Bool :=
  (97 ≤ unit && unit ≤ 122) || (48 ≤ unit && unit ≤ 57)
  || [33, 35, 36, 38, 94, 95, 46, 43, 45].contains unit

-- `^[a-z0-9!#$&^_.+-]+\/[a-z0-9!#$&^_.+-]+$`, whose classes do not hold the slash.
def isMime (mime : JsString) : Bool :=
  mime.takeWhile isMimeUnit ≠ [] &&
    match mime.dropWhile isMimeUnit with
    | slash :: subtype => slash = 47 && subtype ≠ [] && subtype.all isMimeUnit
    | [] => false

def octetStream : JsString := JsString.ofString "application/octet-stream"

structure PackedFile where
  name : Bytes
  mime : Bytes
  data : Bytes
  deriving DecidableEq

def tooLarge (message : String) : Except JsError α := .error (.protocolError "too_large" message)

def setPart (buffer : Bytes) (offset : Nat) (part : Bytes) : Except JsError Bytes :=
  match buffer.write offset part with
  | some buffer => .ok buffer
  | none => .error .rangeError

def setUint16 (buffer : Bytes) (offset value : Nat) : Except JsError Bytes :=
  setPart buffer offset (Bytes.ofNatBE 2 value)

def setUint32 (buffer : Bytes) (offset value : Nat) : Except JsError Bytes :=
  setPart buffer offset (Bytes.ofNatBE 4 value)

def getUint16 (bytes : Bytes) (offset : Nat) : Except JsError Nat :=
  match bytes.read offset 2 with
  | some word => .ok word.toNatBE
  | none => .error .rangeError

-- `getRandomValues` accepts at most 65536 bytes; `random` gives the byte for each place.
def fillPadding (random : Nat → UInt8) (padded : Bytes) (n : Nat) : Bytes :=
  if n < padded.length then
    let chunk := (List.range' n (min 65536 (padded.length - n))).map random
    fillPadding random (padded.take n ++ chunk ++ padded.drop (n + chunk.length)) (n + 65536)
  else
    padded
termination_by padded.length - n
decreasing_by
  simp only [List.length_append, List.length_take, List.length_map, List.length_range',
    List.length_drop]
  omega

def writeFiles (padded : Bytes) (offset : Nat) : List PackedFile → Except JsError Bytes
  | [] => .ok padded
  | file :: files => do
    let padded ← setUint16 padded offset file.name.length
    let padded ← setUint16 padded (offset + 2) file.mime.length
    let padded ← setUint32 padded (offset + 4) file.data.length
    let offset := offset + 8
    let padded ← setPart padded offset file.name
    let padded ← setPart padded (offset + file.name.length) file.mime
    let padded ← setPart padded (offset + file.name.length + file.mime.length) file.data
    writeFiles padded (offset + file.name.length + file.mime.length + file.data.length) files

def logicalLength (text : Bytes) (files : List PackedFile) : Nat :=
  innerHeaderBytes + text.length
  + (files.map fun file => 8 + file.name.length + file.mime.length + file.data.length).sum

def layOut (random : Nat → UInt8) (text : Bytes) (files : List PackedFile) : Except JsError Bytes := do
  let length := logicalLength text files
  let padded := fillPadding random (List.replicate (bucket length) 0) length
  let padded ← setPart padded 0 [69, 67, 78, 49]
  let padded ← setUint32 padded 4 length
  let padded ← setUint32 padded 8 text.length
  let padded ← setUint16 padded 12 files.length
  let padded ← setPart padded innerHeaderBytes text
  writeFiles padded (innerHeaderBytes + text.length) files

def take (padded : Bytes) (logicalLength offset length : Nat) : Except JsError (Bytes × Nat) := do
  if offset + length > logicalLength then invalid "Truncated content."
  return ((padded.drop offset).take length, offset + length)

section

variable (unicode : Unicode)

def normalizeFilename (value : JsString) : Except JsError JsString := do
  if value.length > 1024 then invalid "Invalid file name."
  let name := unicode.normalize value
  if name = [] ∨ name = [46] ∨ name = [46, 46] ∨ name.any isForbidden ∨ endsInDotOrSpace name
      ∨ isReserved name then
    invalidFilename
  if (← encodeText name).length > maxFilenameBytes then invalidFilename
  return name

def normalizeMime (value : JsString) : Except JsError JsString := do
  if value.length > maxMimeBytes then invalid "Invalid file media type."
  let mime := if value = [] then octetStream else unicode.toLowerCase value
  if ¬isMime mime then invalid "Invalid file media type."
  return mime

def packFiles (names : List JsString) (contentBytes : Nat)
    : List FileInput → Except JsError (List PackedFile)
  | [] => .ok []
  | file :: files => do
    let contentBytes := contentBytes + file.data.length
    if contentBytes > maxContentBytes then tooLarge "The combined text and files exceed 64 MiB."
    let name ← normalizeFilename unicode file.name
    let folded := unicode.toLowerCase name
    if folded ∈ names then
      .error (.protocolError "duplicate_filename" "File names must be unique.")
    let nameBytes ← encodeText name
    let mime ← encodeText (← normalizeMime unicode file.mime)
    let packed ← packFiles (folded :: names) contentBytes files
    return { name := nameBytes, mime, data := file.data } :: packed

def pack (random : Nat → UInt8) (input : ContentInput) : Except JsError Bytes := do
  if input.text.length > maxTextBytes ∨ input.files.length > maxFiles then
    invalid "Invalid note content."
  let text ← encodeText input.text
  if text.length > maxTextBytes then tooLarge "Text exceeds 8 MiB of UTF-8 data."
  if text.length = 0 ∧ input.files.length = 0 then
    .error (.protocolError "empty_content" "Add text or a file.")
  let files ← packFiles unicode [] text.length input.files
  layOut random text files

def unpackFiles (padded : Bytes) (logicalLength : Nat)
    : (count offset contentBytes : Nat) → (names : List JsString)
      → Except JsError (List FileInput × Nat)
  | 0, offset, _, _ => .ok ([], offset)
  | count + 1, offset, contentBytes, names => do
    if offset + 8 > logicalLength then invalid "Truncated file header."
    let nameLength ← getUint16 padded offset
    let mimeLength ← getUint16 padded (offset + 2)
    let dataLength ← getUint32 padded (offset + 4)
    if nameLength = 0 ∨ nameLength > maxFilenameBytes ∨ mimeLength = 0 ∨ mimeLength > maxMimeBytes then
      invalid "Invalid file metadata."
    let contentBytes := contentBytes + dataLength
    if contentBytes > maxContentBytes then invalid "Content exceeds the size limit."
    let (nameBytes, offset) ← take padded logicalLength (offset + 8) nameLength
    let name ← utf8 nameBytes
    let (mimeBytes, offset) ← take padded logicalLength offset mimeLength
    let mime ← utf8 mimeBytes
    if (← normalizeFilename unicode name) ≠ name then invalid "Noncanonical file metadata."
    if (← normalizeMime unicode mime) ≠ mime then invalid "Noncanonical file metadata."
    if unicode.toLowerCase name ∈ names then invalid "Noncanonical file metadata."
    let (data, offset) ← take padded logicalLength offset dataLength
    let (files, offset) ← unpackFiles padded logicalLength count offset contentBytes
      (unicode.toLowerCase name :: names)
    return ({ name, mime, data } :: files, offset)

def unpack (padded : Bytes) : Except JsError ContentInput := do
  if padded.length < paddingBytes ∨ padded.length > maxPaddedBytes
      ∨ padded.length % paddingBytes ≠ 0 ∨ padded.take 4 ≠ [69, 67, 78, 49] then
    invalid "Invalid encrypted content envelope."
  let logicalLength ← getUint32 padded 4
  let textLength ← getUint32 padded 8
  let count ← getUint16 padded 12
  if logicalLength < innerHeaderBytes ∨ logicalLength > maxInnerBytes
      ∨ logicalLength > padded.length ∨ bucket logicalLength ≠ padded.length
      ∨ textLength > maxTextBytes ∨ count > maxFiles ∨ (textLength = 0 ∧ count = 0) then
    invalid "Invalid content lengths."
  let (textBytes, offset) ← take padded logicalLength innerHeaderBytes textLength
  let text ← utf8 textBytes
  let (files, offset) ← unpackFiles unicode padded logicalLength count offset textLength []
  if offset ≠ logicalLength then invalid "Unexpected content bytes."
  return { text, files }

end

end Shared
