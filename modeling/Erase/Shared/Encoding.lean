import Erase.Library.Base64
import Erase.Shared.Types

namespace Shared

def headerFields : List JsString :=
  ["version", "id", "ttl", "views", "peek", "read", "revoke", "kdf", "salt", "nonce"].map
    JsString.ofString

def invalid (message : String := "The encrypted package is invalid.") : Except JsError α :=
  .error (.protocolError "invalid_package" message)

def utf8 (bytes : Bytes) : Except JsError JsString :=
  match Utf8.decode? bytes with
  | some text => .ok (JsString.ofChars text)
  | none => invalid "Invalid UTF-8 data."

def encoderEncode (value : JsString) : Bytes := Utf8.encode (JsString.scalars value)

def encodeText (value : JsString) : Except JsError Bytes := do
  let bytes := encoderEncode value
  if (← utf8 bytes) ≠ value then invalid "Invalid Unicode text."
  return bytes

-- A binary string is given as the bytes its code units stand for.
def btoa (binary : Bytes) : JsString := Ascii.units (Base64.encodePadded binary)

def atob (data : JsString) : Option Bytes := Base64.decodeForgiving? (data.map UInt16.toNat)

def replaceAll (value : JsString) (pattern replacement : UInt16) : JsString :=
  value.map fun unit => if unit = pattern then replacement else unit

def toBase64Url (bytes : Bytes) : JsString :=
  (replaceAll (replaceAll (btoa bytes) 43 45) 47 95).filter fun unit => unit ≠ 61

def isBase64Url (unit : UInt16) : Bool := (Base64.urlSafe.index? unit.toNat).isSome

def fromBase64Url (value : JsString) (expectedBytes : Option Nat := none)
    (maxBytes : Nat := maxHeaderBytes) : Except JsError Bytes := do
  if value = [] ∨ ¬value.all isBase64Url ∨ value.length > (maxBytes * 4 + 2) / 3
      ∨ value.length % 4 = 1 then
    invalid
  match atob (replaceAll (replaceAll value 45 43) 95 47
      ++ List.replicate ((4 - value.length % 4) % 4) 61) with
  | none => invalid
  | some bytes =>
    if bytes.length > maxBytes ∨ expectedBytes.any (fun expected => bytes.length ≠ expected)
        ∨ toBase64Url bytes ≠ value then
      invalid
    return bytes

def validateId (id : JsString) : Except JsError Unit := do
  let _ ← fromBase64Url id (some 32) 32

def invalidPolicy : Except JsError α :=
  .error (.protocolError "invalid_policy"
    "Choose a lifetime from one minute to seven days and between one and 100 opens.")

-- The numbers that pass are returned as the integers they are.
def validatePolicy (ttl views : JsNumber) : Except JsError (Nat × Nat) :=
  match ttl.safeInteger?, views.safeInteger? with
  | some ttl, some views =>
    if ttl < 60 ∨ ttl > 604800 ∨ views < 1 ∨ views > 100 then
      invalidPolicy
    else
      .ok (ttl.toNat, views.toNat)
  | _, _ => invalidPolicy

def serializeHeader (header : Header) : Bytes :=
  encoderEncode <| JsValue.stringify <| headerFields.zip [
    .number 1,
    .string header.id,
    .number header.ttl,
    .number header.views,
    .string header.peek,
    .string header.read,
    .string header.revoke,
    .string header.kdf.toJs,
    .string header.salt,
    .string header.nonce]

def isHexHash (value : JsString) : Bool :=
  value.length = 64 && value.all fun unit =>
    (97 ≤ unit.toNat && unit.toNat ≤ 102) || (48 ≤ unit.toNat && unit.toNat ≤ 57)

def kdf? (value : JsString) : Option Kdf :=
  if value = Kdf.none.toJs then some .none
  else if value = Kdf.argon2id.toJs then some .argon2id
  else none

-- The members that pass the type checks, before their contents are validated.
def checkedMembers? (obj : List (JsString × JsValue)) : Option (Header × JsNumber × JsNumber) := do
  let version ← JsValue.number? obj (JsString.ofString "version")
  let id ← JsValue.string? obj (JsString.ofString "id")
  let ttl ← JsValue.number? obj (JsString.ofString "ttl")
  let views ← JsValue.number? obj (JsString.ofString "views")
  let peek ← JsValue.string? obj (JsString.ofString "peek")
  let read ← JsValue.string? obj (JsString.ofString "read")
  let revoke ← JsValue.string? obj (JsString.ofString "revoke")
  let kdf ← (JsValue.string? obj (JsString.ofString "kdf")).bind kdf?
  let salt ← JsValue.string? obj (JsString.ofString "salt")
  let nonce ← JsValue.string? obj (JsString.ofString "nonce")
  if version = JsNumber.ofNat 1 ∧ isHexHash peek ∧ isHexHash read ∧ isHexHash revoke then
    some ({ id, ttl := 0, views := 0, peek, read, revoke, kdf, salt, nonce }, ttl, views)
  else
    none

def validateSalt (header : Header) : Except JsError Unit := do
  if (if header.kdf = .none then header.salt ≠ [] else header.salt = []) then invalid
  if header.kdf = .argon2id then
    let _ ← fromBase64Url header.salt (some 16) 16

def validateHeader (members : Header) (ttl views : JsNumber) (text : JsString)
    : Except JsError Header := do
  validateId members.id
  let (ttl, views) ← validatePolicy ttl views
  let header := { members with ttl, views }
  let _ ← fromBase64Url header.nonce (some 24) 24
  validateSalt header
  -- Canonical bytes also reject duplicate members, reordered fields and alternate numeric forms.
  if (← utf8 (serializeHeader header)) ≠ text then invalid "Noncanonical package header."
  return header

def parseHeader (bytes : Bytes) : Except JsError Header := do
  if bytes.length < 1 ∨ bytes.length > maxHeaderBytes then invalid
  let text ← utf8 bytes
  match JsValue.parse? text with
  | some (.object obj) =>
    if obj.length ≠ headerFields.length
        ∨ headerFields.any (fun key => (JsValue.member? obj key).isNone) then
      invalid
    match checkedMembers? obj with
    | none => invalid
    | some (members, ttl, views) => validateHeader members ttl views text
  | _ => invalid

def getUint32 (bytes : Bytes) (offset : Nat) : Except JsError Nat :=
  match bytes.read offset 4 with
  | some word => .ok word.toNatBE
  | none => .error .rangeError

def parsePacket (packet : Bytes) : Except JsError ParsedPacket := do
  if packet.length < 8 ∨ packet.length > maxPacketBytes ∨ packet.take 4 ≠ [69, 82, 83, 49] then
    invalid
  let length ← getUint32 packet 4
  if length < 1 ∨ length > maxHeaderBytes ∨ packet.length < 8 + length + 4112 then invalid
  let headerBytes := (packet.drop 8).take length
  let ciphertext := packet.drop (8 + length)
  if (ciphertext.length - 16) % 4096 ≠ 0 then invalid
  return { header := ← parseHeader headerBytes, headerBytes, ciphertext }

end Shared
