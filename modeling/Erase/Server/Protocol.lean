import Erase.Library.Base64
import Erase.Library.Decimal
import Erase.Library.Hex
import Erase.Library.SerdeJson
import Erase.Server.Error

namespace Server

def maxContentBytes : Nat := 64 * 1024 * 1024
def maxPacketBytes : Nat := maxContentBytes + 32768
def maxHeaderBytes : Nat := 2048

structure Header where
  version : Nat
  id : String
  ttl : Nat
  views : Nat
  peek : String
  read : String
  revoke : String
  kdf : String
  salt : String
  nonce : String
  deriving DecidableEq, Repr

structure Packet where
  bytes : Bytes
  headerBytes : Bytes
  header : Header
  deriving DecidableEq

def asBytes (value : String) : Bytes := Utf8.encode value.toList

def encodeUrlSafe (bytes : Bytes) : String := Ascii.string (Base64.encode Base64.urlSafe bytes)

def base64Bytes (value : String) (length : Nat) : Except ApiError Bytes := do
  if (asBytes value).length ≠ (length * 8 + 5) / 6 then .error .invalidRequest
  match Base64.decodeStrict? Base64.urlSafe ((asBytes value).map UInt8.toNat) with
  | none => .error .invalidRequest
  | some decoded =>
    if decoded.length ≠ length ∨ encodeUrlSafe decoded ≠ value then .error .invalidRequest
    return decoded

def isOk : Except ε α → Bool
  | .ok _ => true
  | .error _ => false

def validId (value : String) : Bool := isOk (base64Bytes value 32)

def isHash (value : String) : Bool :=
  (asBytes value).length = 64 && (asBytes value).all fun byte =>
    (48 ≤ byte.toNat && byte.toNat ≤ 57) || (97 ≤ byte.toNat && byte.toNat ≤ 102)

section

variable (sha256 : Bytes → Bytes)

def digest (bytes : Bytes) : String := Ascii.string (Hex.encode (sha256 bytes))

def tokenHash (value : String) : Except ApiError String :=
  match base64Bytes value 32 with
  | .ok bytes => .ok (digest sha256 bytes)
  | .error _ => .error .unavailable

end

namespace Header

def fields : List String :=
  ["version", "id", "ttl", "views", "peek", "read", "revoke", "kdf", "salt", "nonce"]

def ofValues? : List Json.Value → Option Header
  | [version, id, ttl, views, peek, read, revoke, kdf, salt, nonce] => do
    let version ← SerdeJson.unsigned? 8 version
    let id ← SerdeJson.string? id
    let ttl ← SerdeJson.unsigned? 64 ttl
    let views ← SerdeJson.unsigned? 32 views
    let peek ← SerdeJson.string? peek
    let read ← SerdeJson.string? read
    let revoke ← SerdeJson.string? revoke
    let kdf ← SerdeJson.string? kdf
    let salt ← SerdeJson.string? salt
    let nonce ← SerdeJson.string? nonce
    return { version, id, ttl, views, peek, read, revoke, kdf, salt, nonce }
  | _ => none

def fromSlice? (bytes : Bytes) : Option Header :=
  ((SerdeJson.parse? bytes).bind (SerdeJson.fields? fields)).bind ofValues?

def toVec (header : Header) : Bytes :=
  SerdeJson.toVec <| fields.zip [
    .number header.version,
    .string header.id,
    .number header.ttl,
    .number header.views,
    .string header.peek,
    .string header.read,
    .string header.revoke,
    .string header.kdf,
    .string header.salt,
    .string header.nonce]

def invalidSalt (header : Header) : Bool :=
  match header.kdf with
  | "none" => header.salt ≠ ""
  | "argon2id" => !isOk (base64Bytes header.salt 16)
  | _ => true

def isInvalid (header : Header) : Bool :=
  header.version ≠ 1
  || !validId header.id
  || !(60 ≤ header.ttl && header.ttl ≤ 604800)
  || !(1 ≤ header.views && header.views ≤ 100)
  || !isHash header.peek
  || !isHash header.read
  || !isHash header.revoke
  || !isOk (base64Bytes header.nonce 24)
  || header.invalidSalt

end Header

def parsePacket (bytes : Bytes) : Except Failure Packet := do
  if bytes.length > maxPacketBytes then fail .tooLarge
  if bytes.length < 8 then fail .invalidRequest
  if (← slice bytes 0 4) ≠ [69, 82, 83, 49] then fail .invalidRequest
  let length := (← slice bytes 4 8).toNatBE
  if ¬(1 ≤ length ∧ length ≤ maxHeaderBytes) then fail .invalidRequest
  if bytes.length < (← usizeAdd (← usizeAdd 8 length) 4112) then fail .invalidRequest
  let cipherLength ← usizeSub (← usizeSub bytes.length 8) length
  if (← usizeSub cipherLength 16) % 4096 ≠ 0 then fail .invalidRequest
  let headerBytes ← slice bytes 8 (← usizeAdd 8 length)
  match Header.fromSlice? headerBytes with
  | none => fail .invalidRequest
  | some header =>
    if header.toVec ≠ headerBytes then fail .invalidRequest
    if header.isInvalid then fail .invalidRequest
    return { bytes, headerBytes, header }

-- `str::parse` for an unsigned type of `width` bits.
def parseUnsigned? (width : Nat) (bytes : Bytes) : Option Nat :=
  let digits := match bytes with
    | 43 :: rest => rest
    | _ => bytes
  (Decimal.parse? digits).filter fun n => n < 2 ^ width

def validNonce (nonce : String) : Bool :=
  let bytes := asBytes nonce
  bytes ≠ [] && bytes.length ≤ 16 && bytes.all (fun byte => Decimal.isDigit byte.toNat)
    && !(1 < bytes.length && bytes.head? = some 48)
    && (parseUnsigned? 64 bytes).any fun n => n ≤ 9007199254740991

def verifyWork (sha256 : Bytes → Bytes) (challenge nonce : String) (packet : Bytes) (bits : Nat)
    : Except Failure Bool := do
  if !validId challenge || !validNonce nonce || !(1 ≤ bits && bits ≤ 24) then return false
  let hash := sha256 (asBytes (challenge ++ "." ++ digest sha256 packet ++ "." ++ nonce))
  let full := bits / 8
  let remainder := bits % 8
  if !(← slice hash 0 full).all (· = 0) then return false
  if remainder = 0 then return true
  match hash[full]? with
  | none => .error .panic
  | some byte => return byte.toNat >>> (8 - remainder) = 0

end Server
