import Erase.Library.Crypto
import Erase.Library.Hex
import Erase.Shared.Content

namespace Shared

-- What `randombytes_buf` and `getRandomValues` return during one call of `create`.
structure Randomness where
  padding : Nat → UInt8
  master : ByteString 32
  revoke : ByteString 32
  id : ByteString 32
  salt : ByteString 16
  nonce : ByteString 24

structure ContentKeys where
  key : Bytes
  read : Bytes

def fromHexDigit (unit : UInt16) : Nat :=
  if 97 ≤ unit.toNat then unit.toNat - 87 else unit.toNat - 48

def fromHex : JsString → Bytes
  | high :: low :: rest => UInt8.ofNat (fromHexDigit high * 16 + fromHexDigit low) :: fromHex rest
  | _ => []

def sameHex (left right : JsString) : Bool :=
  isHexHash left && isHexHash right && fromHex left = fromHex right

def invalidPassphrase (message : String) : Except JsError α :=
  .error (.protocolError "invalid_passphrase" message)

section

variable (crypto : Crypto)

def hash (bytes : Bytes) : JsString := Ascii.units (Hex.encode (crypto.sha256 bytes))

def peekBytes (secret id : JsString) : Except JsError Bytes := do
  validateId id
  let master ← fromBase64Url secret (some 32) 32
  return crypto.hkdf master (encoderEncode (JsString.ofString "erase.to/v1/peek:" ++ id))
    (encoderEncode (JsString.ofString "erase.to/v1/peek")) 32

def derivePeek (secret id : JsString) : Except JsError JsString := do
  return toBase64Url (← peekBytes crypto secret id)

def passwordKey (header : Header) (passwordBytes : Bytes) : Except JsError Bytes := do
  if header.kdf = .argon2id then
    if passwordBytes.length = 0 then
      .error (.protocolError "wrong_passphrase" "Enter the separate passphrase.")
    let salt ← fromBase64Url header.salt (some 16) 16
    return crypto.pwhash 32 passwordBytes salt
  else
    return List.replicate 32 0

def contentKeys (secret : JsString) (header : Header) (passphrase : JsString)
    : Except JsError ContentKeys := do
  if passphrase.length > maxPassphraseBytes then invalidPassphrase "The passphrase is too long."
  let master ← fromBase64Url secret (some 32) 32
  let passwordBytes ← encodeText passphrase
  if passwordBytes.length > maxPassphraseBytes then
    invalidPassphrase "The passphrase exceeds 1024 UTF-8 bytes."
  let passwordKey ← passwordKey crypto header passwordBytes
  let material ← setPart (List.replicate 64 0) 0 master
  let material ← setPart material 32 passwordKey
  let salt := encoderEncode (JsString.ofString "erase.to/v1/content:" ++ header.id)
  return {
    key := crypto.hkdf material salt
      (encoderEncode (JsString.ofString "erase.to/v1/aead:" ++ header.kdf.toJs)) 32
    read := crypto.hkdf material salt
      (encoderEncode (JsString.ofString "erase.to/v1/read:" ++ header.kdf.toJs)) 32 }

def assemble (headerBytes ciphertext : Bytes) : Except JsError Bytes := do
  let packet := List.replicate (8 + headerBytes.length + ciphertext.length) 0
  let packet ← setPart packet 0 [69, 82, 83, 49]
  let packet ← setUint32 packet 4 headerBytes.length
  let packet ← setPart packet 8 headerBytes
  setPart packet (8 + headerBytes.length) ciphertext

def create (unicode : Unicode) (random : Randomness) (input : ContentInput)
    (options : CreateOptions) : Except JsError CreatedNote := do
  let (ttl, views) ← validatePolicy options.ttl options.views
  let passphrase := options.passphrase.getD []
  if passphrase.length > maxPassphraseBytes then invalidPassphrase "The passphrase is too long."
  let clear ← pack unicode random.padding input
  let secret := toBase64Url random.master
  let id := toBase64Url random.id
  let peek ← peekBytes crypto secret id
  let header : Header := {
    id, ttl, views
    peek := hash crypto peek
    read := []
    revoke := hash crypto random.revoke
    kdf := if passphrase ≠ [] then .argon2id else .none
    salt := if passphrase ≠ [] then toBase64Url random.salt else []
    nonce := toBase64Url random.nonce }
  let keys ← contentKeys crypto secret header passphrase
  let header := { header with read := hash crypto keys.read }
  let headerBytes := serializeHeader header
  let nonce ← fromBase64Url header.nonce (some 24) 24
  let ciphertext := crypto.encrypt clear headerBytes nonce keys.key
  let packet ← assemble headerBytes ciphertext
  if packet.length > maxPacketBytes then invalid
  return { packet, id, secret, revokeToken := toBase64Url random.revoke, header }

def prepareOpen (headerBase64 secret expectedId : JsString) (passphrase : JsString := [])
    : Except JsError PreparedOpen := do
  let headerBytes ← fromBase64Url headerBase64
  let header ← parseHeader headerBytes
  validateId expectedId
  if header.id ≠ expectedId then invalid "The package belongs to another link."
  let peek ← peekBytes crypto secret expectedId
  if ¬sameHex (hash crypto peek) header.peek then
    .error (.protocolError "invalid_link" "The key does not match this note.")
  let keys ← contentKeys crypto secret header passphrase
  if ¬sameHex (hash crypto keys.read) header.read then
    if header.kdf = .argon2id then
      .error (.protocolError "wrong_passphrase"
        "The passphrase does not match. The note has not been opened.")
    else
      .error (.protocolError "invalid_link" "The key does not match this note.")
  return { header, headerBytes, readToken := toBase64Url keys.read, key := keys.key }

def decryptionFailed : Except JsError α :=
  .error (.protocolError "decryption_failed" "The encrypted content could not be authenticated.")

def decrypt (unicode : Unicode) (packet : Bytes) (prepared : PreparedOpen)
    : Except JsError ContentInput := do
  let parsed ← parsePacket packet
  if prepared.key.length ≠ 32 ∨ parsed.headerBytes.length ≠ prepared.headerBytes.length
      ∨ parsed.headerBytes ≠ prepared.headerBytes then
    invalid "The package changed after preparation."
  let clear ←
    match fromBase64Url parsed.header.nonce (some 24) 24 with
    | .error _ => decryptionFailed
    | .ok nonce =>
      match crypto.decrypt parsed.ciphertext parsed.headerBytes nonce prepared.key with
      | some clear => .ok clear
      | none => decryptionFailed
  unpack unicode clear

end

end Shared
