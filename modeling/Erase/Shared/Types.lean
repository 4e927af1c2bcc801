import Erase.Library.EcmaScript

namespace Shared

def maxContentBytes : Nat := 64 * 1024 * 1024
def maxTextBytes : Nat := 8 * 1024 * 1024
def maxFiles : Nat := 8
def maxFilenameBytes : Nat := 255
def maxMimeBytes : Nat := 127
def maxPassphraseBytes : Nat := 1024
def maxHeaderBytes : Nat := 2048
def maxPacketBytes : Nat := maxContentBytes + 32768
def paddingBytes : Nat := 4096

structure FileInput where
  name : JsString
  mime : JsString
  data : Bytes
  deriving DecidableEq

structure ContentInput where
  text : JsString
  files : List FileInput
  deriving DecidableEq

structure CreateOptions where
  ttl : JsNumber
  views : JsNumber
  passphrase : Option JsString

inductive Kdf where
  | none
  | argon2id
  deriving DecidableEq, Repr

def Kdf.toJs : Kdf → JsString
  | .none => JsString.ofString "none"
  | .argon2id => JsString.ofString "argon2id"

structure Header where
  id : JsString
  ttl : Nat
  views : Nat
  peek : JsString
  read : JsString
  revoke : JsString
  kdf : Kdf
  salt : JsString
  nonce : JsString
  deriving DecidableEq

structure ParsedPacket where
  header : Header
  headerBytes : Bytes
  ciphertext : Bytes
  deriving DecidableEq

structure CreatedNote where
  packet : Bytes
  id : JsString
  secret : JsString
  revokeToken : JsString
  header : Header

structure PreparedOpen where
  header : Header
  headerBytes : Bytes
  readToken : JsString
  key : Bytes

inductive JsError where
  | protocolError (code message : String)
  | rangeError
  deriving DecidableEq, Repr

end Shared
