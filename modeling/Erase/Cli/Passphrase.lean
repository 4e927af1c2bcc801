import Erase.Shared.Encoding

namespace Cli

inductive CliError where
  | error (message : String)
  | typeError
  deriving DecidableEq, Repr

-- A regular file that does not change while it is read.
def readBoundedFile (file : Bytes) (limit : Nat) : Except CliError Bytes := do
  if file.length > limit then
    .error (.error "File exceeds the limit or is not a regular file.")
  return file

-- Without one line break at the end.
def chomp (text : JsString) : JsString :=
  if text.getLast? ≠ some 10 then text
  else if text.dropLast.getLast? = some 13 then text.dropLast.dropLast
  else text.dropLast

def decodeFatal (bytes : Bytes) : Except CliError JsString :=
  match Utf8.decode? bytes with
  | some text => .ok (JsString.ofChars text)
  | none => .error .typeError

-- The content of the file that `--passphrase-file` names, if it is given.
def passphrase (file : Option Bytes) : Except CliError JsString := do
  match file with
  | none => return []
  | some file =>
    if file.length > Shared.maxPassphraseBytes + 2 then
      .error (.error "Invalid passphrase file.")
    let bytes ← readBoundedFile file (Shared.maxPassphraseBytes + 2)
    if bytes.length > Shared.maxPassphraseBytes + 2 then
      .error (.error "Passphrase file exceeds the limit.")
    let value := chomp (← decodeFatal bytes)
    if value = [] ∨ (Shared.encoderEncode value).length > Shared.maxPassphraseBytes then
      .error (.error "Passphrase must contain 1–1024 UTF-8 bytes.")
    return value

end Cli
