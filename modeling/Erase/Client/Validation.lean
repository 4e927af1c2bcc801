import Erase.Cli.Receive
import Erase.Client.Request
import Erase.Shared.Proof

/-!
What each client checks in the replies to its calls.
-/

namespace Web

open Client

def Challenge.toShared (challenge : Challenge) : Shared.Challenge where
  challenge := challenge.challenge
  bits := .ofNat challenge.bits
  expiresAt := .ofNat challenge.expiresAt

def object : JsValue → Except RequestFailure (List (JsString × JsValue))
  | .object members => .ok members
  | _ => requestError "invalid_response"

theorem toNat_mem_range {low high : Nat} {n : Int} (h : (low : Int) ≤ n ∧ n ≤ (high : Int))
    : low ≤ n.toNat ∧ n.toNat ≤ high := by
  omega

def integer (value : Option JsValue) (low high : Nat)
    : Except RequestFailure {n : Nat // low ≤ n ∧ n ≤ high} :=
  match value with
  | some (.number value) =>
    match value.safeInteger? with
    | some n =>
      if h : (low : Int) ≤ n ∧ n ≤ (high : Int) then .ok ⟨n.toNat, toNat_mem_range h⟩
      else requestError "invalid_response"
    | none => requestError "invalid_response"
  | _ => requestError "invalid_response"

-- `unix`, whose upper bound is `Number.MAX_SAFE_INTEGER`.
def unix (value : Option JsValue) : Except RequestFailure Nat := do
  let n ← integer value 1 9007199254740991
  return n.1

def member (v : List (JsString × JsValue)) (name : String) : Option JsValue :=
  JsValue.member? v (JsString.ofString name)

-- `/^[A-Za-z0-9_-]{43}$/`
def isId (id : JsString) : Bool := id.length = 43 && id.all Shared.isBase64Url

namespace Api

def config (response : HttpResponse) : Except RequestFailure PublicConfig := do
  let v ← object (← request response)
  if JsValue.number? v (JsString.ofString "protocol") ≠ some (.ofNat 1) then requestError "unsupported_protocol"
  let maxContentBytes ← integer (member v "max_content_bytes") 1 Shared.maxContentBytes
  let maxTextBytes ← integer (member v "max_text_bytes") 1 Shared.maxTextBytes
  let maxFiles ← integer (member v "max_files") 1 Shared.maxFiles
  let maxViews ← integer (member v "max_views") 1 100
  let maxTtl ← integer (member v "max_ttl") 60 604800
  let powBits ← integer (member v "pow_bits") 1 24
  return {
    maxContentBytes := maxContentBytes
    maxTextBytes := maxTextBytes
    maxFiles := maxFiles
    maxViews := maxViews
    maxTtl := maxTtl
    powBits := powBits
    content := maxContentBytes.2
    text := maxTextBytes.2
    files := maxFiles.2
    views := maxViews.2
    ttl := maxTtl.2
    pow := powBits.2 }

def challenge (response : HttpResponse) : Except RequestFailure Challenge := do
  let v ← object (← request response)
  match JsValue.string? v (JsString.ofString "challenge") with
  | none => requestError "invalid_response"
  | some challenge =>
    if challenge.length < 16 ∨ challenge.length > 2048 then requestError "invalid_response"
    let bits ← integer (member v "bits") 1 24
    let expiresAt ← unix (member v "expires_at")
    return { challenge, bits, expiresAt }

def create (response : HttpResponse) : Except RequestFailure Receipt := do
  let v ← object (← request response)
  match JsValue.string? v (JsString.ofString "id") with
  | none => requestError "invalid_response"
  | some id =>
    if !isId id then requestError "invalid_response"
    let expiresAt ← unix (member v "expires_at")
    return { id, expiresAt }

def metadata (response : HttpResponse) : Except RequestFailure Metadata := do
  let v ← object (← request response)
  match JsValue.string? v (JsString.ofString "header") with
  | none => requestError "invalid_response"
  | some header =>
    if header.length > 2800 ∨ header = [] ∨ ¬header.all Shared.isBase64Url then requestError "invalid_response"
    let expiresAt ← unix (member v "expires_at")
    let remaining ← integer (member v "remaining") 1 100
    return { header, expiresAt, remaining }

end Api

end Web

namespace Cli

open Client

-- An identifier as it came: the pattern is tried on its text.
structure CreatedResponse where
  id : JsValue
  expiresAt : JsNumber

def isFalsy : JsValue → Bool
  | .null => true
  | .bool value => !value
  | .number value => value = .ofNat 0
  | .string value => value = []
  | _ => false

-- A property of a value that is not falsy. No other value has one of the names that are asked for.
def get (value : JsValue) (name : String) : Option JsValue :=
  match value with
  | .object members => JsValue.member? members (JsString.ofString name)
  | _ => none

def getNumber (value : JsValue) (name : String) : Option JsNumber :=
  match get value name with
  | some (.number n) => some n
  | _ => none

def getString (value : JsValue) (name : String) : Option JsString :=
  match get value name with
  | some (.string text) => some text
  | _ => none

-- `test` turns its argument into a text. That of an array with one element is the text of the element,
-- and no other value that is not a string has a text of 43 such characters.
def isIdText : JsValue → Bool
  | .string text => Web.isId text
  | .array [element] => isIdText element
  | _ => false

def isSafeInteger (value : JsNumber) : Bool := value.safeInteger?.isSome

-- The methods of the class `Client`.
namespace Api

def challenge (response : HttpResponse) : Except RequestFailure Shared.Challenge := do
  let result ← request response
  if isFalsy result then .error (.error "Invalid challenge response.")
  match getString result "challenge", getNumber result "bits", getNumber result "expires_at" with
  | some challenge, some bits, some expiresAt =>
    if !bits.isInteger || bits.lessThan 1 || bits.greaterThan 24 || !isSafeInteger expiresAt then
      .error (.error "Invalid challenge response.")
    return { challenge, bits, expiresAt }
  | _, _, _ => .error (.error "Invalid challenge response.")

def create (response : HttpResponse) : Except RequestFailure CreatedResponse := do
  let result ← request response
  if isFalsy result then .error (.error "Invalid creation response.")
  match get result "id", getNumber result "expires_at" with
  | some id, some expiresAt =>
    if !isIdText id || !isSafeInteger expiresAt then .error (.error "Invalid creation response.")
    return { id, expiresAt }
  | _, _ => .error (.error "Invalid creation response.")

def metadata (response : HttpResponse) : Except RequestFailure Metadata := do
  let result ← request response
  if isFalsy result then .error (.error "Invalid metadata response.")
  match getString result "header", getNumber result "expires_at", getNumber result "remaining" with
  | some header, some expiresAt, some remaining =>
    if header.length > 2800 || !isSafeInteger expiresAt || !remaining.isInteger || remaining.lessThan 1
        || remaining.greaterThan 100 then
      .error (.error "Invalid metadata response.")
    return { header, expiresAt, remaining }
  | _, _, _ => .error (.error "Invalid metadata response.")

end Api

end Cli
