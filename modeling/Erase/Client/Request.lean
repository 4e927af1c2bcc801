import Erase.Client.Transport
import Erase.Library.SerdeJson

/-!
The replies that are no packets: how both clients read them.
-/

namespace Client

structure HttpResponse extends Response where
  status : Nat

def HttpResponse.ok (response : HttpResponse) : Bool := 200 ≤ response.status && response.status ≤ 299

-- What a call of either client throws. A `RequestError` and a `ProtocolError` have a code.
inductive RequestFailure where
  | read (error : ReadError)
  | code (code : JsString)
  | error (message : String)
  | syntaxError
  deriving DecidableEq, Repr

def jsonLimit : SafeInteger := ⟨8192, by decide⟩

-- `new TextDecoder('utf-8', { fatal: true })` drops a leading byte order mark.
def decode? (bytes : Bytes) : Option JsString :=
  (Utf8.decode? (if bytes.take 3 = [239, 187, 191] then bytes.drop 3 else bytes)).map JsString.ofChars

def parseJson? (bytes : Bytes) : Option JsValue := (decode? bytes).bind JsValue.parse?

def errorCode? : JsValue → Option JsString
  | .object members => JsValue.string? members (JsString.ofString "error")
  | _ => none

end Client

namespace Web

open Client

def requestError (code : String) : Except RequestFailure α := .error (.code (JsString.ofString code))

-- `request`, once `fetch` has its response, for a reply that is no packet.
def request (response : HttpResponse) : Except RequestFailure JsValue := do
  if response.status = 204 ∧ response.ok then return .null
  let bytes ← (readBounded response.toResponse jsonLimit).result.mapError .read
  match parseJson? bytes with
  | none => requestError "invalid_response"
  | some value =>
    if !response.ok then
      .error (.code ((errorCode? value).getD (JsString.ofString "request_failed")))
    return value

end Web

namespace Cli

open Client

-- `/^[a-z_]{1,40}$/`
def isErrorCode (code : JsString) : Bool :=
  1 ≤ code.length && code.length ≤ 40
    && code.all fun unit => (97 ≤ unit.toNat && unit.toNat ≤ 122) || unit = 95

def refusal (body : Bytes) : JsString :=
  (((parseJson? body).bind errorCode?).filter isErrorCode).getD (JsString.ofString "request_failed")

-- `Client.request`, likewise.
def Api.request (response : HttpResponse) : Except RequestFailure JsValue := do
  if response.status = 204 ∧ response.ok then return .null
  let body ← (bytes response.toResponse jsonLimit).result.mapError .read
  if !response.ok then .error (.code (refusal body))
  match parseJson? body with
  | none => .error .syntaxError
  | some value => return value

end Cli

namespace Client

-- A success whose body the network hands on, in whichever chunks, behind the length it has.
structure Delivers (body : Bytes) (response : HttpResponse) : Prop where
  ok : response.ok = true
  content : response.status ≠ 204
  stream : ∃ stream, response.body = some stream ∧ stream.broken = false ∧ stream.content = body
  length : ∀ header, lengthHeader response.toResponse = some header
    → header = Ascii.units (Decimal.codes body.length)

section

variable {body : Bytes} {response : HttpResponse}

theorem isDigits_units (n : Nat) : isDigits (Ascii.units (Decimal.codes n)) = true := by
  have hdigits : ∀ code ∈ Decimal.codes n, Decimal.isDigit code = true :=
    fun code hcode => Decimal.isDigit_of_mem_codes hcode
  have hne : Ascii.units (Decimal.codes n) ≠ [] := by
    intro hnil
    apply Decimal.codes_ne_nil n
    rw [← List.length_eq_zero_iff, ← Ascii.length_units, hnil]
    rfl
  rw [← Ascii.map_toNat_units (Decimal.isAscii_codes n)] at hdigits
  simp only [isDigits, Bool.and_eq_true, decide_eq_true_eq, List.all_eq_true]
  refine ⟨hne, fun unit hunit => ?_⟩
  apply hdigits
  exact List.mem_map_of_mem hunit

theorem declared_units (n : Nat) : declared (Ascii.units (Decimal.codes n)) = n := by
  rw [declared, Ascii.map_toNat_units (Decimal.isAscii_codes n), Decimal.value_codes]

theorem readBounded_eq_ok {response : Response} {stream : Stream} {limit : SafeInteger}
    (hbody : response.body = some stream)
    (hfits : Fits limit (((lengthHeader response).filter isDigits).map declared) stream)
    : (Web.readBounded response limit).result = .ok stream.content := by
  unfold Web.readBounded
  rw [hbody]
  dsimp only
  rw [close, readBody_accepted fun length hlength => (hfits.declared length hlength).1]
  exact collect_eq_ok hfits

theorem bytes_eq_ok {response : Response} {stream : Stream} {limit : SafeInteger}
    (hbody : response.body = some stream)
    (hdigits : ∀ header, lengthHeader response = some header → isDigits header = true)
    (hfits : Fits limit ((lengthHeader response).map declared) stream)
    : (Cli.bytes response limit).result = .ok stream.content := by
  have hpassed : ¬((lengthHeader response).any fun header => !isDigits header) = true := by
    intro hany
    simp only [Option.any_eq_true, Bool.not_eq_true'] at hany
    rcases hany with ⟨header, hheader, hnot⟩
    rw [hdigits header hheader] at hnot
    cases hnot
  unfold Cli.bytes
  rw [hbody]
  dsimp only
  rw [close, if_neg hpassed, readBody_accepted fun length hlength => (hfits.declared length hlength).1]
  exact collect_eq_ok hfits

-- Both readers take a whole body that comes behind its own length, or behind none.
theorem readers_eq_ok {response : Response} {stream : Stream} {limit : SafeInteger}
    (hbody : response.body = some stream) (hends : stream.broken = false)
    (hlimit : stream.content.length ≤ limit)
    (hlength : ∀ header, lengthHeader response = some header
      → header = Ascii.units (Decimal.codes stream.content.length))
    : (Web.readBounded response limit).result = .ok stream.content
        ∧ (Cli.bytes response limit).result = .ok stream.content := by
  have hdigits : ∀ header, lengthHeader response = some header → isDigits header = true := by
    intro header hheader
    rw [hlength header hheader]
    apply isDigits_units
  have hfilter : (lengthHeader response).filter isDigits = lengthHeader response := by
    cases hheader : lengthHeader response with
    | none => rfl
    | some header => simp [hdigits header hheader]
  have hfits : Fits limit ((lengthHeader response).map declared) stream := {
    ends := hends
    within := hlimit
    declared := by
      intro length hdeclared
      rcases Option.map_eq_some_iff.mp hdeclared with ⟨header, hheader, rfl⟩
      rw [hlength header hheader, declared_units]
      exact ⟨hlimit, rfl⟩ }
  refine ⟨readBounded_eq_ok hbody ?_, bytes_eq_ok hbody hdigits hfits⟩
  rwa [hfilter]

theorem Delivers.reads (h : Delivers body response) (hlimit : body.length ≤ 8192)
    : (Web.readBounded response.toResponse jsonLimit).result = .ok body
        ∧ (Cli.bytes response.toResponse jsonLimit).result = .ok body := by
  rcases h.stream with ⟨stream, hbody, hends, rfl⟩
  exact readers_eq_ok hbody hends hlimit h.length

end

end Client
