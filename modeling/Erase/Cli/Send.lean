import Erase.Cli.ReadFile
import Erase.Client.Answers
import Erase.Client.Outgoing
import Erase.Library.Logged
import Erase.Library.PrettyJson

/-!
The `send` and `revoke` branches of `main`, with all that they ask of a server.
-/

open Client

namespace Cli

inductive CommandFailure where
  | cli (error : CliError)
  | shared (error : Shared.JsError)
  | read (error : ReadFailure)
  | request (error : RequestFailure)
  | syntaxError

-- A call of an API, at the origin that it goes to.
structure Sent where
  origin : JsString
  call : Invocation

-- A part of a command, with what it has sent.
abbrev Dialogue (α : Type) := Logged Sent CommandFailure α

namespace Dialogue

def fail (message : String) : Except CommandFailure α := .error (.cli (.error message))

def ofCli (result : Except CliError α) : Except CommandFailure α := result.mapError .cli

def ofShared (result : Except Shared.JsError α) : Except CommandFailure α := result.mapError .shared

def ofRequest (result : Except RequestFailure α) : Except CommandFailure α := result.mapError .request

-- A call goes out once its parts have been checked.
def call (origin : JsString) (call : Invocation) (answer : Except RequestFailure α) : Dialogue α := do
  let _ ← ofRequest (Api.send origin call)
  Logged.note ⟨origin, call⟩ (ofRequest answer)

end Dialogue

open Dialogue

def defaultServer : JsString := JsString.ofString "https://erase.to"

-- `StringNumericLiteral` without its signs and white space, for a radix that its prefix names.
def radixDigits (radix : Nat) (codes : List Nat) : Option JsNumber :=
  let digits := codes.map fun code => (Json.hexDigit? code).filter (· < radix)
  if digits = [] ∨ none ∈ digits then none
  else
    match Binary64.round ((digits.reduceOption.foldl (fun value digit => radix * value + digit) 0 : Nat) : ℚ)
    with
    | some value => some (.finite value)
    | none => some (.infinite false)

def decimalNumber (negative : Bool) (codes : List Nat) : Option JsNumber :=
  if codes = (JsString.ofString "Infinity").map UInt16.toNat then
    some (.infinite negative)
  else
    let integer := codes.takeWhile Decimal.isDigit
    let rest := codes.dropWhile Decimal.isDigit
    let fraction := if rest.head? = some 46 then rest.tail.takeWhile Decimal.isDigit else []
    let rest := if rest.head? = some 46 then rest.tail.dropWhile Decimal.isDigit else rest
    match Json.exponent? rest with
    | some (exponent, []) =>
      if integer = [] ∧ fraction = [] then none
      else some (JsNumber.ofLiteral ⟨negative, integer, some fraction, exponent⟩)
    | _ => none

-- `Number(text)`, with `none` for NaN.
def number (text : JsString) : Option JsNumber :=
  match (trim text).map UInt16.toNat with
  | [] => some (.ofNat 0)
  | 48 :: mark :: codes =>
    if mark = 120 ∨ mark = 88 then radixDigits 16 codes
    else if mark = 111 ∨ mark = 79 then radixDigits 8 codes
    else if mark = 98 ∨ mark = 66 then radixDigits 2 codes
    else decimalNumber false (48 :: mark :: codes)
  | 45 :: codes => decimalNumber true codes
  | 43 :: codes => decimalNumber false codes
  | codes => decimalNumber false codes

-- A file that `--file` names, as `stat` and `open` find it.
structure InputFile where
  basename : JsString
  isFile : Bool
  size : Nat
  handle : Except CliError FileHandle

structure SelectedFile where
  size : Nat
  name : JsString
  handle : Except CliError FileHandle

-- What one call of `send` meets: its options, its input and the replies to its requests.
structure SendSurroundings where
  server : Option JsString
  files : List (Except CliError InputFile)
  -- Whether standard input is a terminal.
  isTTY : Bool
  stdin : Bytes
  ttl : JsString
  views : JsString
  passphraseFile : Option Bytes
  random : Shared.Randomness
  challenge : Except RequestFailure HttpResponse
  pauses : Shared.Pauses
  created : Except RequestFailure HttpResponse

-- `makeShareLink` of an origin that the platform parses.
def makeShareLink (parseUrl : JsString → Option Location) (origin id secret : JsString)
    : Except CommandFailure JsString := do
  let url ← ofCli ((parseUrl origin).elim (.error .typeError) .ok)
  if !(url.protocol = JsString.ofString "https:" || url.protocol = JsString.ofString "http:")
      || url.username ≠ [] || url.password ≠ [] || url.origin ≠ origin then
    ofShared (Shared.invalid "Invalid service origin.")
  ofShared (Shared.validateId id)
  let _ ← ofShared (Shared.fromBase64Url secret (some 32) 32)
  return url.origin ++ (JsString.ofString "/view" ++ Shared.shareHash id secret)

section

variable (crypto : Crypto) (unicode : Shared.Unicode) (parseUrl : JsString → Option Location)

def selectFiles (total : Nat) : List (Except CliError InputFile) → Except CommandFailure (List SelectedFile)
  | [] => .ok []
  | file :: files => do
    let info ← ofCli file
    let total := total + info.size
    if !info.isFile || total > Shared.maxContentBytes then fail "Input exceeds the content limit."
    let name ← ofShared (Shared.normalizeFilename unicode info.basename)
    return ⟨info.size, name, info.handle⟩ :: (← selectFiles total files)

-- A file of the size it had needs no more than these reads.
def readFile (file : SelectedFile) : Except CommandFailure Shared.FileInput := do
  let handle ← ofCli file.handle
  match handle.readBoundedFile file.size (file.size + 2) with
  | none => .error (.read .rangeError)
  | some reading =>
    let data ← reading.result.mapError .read
    if data.length ≠ file.size then fail "A file changed while being read."
    return { name := file.name, mime := JsString.ofString "application/octet-stream", data }

def readText (surroundings : SendSurroundings) : Except CommandFailure JsString :=
  if surroundings.files ≠ [] ∧ surroundings.isTTY then .ok []
  else ofCli (stdin surroundings.stdin Shared.maxTextBytes)

def readInput (surroundings : SendSurroundings) : Except CommandFailure Shared.ContentInput := do
  if surroundings.files.length > Shared.maxFiles then fail "At most eight files are supported."
  let text ← readText surroundings
  let files ← selectFiles unicode (Shared.encoderEncode text).length surroundings.files
  return { text, files := ← files.mapM readFile }

-- `NaN` is no lifetime and no count, which is the first thing that `create` looks at.
def createNote (surroundings : SendSurroundings) (input : Shared.ContentInput)
    : Except CommandFailure Shared.CreatedNote := do
  let passphrase ← ofCli (passphrase surroundings.passphraseFile)
  match number surroundings.ttl, number surroundings.views with
  | some ttl, some views =>
    ofShared (Shared.create crypto unicode surroundings.random input ⟨ttl, views, some passphrase⟩)
  | _, _ => ofShared Shared.invalidPolicy

def receipt (url : JsString) (expiresAt : Int) (id revokeToken : JsString) : JsValue.Tree :=
  .object [
    (JsString.ofString "url", .string url),
    (JsString.ofString "expires_at", .integer expiresAt),
    (JsString.ofString "revoke", .object [
      (JsString.ofString "id", .string id),
      (JsString.ofString "token", .string revokeToken)])]

def isText (text : JsString) : JsValue → Bool
  | .string value => value = text
  | _ => false

-- The last part of `send`: what it prints.
def printReceipt (origin : JsString) (note : Shared.CreatedNote) (created : CreatedResponse)
    : Except CommandFailure JsString := do
  if !isText note.id created.id then fail "Server returned a different identifier."
  let url ← makeShareLink parseUrl origin note.id note.secret
  -- The client has checked that the number is a safe integer.
  let expiresAt := created.expiresAt.safeInteger?.getD 0
  return (receipt url expiresAt note.id note.revokeToken).pretty 0 ++ [10]

-- The `send` branch of `main`.
def send (surroundings : SendSurroundings) : Dialogue JsString := do
  let origin ← ofCli (serverOrigin parseUrl (surroundings.server.getD defaultServer))
  let input ← readInput unicode surroundings
  let note ← createNote crypto unicode surroundings input
  let challenge ← call origin .challenge (surroundings.challenge >>= Api.challenge)
  let nonce ← ofShared (Shared.solveProof crypto note.packet challenge surroundings.pauses).result
  let created ← call origin (.create note.packet challenge.challenge nonce)
    (surroundings.created >>= Api.create)
  printReceipt parseUrl origin note created

-- What one call of `revoke` meets.
structure RevokeSurroundings where
  server : Option JsString
  stdin : Bytes
  response : Except RequestFailure TypedResponse

def isObject : JsValue → Bool
  | .array _ => true
  | .object _ => true
  | _ => false

-- `record.revoke ?? record`
def revocationOf (record : JsValue) : JsValue :=
  match get record "revoke" with
  | none => record
  | some .null => record
  | some value => value

def revokeServer (server : Option JsString) (record : JsValue) : Except CliError JsString :=
  match server with
  | some server => .ok server
  | none =>
    match getString record "url" with
    | none => .ok defaultServer
    | some url => (parseUrl url).elim (.error .typeError) fun url => .ok url.origin

-- The `revoke` branch of `main`.
def revoke (surroundings : RevokeSurroundings) : Dialogue Unit := do
  let text ← ofCli (stdin surroundings.stdin 8192)
  match JsValue.parse? text with
  | none => (.error .syntaxError : Except CommandFailure Unit)
  | some record =>
    if !isObject record then fail "Invalid revocation receipt."
    match getString (revocationOf record) "id", getString (revocationOf record) "token" with
    | some id, some token =>
      let server ← ofCli (revokeServer parseUrl surroundings.server record)
      let origin ← ofCli (serverOrigin parseUrl server)
      call origin (.access .deleteNote id token) (surroundings.response >>= Api.revoke)
    | _, _ => (fail "Invalid revocation capability." : Except CommandFailure Unit)

end

-- What the reads of one file have found: all of it, and as long as it was said to be.
structure ReadWhole (unicode : Shared.Unicode) (file : Except CliError InputFile)
    (input : Shared.FileInput) : Prop where
  reads : ∃ info handle reading, file = .ok info ∧ info.isFile = true
    ∧ Shared.normalizeFilename unicode info.basename = .ok input.name
    ∧ info.handle = .ok handle ∧ FileHandle.Reads handle info.size [] reading
    ∧ input.data = received reading.transfers ∧ input.data.length = info.size

-- The input that a call of `send` takes up.
structure Gathered (unicode : Shared.Unicode) (surroundings : SendSurroundings)
    (input : Shared.ContentInput) : Prop where
  count : surroundings.files.length ≤ 8
  text : surroundings.files ≠ [] ∧ surroundings.isTTY = true ∧ input.text = []
    ∨ stdin surroundings.stdin Shared.maxTextBytes = .ok input.text
  files : List.Forall₂ (ReadWhole unicode) surroundings.files input.files
  size : (Shared.encoderEncode input.text).length + (input.files.map fun file => file.data.length).sum
    ≤ Shared.maxContentBytes

section

variable {crypto : Crypto} {unicode : Shared.Unicode} {parseUrl : JsString → Option Location}
variable {surroundings : SendSurroundings} {α : Type}

@[simp]
theorem ofCli_eq_ok {result : Except CliError α} {a : α} : ofCli result = .ok a ↔ result = .ok a := by
  cases result with
  | error error => simp [ofCli, Except.mapError]
  | ok b => simp [ofCli, Except.mapError]

@[simp]
theorem ofShared_eq_ok {result : Except Shared.JsError α} {a : α}
    : ofShared result = .ok a ↔ result = .ok a := by
  cases result with
  | error error => simp [ofShared, Except.mapError]
  | ok b => simp [ofShared, Except.mapError]

@[simp]
theorem ofRequest_eq_ok {result : Except RequestFailure α} {a : α}
    : ofRequest result = .ok a ↔ result = .ok a := by
  cases result with
  | error error => simp [ofRequest, Except.mapError]
  | ok b => simp [ofRequest, Except.mapError]

theorem selectFiles_eq_ok {total : Nat} {files : List (Except CliError InputFile)}
    {selected : List SelectedFile} (h : selectFiles unicode total files = .ok selected)
    : List.Forall₂ (fun file (chosen : SelectedFile) => ∃ info, file = .ok info ∧ info.isFile = true
          ∧ Shared.normalizeFilename unicode info.basename = .ok chosen.name
          ∧ chosen.size = info.size ∧ chosen.handle = info.handle) files selected
        ∧ (total ≤ Shared.maxContentBytes
          → total + (selected.map SelectedFile.size).sum ≤ Shared.maxContentBytes) := by
  induction files generalizing total selected with
  | nil =>
    cases h
    exact ⟨.nil, id⟩
  | cons file files ih =>
    unfold selectFiles at h
    simp only [fail, Except.bind_eq_ok, Except.guard_eq_ok, ofCli_eq_ok, ofShared_eq_ok,
      Bool.or_eq_true, Bool.not_eq_true', decide_eq_true_eq, not_or, Bool.not_eq_false,
      Nat.not_lt] at h
    rcases h with ⟨info, rfl, ⟨hfile, htotal⟩, name, hname, rest, hrest, hselected⟩
    cases hselected
    rcases ih hrest with ⟨hall, hsum⟩
    refine ⟨.cons ⟨info, rfl, hfile, hname, rfl, rfl⟩ hall, fun _ => ?_⟩
    have hsum := hsum htotal
    rw [List.map_cons, List.sum_cons]
    dsimp only
    omega

theorem readFile_eq_ok {file : SelectedFile} {input : Shared.FileInput} (h : readFile file = .ok input)
    : input.name = file.name ∧ input.data.length = file.size
        ∧ ∃ handle reading, file.handle = .ok handle ∧ FileHandle.Reads handle file.size [] reading
          ∧ input.data = received reading.transfers := by
  unfold readFile at h
  rw [Except.bind_eq_ok] at h
  rcases h with ⟨handle, hhandle, h⟩
  rw [ofCli_eq_ok] at hhandle
  cases hread : handle.readBoundedFile file.size (file.size + 2) with
  | none =>
    rw [hread] at h
    cases h
  | some reading =>
    rw [hread] at h
    simp only [fail, Except.bind_eq_ok, Except.guard_eq_ok, not_not] at h
    rcases h with ⟨data, hdata, hlength, hinput⟩
    cases hinput
    have hresult : reading.result = .ok data := by
      cases hresult : reading.result with
      | error error =>
        rw [hresult] at hdata
        cases hdata
      | ok bytes =>
        rw [hresult] at hdata
        cases hdata
        rfl
    rcases FileHandle.exists_reads handle [] (Nat.zero_le file.size) with ⟨other, hreads, hfuel⟩
    unfold FileHandle.readBoundedFile at hread
    split at hread
    . cases hread
      cases hresult
    . have hother := hfuel (file.size + 2) (by simp)
      rw [List.flatten_nil, List.length_nil, hread, Option.some.injEq] at hother
      subst hother
      have hexact := hreads.exact (by simp)
      refine ⟨rfl, hlength, handle, reading, hhandle, hreads, ?_⟩
      by_cases hfits : (([] : List Bytes).flatten ++ received reading.transfers).length ≤ file.size
      . have hreturned := (hexact.returns hfits).1
        rw [hresult] at hreturned
        exact Except.ok.inj hreturned
      . have hthrown := hexact.throws (by omega)
        rw [hresult] at hthrown
        cases hthrown

theorem stdin_length {bytes : Bytes} {limit : Nat} {text : JsString} (h : stdin bytes limit = .ok text)
    : (Shared.encoderEncode text).length ≤ limit := by
  unfold stdin at h
  rw [Except.guard_eq_ok] at h
  rcases h with ⟨hlimit, h⟩
  unfold decodeFatal at h
  split at h
  . next chars hdecode =>
    cases h
    rw [Shared.encoderEncode, JsString.scalars_ofChars, Utf8.encode_of_decode?_eq_some hdecode]
    omega
  . cases h

theorem readInput_eq_ok {input : Shared.ContentInput} (h : readInput unicode surroundings = .ok input)
    : Gathered unicode surroundings input := by
  have hlimits : Shared.maxTextBytes ≤ Shared.maxContentBytes := by decide
  unfold readInput at h
  simp only [fail, Except.guard_eq_ok, Except.bind_eq_ok, Nat.not_lt] at h
  rcases h with ⟨hcount, text, htext, selected, hselected, files, hfiles, hinput⟩
  cases hinput
  have htext : surroundings.files ≠ [] ∧ surroundings.isTTY = true ∧ text = []
      ∨ stdin surroundings.stdin Shared.maxTextBytes = .ok text := by
    unfold readText at htext
    split at htext
    . next hterminal =>
      cases htext
      exact .inl ⟨hterminal.1, hterminal.2, rfl⟩
    . exact .inr (ofCli_eq_ok.mp htext)
  have hbytes : (Shared.encoderEncode text).length ≤ Shared.maxContentBytes := by
    rcases htext with ⟨-, -, rfl⟩ | htext
    . exact Nat.zero_le _
    . exact (stdin_length htext).trans hlimits
  rcases selectFiles_eq_ok hselected with ⟨hchosen, hsum⟩
  have hread := Except.mapM_eq_ok.mp hfiles
  have hsizes : files.map (fun file => file.data.length) = selected.map SelectedFile.size := by
    clear hchosen hsum hselected hfiles
    induction hread with
    | nil => rfl
    | cons hfile _ ih => rw [List.map_cons, List.map_cons, ih, (readFile_eq_ok hfile).2.1]
  refine ⟨hcount, htext, ?_, ?_⟩
  . clear hsizes hsum hselected hfiles htext
    generalize surroundings.files = given at hchosen
    induction hchosen generalizing files with
    | nil =>
      cases hread
      exact .nil
    | cons hfile _ ih =>
      rcases List.forall₂_cons_left_iff.mp hread with ⟨first, rest, hfirst, hrest, rfl⟩
      rcases hfile with ⟨info, rfl, hisFile, hname, hsize, hhandle⟩
      rcases readFile_eq_ok hfirst with ⟨hsame, hlength, handle, reading, hopened, hreads, hdata⟩
      refine .cons ⟨info, handle, reading, rfl, hisFile, ?_, ?_, ?_, hdata, ?_⟩ (ih rest hrest)
      . rw [hname, hsame]
      . rw [← hhandle, hopened]
      . rw [← hsize]
        exact hreads
      . rw [← hsize, hlength]
  . rw [hsizes]
    exact hsum hbytes

end

theorem trim_digits {codes : List Nat} (h : ∀ code ∈ codes, Decimal.isDigit code = true)
    : trim (Ascii.units codes) = Ascii.units codes := by
  have hnone : ∀ unit ∈ Ascii.units codes, Web.Composer.isWhitespace unit = false := by
    intro unit hunit
    rw [Ascii.units, List.mem_map] at hunit
    rcases hunit with ⟨code, hcode, rfl⟩
    have hdigit := h code hcode
    simp only [Decimal.isDigit, Bool.and_eq_true, decide_eq_true_eq] at hdigit
    have hnat : (UInt16.ofNat code).toNat = code := by
      rw [UInt16.toNat_ofNat']
      omega
    simp only [Web.Composer.isWhitespace, hnat, Bool.or_eq_false_iff, Bool.and_eq_false_iff,
      decide_eq_false_iff_not]
    omega
  have hdrop : ∀ text : JsString, (∀ unit ∈ text, Web.Composer.isWhitespace unit = false)
      → text.dropWhile Web.Composer.isWhitespace = text := by
    intro text htext
    cases text with
    | nil => rfl
    | cons unit text => exact List.dropWhile_cons_of_neg (by simp [htext unit List.mem_cons_self])
  have hreverse : ∀ unit ∈ (Ascii.units codes).reverse, Web.Composer.isWhitespace unit = false :=
    fun unit hunit => hnone unit (List.mem_reverse.mp hunit)
  rw [trim, hdrop _ hnone, hdrop _ hreverse, List.reverse_reverse]

theorem decimalNumber_codes {n : Nat} (h : n < 2 ^ 53)
    : decimalNumber false (Decimal.codes n) = some (.ofNat n) := by
  have hall : ∀ code ∈ Decimal.codes n, Decimal.isDigit code = true :=
    fun code hcode => Decimal.isDigit_of_mem_codes hcode
  have hname : Decimal.codes n ≠ (JsString.ofString "Infinity").map UInt16.toNat := by
    intro hname
    have hmem := hall 73 (by rw [hname]; decide)
    cases hmem
  have htake : (Decimal.codes n).takeWhile Decimal.isDigit = Decimal.codes n := by
    rw [List.takeWhile_eq_self_iff]
    exact hall
  have hdrop : (Decimal.codes n).dropWhile Decimal.isDigit = [] := by
    rw [List.dropWhile_eq_nil_iff]
    exact hall
  have hliteral : JsNumber.ofLiteral ⟨false, Decimal.codes n, some [], none⟩ = .ofNat n := by
    unfold JsNumber.ofLiteral
    simp [Binary64.round_natCast h, JsNumber.ofNat]
  unfold decimalNumber
  rw [if_neg hname]
  simp only [htake, hdrop, List.head?_nil, reduceCtorEq, if_false, Json.exponent?, Decimal.codes_ne_nil,
    false_and, hliteral]

-- The decimal digits of a number stand for it.
theorem number_codes {n : Nat} (h : n < 2 ^ 53)
    : number (Ascii.units (Decimal.codes n)) = some (.ofNat n) := by
  have hall : ∀ code ∈ Decimal.codes n, Decimal.isDigit code = true :=
    fun code hcode => Decimal.isDigit_of_mem_codes hcode
  unfold number
  rw [trim_digits hall, Ascii.map_toNat_units (Decimal.isAscii_codes n)]
  split
  . next hnil => exact absurd hnil (Decimal.codes_ne_nil n)
  . next mark codes hcodes =>
    by_cases hzero : n = 0
    . subst hzero
      rw [Decimal.codes_of_lt_ten (by decide)] at hcodes
      cases hcodes
    . rcases Decimal.head?_codes hzero with ⟨code, rest, hhead, hne⟩
      rw [hhead] at hcodes
      cases hcodes
      exact absurd rfl hne
  . next codes hcodes =>
    have hminus := hall 45 (by rw [hcodes]; exact List.mem_cons_self)
    cases hminus
  . next codes hcodes =>
    have hplus := hall 43 (by rw [hcodes]; exact List.mem_cons_self)
    cases hplus
  . exact decimalNumber_codes h

end Cli
