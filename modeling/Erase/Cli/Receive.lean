import Erase.Cli.Passphrase
import Erase.Shared.Index
import Erase.Shared.ShareLink
import Erase.Web.Composer

namespace Cli

-- A parsed URL, with the components that only the command line reads.
structure Location extends Shared.Url where
  hostname : JsString
  origin : JsString

structure Metadata where
  header : JsString
  expiresAt : JsNumber
  remaining : JsNumber

inductive Request where
  | metadata (id token : JsString)
  | openNote (id token : JsString)
  deriving DecidableEq

inductive Failure where
  | cli (error : CliError)
  | shared (error : Shared.JsError)
  deriving DecidableEq

-- A computation with the requests that it has sent, whether or not it fails in the end.
structure Exchange (α : Type) where
  requests : List Request
  result : Except Failure α

namespace Exchange

variable {α β : Type}

def fail (message : String) : Exchange α := ⟨[], .error (.cli (.error message))⟩

def ofCli (result : Except CliError α) : Exchange α := ⟨[], result.mapError .cli⟩

def ofShared (result : Except Shared.JsError α) : Exchange α := ⟨[], result.mapError .shared⟩

protected def bind (x : Exchange α) (f : α → Exchange β) : Exchange β :=
  match x.result with
  | .error error => ⟨x.requests, .error error⟩
  | .ok a => ⟨x.requests ++ (f a).requests, (f a).result⟩

instance : Monad Exchange where
  pure a := ⟨[], .ok a⟩
  bind := Exchange.bind

theorem mem_requests_bind {x : Exchange α} {f : α → Exchange β} {request : Request}
    : request ∈ (x >>= f).requests
        ↔ request ∈ x.requests ∨ ∃ a, x.result = .ok a ∧ request ∈ (f a).requests := by
  change request ∈ (x.bind f).requests ↔ _
  unfold Exchange.bind
  cases x.result with
  | error error => simp
  | ok a => simp

theorem mem_requests_guard {c : Prop} [Decidable c] {message : String} {f : α → Exchange β}
    {x : Exchange β} {request : Request}
    : request ∈ (if c then fail message >>= f else x).requests ↔ ¬c ∧ request ∈ x.requests := by
  split
  . next h => simp [mem_requests_bind, fail, h]
  . next h => simp [h]

@[simp]
theorem requests_ofCli (result : Except CliError α) : (ofCli result).requests = [] := rfl

@[simp]
theorem requests_ofShared (result : Except Shared.JsError α) : (ofShared result).requests = [] := rfl

theorem result_ofCli {result : Except CliError α} {a : α}
    : (ofCli result).result = .ok a ↔ result = .ok a := by
  cases result with
  | error error => simp [ofCli, Except.mapError]
  | ok b => simp [ofCli, Except.mapError]

theorem result_ofShared {result : Except Shared.JsError α} {a : α}
    : (ofShared result).result = .ok a ↔ result = .ok a := by
  cases result with
  | error error => simp [ofShared, Except.mapError]
  | ok b => simp [ofShared, Except.mapError]

theorem result_bind {x : Exchange α} {f : α → Exchange β} {b : β}
    : (x >>= f).result = .ok b ↔ ∃ a, x.result = .ok a ∧ (f a).result = .ok b := by
  change (x.bind f).result = _ ↔ _
  unfold Exchange.bind
  cases x.result with
  | error error => simp
  | ok a => simp

theorem result_guard {c : Prop} [Decidable c] {message : String} {f : α → Exchange β} {x : Exchange β}
    {b : β} : (if c then fail message >>= f else x).result = .ok b ↔ ¬c ∧ x.result = .ok b := by
  split
  . next h => simp [result_bind, fail, h]
  . next h => simp [h]

end Exchange

def isLocal (hostname : JsString) : Bool :=
  hostname ∈ [JsString.ofString "localhost", JsString.ofString "127.0.0.1", JsString.ofString "[::1]"]

-- Without the dots at the end.
def withoutRoot (hostname : JsString) : JsString :=
  (hostname.reverse.dropWhile (· = 46)).reverse

def endsWith (suffix value : JsString) : Bool := suffix.isSuffixOf value

def serverOrigin (parseUrl : JsString → Option Location) (input : JsString)
    : Except CliError JsString := do
  match parseUrl input with
  | none => .error .typeError
  | some url =>
    let hostname := withoutRoot url.hostname
    if endsWith (JsString.ofString ".onion") hostname then
      .error (.error
        "Use the onion service in Tor Browser. This CLI does not provide a Tor transport.")
    if hostname = JsString.ofString "i2p" || endsWith (JsString.ofString ".i2p") hostname then
      .error (.error
        "Use a browser configured for your local I2P router. This CLI does not provide an I2P transport.")
    if url.username ≠ [] || url.password ≠ [] || url.search ≠ [] || url.hash ≠ []
        || !(url.pathname = [] || url.pathname = JsString.ofString "/")
        || (url.protocol ≠ JsString.ofString "https:"
          && !(url.protocol = JsString.ofString "http:" && isLocal url.hostname)) then
      .error (.error "Use an HTTPS origin or a loopback development origin.")
    return url.origin

-- What `/^[A-Za-z0-9_-]{43}$/` matches.
def isCapability (value : JsString) : Bool := value.length = 43 && value.all Shared.isBase64Url

-- A request with a capability, which the service answers.
def request {α : Type} (make : JsString → JsString → Request) (id token : JsString)
    (answer : Except Failure α) : Exchange α := do
  if !isCapability id then Exchange.fail "Invalid package identifier."
  if !isCapability token then Exchange.fail "Invalid capability."
  ⟨[make id token], answer⟩

def isInvalidMetadata (metadata : Metadata) : Bool :=
  metadata.header.length > 2800 || metadata.expiresAt.safeInteger?.isNone
    || !metadata.remaining.isInteger || metadata.remaining.lessThan 1
    || metadata.remaining.greaterThan 100

-- What one call of the command meets: its options, its input, the file system and the service.
structure Surroundings where
  output : Option JsString
  server : Option JsString
  passphraseFile : Option Bytes
  -- Whether the destination is empty, once it exists.
  destination : Except CliError Bool
  stdin : Bytes
  metadata : Except Failure Metadata
  packet : Except Failure Bytes
  writeContent : Shared.ContentInput → Except Failure Unit

def stdin (bytes : Bytes) (limit : Nat) : Except CliError JsString := do
  if bytes.length > limit then .error (.error "Input exceeds the limit.")
  decodeFatal bytes

def trim (text : JsString) : JsString :=
  ((text.dropWhile Web.Composer.isWhitespace).reverse.dropWhile Web.Composer.isWhitespace).reverse

section

variable (crypto : Crypto) (unicode : Shared.Unicode) (parseUrl : JsString → Option Location)

-- `Client.meta`
def metadata (id token : JsString) (answer : Except Failure Metadata) : Exchange Metadata := do
  let metadata ← request .metadata id token answer
  if isInvalidMetadata metadata then Exchange.fail "Invalid metadata response."
  return metadata

-- The `receive` branch of `main`, with the number of outputs it reports.
def receive (surroundings : Surroundings) : Exchange Nat := do
  if surroundings.output.getD [] = [] then
    Exchange.fail "Use --output with an empty destination directory."
  if !(← .ofCli surroundings.destination) then
    Exchange.fail "The destination directory must be empty before retrieval."
  let link := trim (← .ofCli (stdin surroundings.stdin 2048))
  let url ← .ofCli ((parseUrl link).elim (.error .typeError) .ok)
  let origin ← .ofCli (serverOrigin parseUrl (surroundings.server.getD url.origin))
  if url.origin ≠ origin then Exchange.fail "The link and server origins differ."
  let parsed ← .ofShared (Shared.parseShareLink (fun value => (parseUrl value).map Location.toUrl) link)
  let peekToken ← .ofShared (Shared.derivePeek crypto parsed.secret parsed.id)
  let metadata ← metadata parsed.id peekToken surroundings.metadata
  let passphrase ← .ofCli (passphrase surroundings.passphraseFile)
  let prepared ← .ofShared
    (Shared.prepareOpen crypto metadata.header parsed.secret parsed.id passphrase)
  let packet ← request .openNote parsed.id prepared.readToken surroundings.packet
  let content ← .ofShared (Shared.decrypt crypto unicode packet prepared)
  let _ ← (⟨[], surroundings.writeContent content⟩ : Exchange Unit)
  return content.files.length + if content.text ≠ [] then 1 else 0

end

section

variable {crypto : Crypto} {unicode : Shared.Unicode} {parseUrl : JsString → Option Location}

theorem mem_requests_request {α : Type} {make : JsString → JsString → Request} {id token : JsString}
    {answer : Except Failure α} {sent : Request} (h : sent ∈ (request make id token answer).requests)
    : sent = make id token := by
  unfold request at h
  simp only [Exchange.mem_requests_guard, List.mem_singleton] at h
  exact h.2.2

theorem mem_requests_metadata {id token : JsString} {answer : Except Failure Metadata} {sent : Request}
    (h : sent ∈ (metadata id token answer).requests) : sent = .metadata id token := by
  unfold metadata at h
  simp only [Exchange.mem_requests_bind, Exchange.mem_requests_guard] at h
  rcases h with h | ⟨_, -, -, h⟩
  . exact mem_requests_request h
  . cases h

theorem result_metadata {id token : JsString} {answer : Except Failure Metadata} {received : Metadata}
    (h : (metadata id token answer).result = .ok received) : answer = .ok received := by
  unfold metadata request at h
  simp only [Exchange.result_bind, Exchange.result_guard] at h
  rcases h with ⟨_, ⟨-, -, hanswer⟩, -, hreceived⟩
  cases hreceived
  exact hanswer

-- The command opens a note only with a token that a preparation of the served header has returned.
theorem openNote_mem_receive {surroundings : Surroundings} {id token : JsString}
    (h : .openNote id token ∈ (receive crypto unicode parseUrl surroundings).requests)
    : ∃ text link received passphrase prepared,
      stdin surroundings.stdin 2048 = .ok text
        ∧ Shared.parseShareLink (fun value => (parseUrl value).map Location.toUrl) (trim text) = .ok link
        ∧ surroundings.metadata = .ok received
        ∧ Cli.passphrase surroundings.passphraseFile = .ok passphrase
        ∧ Shared.prepareOpen crypto received.header link.secret link.id passphrase = .ok prepared
        ∧ id = link.id
        ∧ token = prepared.readToken := by
  unfold receive at h
  simp only [Exchange.mem_requests_guard, Exchange.mem_requests_bind, Exchange.requests_ofCli,
    Exchange.requests_ofShared, Exchange.result_ofCli, Exchange.result_ofShared, List.not_mem_nil,
    false_or] at h
  rcases h with ⟨-, _, -, -, text, htext, _, -, _, -, -, link, hlink, _, -, h⟩
  rcases h with h | ⟨received, hreceived, passphrase, hpassphrase, prepared, hprepared, h⟩
  . cases mem_requests_metadata h
  . rcases h with h | ⟨_, -, _, -, _, -, h⟩
    . cases mem_requests_request h
      exact ⟨text, link, received, passphrase, prepared, htext, hlink, result_metadata hreceived,
        hpassphrase, hprepared, rfl, rfl⟩
    . cases h

end

end Cli
