import Erase.Shared.Proof
import Erase.Web.Composer
import Erase.Web.Receiver

/-!
The worker that seals a draft, and a composer with its workers.
-/

namespace Web

namespace Composer

-- The requests that a worker serves.
def Request.isCrypto : Request → Bool
  | .seal _ _ _ _ _ => true
  | .proof _ _ => true
  | _ => false

def Continuation.isCrypto : Continuation → Bool
  | .submitSealed _ => true
  | .submitProof _ _ _ => true
  | _ => false

-- What the handler of one message meets: what its files yield, what it draws and what its clock shows.
structure Surroundings where
  arrayBuffer : Nat → Option Bytes
  random : Shared.Randomness
  before : Nat → Nat
  after : Nat → Nat

-- No call of a worker hands over a signal.
def Surroundings.pauses (surroundings : Surroundings) : Shared.Pauses where
  before nonce := ⟨false, surroundings.before nonce⟩
  after nonce := ⟨false, surroundings.after nonce⟩

-- A worker thread with the messages it has not handled yet and the answers it has posted.
structure Sealer where
  running : Option (Nat × Request)
  inbox : List (Nat × Request)
  outbox : List (Nat × Except String Result)

namespace Sealer

def new : Sealer where
  running := none
  inbox := []
  outbox := []

def post (id : Nat) (result : Except String Result) (thread : Sealer) : Sealer :=
  { thread with outbox := thread.outbox ++ [(id, result)] }

def fileInput (file : LocalFile) (data : Bytes) : Shared.FileInput where
  name := file.name
  mime := if file.mime = [] then JsString.ofString "application/octet-stream" else file.mime
  data := data

-- The files are read one after the other, up to the first one that cannot be read.
def readFiles (arrayBuffer : Nat → Option Bytes) (first : Nat)
    : List LocalFile → Option (List Shared.FileInput)
  | [] => some []
  | file :: files => do
    let data ← arrayBuffer first
    return fileInput file data :: (← readFiles arrayBuffer (first + 1) files)

def sealedNote (note : Shared.CreatedNote) : Sealed where
  packet := note.packet
  id := note.id
  secret := note.secret
  revokeToken := note.revokeToken

def proofChallenge (challenge : Challenge) : Shared.Challenge where
  challenge := challenge.challenge
  bits := .ofNat challenge.bits
  expiresAt := .ofNat challenge.expiresAt

section

variable (crypto : Crypto) (unicode : Shared.Unicode)

-- The rejection of a read has a numeric code, which no message takes over.
def answer (surroundings : Surroundings) : Request → Except String Result
  | .seal text files ttl views passphrase =>
    match readFiles surroundings.arrayBuffer 0 files with
    | none => .error "invalid_package"
    | some files =>
      ((Shared.create crypto unicode surroundings.random ⟨text, files⟩ ⟨ttl, views, some passphrase⟩).map
        fun note => .sealed (sealedNote note)).mapError Thread.errorCode
  | .proof packet challenge =>
    ((Shared.solveProof crypto packet (proofChallenge challenge) surroundings.pauses).result.map
      fun nonce => .proof nonce packet).mapError Thread.errorCode
  | _ => .error "invalid_package"

-- The handler up to its first suspension. `isSupported` is whether `workerHkdf` finds what it needs.
def onmessage (isSupported : Bool) (id : Nat) (request : Request) (thread : Sealer) : Sealer :=
  if thread.running.isSome then thread.post id (.error "worker_busy")
  else if !isSupported then thread.post id (.error "crypto_unavailable")
  else
    match request with
    | .seal _ files _ _ _ =>
      if files.length > Shared.maxFiles || totalSize files > Shared.maxContentBytes then
        thread.post id (.error "invalid_package")
      else
        { thread with running := some (id, request) }
    | .proof _ _ => { thread with running := some (id, request) }
    | _ => thread.post id (.error "invalid_package")

-- The handler from its first suspension on.
def finish (surroundings : Surroundings) (thread : Sealer) : Sealer :=
  match thread.running with
  | none => thread
  | some (id, request) =>
    { thread with running := none }.post id (answer crypto unicode surroundings request)

def receive (isSupported : Bool) (thread : Sealer) : Sealer :=
  match thread.inbox with
  | [] => thread
  | (id, request) :: inbox => { thread with inbox }.onmessage isSupported id request

end

end Sealer

instance : Threads Sealer Request Result Entry where
  new := .new
  accept message thread := { thread with inbox := thread.inbox ++ [message] }
  outbox thread := thread.outbox
  retain outbox thread := { thread with outbox }
  rejected := .rejected
  order
    | .dispose => some .dispose
    | .call number request => if request.isCrypto then some (.call number request) else none
    | _ => none

theorem order_call {number : Nat} {request : Request} (h : request.isCrypto = true)
    : Threads.order Sealer (Entry.call number request) = some (.call number request) :=
  if_pos h

theorem order_foreign {number : Nat} {request : Request} (h : request.isCrypto = false)
    : Threads.order Sealer (Entry.call number request) = none :=
  if_neg (by simp [h])

abbrev Backend := Web.Backend Sealer Request Result

end Composer

-- A composer with its workers.
structure Sender where
  page : ComposerPage
  backend : Composer.Backend

namespace Sender

inductive Event where
  | composer (event : Composer.Event)
  | resume
  | receive (worker : Nat) (isSupported : Bool)
  | finish (worker : Nat) (surroundings : Composer.Surroundings)
  | deliver (worker : Nat)
  | error (worker : Nat)
  | messageerror (worker : Nat)

def mount (origin : JsString) (now : Nat) : Sender where
  page := Composer.mount origin now
  backend := .start

section

variable (crypto : Crypto) (unicode : Shared.Unicode) (posts : Nat → Bool)

def react (event : Composer.Event) (sender : Sender) : Sender :=
  let page := Composer.step sender.page event
  let entries := page.trace.drop sender.page.trace.length
  { page, backend := entries.foldl (Backend.replay posts) sender.backend }

-- A promise settles once, and the workers settle those of the cryptographic calls.
def isForeign (sender : Sender) : Composer.Event → Bool
  | .settle number _ => (sender.page.host.promises.waiting number).all Composer.Continuation.isCrypto
  | _ => false

-- Tasks wait until every settled promise has had its reaction, and what cannot happen yet changes
-- nothing.
def step (sender : Sender) : Event → Sender
  | .composer event =>
    if sender.backend.settled ≠ [] || sender.isForeign event then sender
    else sender.react posts event
  | .resume =>
    match sender.backend.settled with
    | [] => sender
    | (number, result) :: settled =>
      { sender with backend := { sender.backend with settled } }.react posts (.settle number result)
  | .receive worker isSupported =>
    { sender with backend := sender.backend.update worker (Composer.Sealer.receive isSupported) }
  | .finish worker surroundings =>
    { sender with
      backend := sender.backend.update worker (Composer.Sealer.finish crypto unicode surroundings) }
  | .deliver worker =>
    if sender.backend.settled ≠ [] then sender
    else { sender with backend := sender.backend.deliver posts worker }
  | .error worker =>
    if sender.backend.settled ≠ [] || sender.backend.crypto.created ≤ worker then sender
    else { sender with backend := sender.backend.apply posts sender.backend.crypto.onerror }
  | .messageerror worker =>
    if sender.backend.settled ≠ [] || sender.backend.crypto.created ≤ worker then sender
    else { sender with backend := sender.backend.apply posts sender.backend.crypto.onmessageerror }

def run (sender : Sender) (events : List Event) : Sender :=
  events.foldl (step crypto unicode posts) sender

end

end Sender

end Web
