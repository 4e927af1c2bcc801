import Erase.Server.Store

namespace Server

def check : Reply → Except ApiError (List Bytes)
  | .ok parts => .ok parts
  | .unavailable => .error .unavailable
  | .proofInvalid => .error .proofInvalid
  | .proofReused => .error .proofReused
  | .idConflict => .error .idConflict
  | .capacity => .error .capacity

-- A script that fails has no reply.
def respond : Option Reply → Except ApiError (List Bytes)
  | none => .error .capacity
  | some reply => check reply

def number (width : Nat) (parts : List Bytes) (index : Nat) : Except ApiError Nat :=
  match parts[index]?.bind (parseUnsigned? width) with
  | none => .error .capacity
  | some n => .ok n

def inspectedBits (reply : Option Reply) : Except ApiError Nat := do
  let parts ← respond reply
  let bits ← number 8 parts 0
  if !(1 ≤ bits && bits ≤ 24) then .error .proofInvalid
  return bits

-- A `create_note` request between its inspection and its body.
structure Upload where
  challenge : String
  nonce : String
  bits : Nat
  deriving DecidableEq

def Upload.receive (sha256 : Bytes → Bytes) (upload : Upload) (body : Bytes)
    : Except Failure Packet := do
  let packet ← parsePacket body
  if !(← verifyWork sha256 upload.challenge upload.nonce packet.bytes upload.bits) then
    fail .proofInvalid
  return packet

-- The cache and the uploads that all processes of the server hold together.
structure Service where
  cache : Cache
  uploads : List Upload

inductive Action where
  | tick (elapsed : Nat)
  | expire (key : Key)
  | challenge (denied : Site → Bool) (config : Config) (token : String)
  | inspect (denied : Site → Bool) (challenge nonce : String)
  | create (denied : Site → Bool) (config : Config) (index : Nat) (body : Bytes)
  | abandon (index : Nat)
  | access (denied : Site → Bool) (id hash : Bytes) (operation : Operation)
  | reap (denied : Site → Bool)

-- What the cache accepts, whether or not its reply reaches the process.
inductive Outcome where
  | issued (time : Nat) (challenge : String) (lease : Option Entry)
  | created (time : Nat) (upload : Upload) (packet : Packet)

namespace Outcome

def issues : Outcome → Option String
  | issued _ challenge _ => some challenge
  | created _ _ _ => none

def spends : Outcome → Option String
  | issued _ _ _ => none
  | created _ upload _ => some upload.challenge

end Outcome

namespace Service

def empty (now : Nat) : Service where
  cache := .empty now
  uploads := []

def call (service : Service) (denied : Site → Bool) (request : Request) : Option Reply × Service :=
  let (reply, keys) := request.script.run { now := service.cache.now, denied } service.cache.keys
  (reply, { service with cache := { service.cache with keys } })

section

variable (sha256 : Bytes → Bytes)

def step (service : Service) : Action → Service × List Outcome
  | .tick elapsed => ({ service with cache := (service.cache.step (.tick elapsed)).1 }, [])
  | .expire key => ({ service with cache := (service.cache.step (.expire key)).1 }, [])
  | .challenge denied config token =>
    let (reply, service) := service.call denied (.issue config (asBytes token))
    match respond reply with
    | .error _ => (service, [])
    | .ok _ =>
      (service, [.issued service.cache.now token (service.cache.keys (.challenge (asBytes token)))])
  | .inspect denied challenge nonce =>
    if !validId challenge || !validNonce nonce then (service, [])
    else
      let (reply, service) := service.call denied (.inspectProof (asBytes challenge))
      match inspectedBits reply with
      | .error _ => (service, [])
      | .ok bits => ({ service with uploads := service.uploads ++ [{ challenge, nonce, bits }] }, [])
  | .create denied config index body =>
    match service.uploads[index]? with
    | none => (service, [])
    | some upload =>
      let service := { service with uploads := service.uploads.eraseIdx index }
      match upload.receive sha256 body with
      | .error _ => (service, [])
      | .ok packet =>
        let (reply, service) :=
          service.call denied (.create config packet (asBytes upload.challenge))
        match respond reply with
        | .error _ => (service, [])
        | .ok _ => (service, [.created service.cache.now upload packet])
  | .abandon index => ({ service with uploads := service.uploads.eraseIdx index }, [])
  | .access denied id hash operation => ((service.call denied (.access id hash operation)).2, [])
  | .reap denied => ((service.call denied .reap).2, [])

def run (service : Service) : List Action → Service × List Outcome
  | [] => (service, [])
  | action :: actions =>
    let (next, outcomes) := service.step sha256 action
    let (last, rest) := next.run actions
    (last, outcomes ++ rest)

end

end Service

end Server
