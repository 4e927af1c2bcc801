import Erase.Library.Permits
import Erase.Library.Runs
import Erase.Server.Replies

/-!
One process of the server under all its traffic: the handlers as tasks that wait, go on and are dropped
in any order, with the semaphores and the rate buckets that they share.
-/

namespace Server

inductive Slots where
  | publicControls
  | accessControls
  | uploads
  | packets
  | staticSlots
  deriving DecidableEq, Repr

structure Limits where
  config : Config
  maxInFlight : Nat
  requestRate : Nat
  challengeRate : Nat
  createRate : Nat

inductive AccessRoute where
  | metadata
  | openNote
  | deleteNote
  deriving DecidableEq, Repr

-- The first operation that the handler sends to the cache.
def AccessRoute.operation : AccessRoute → Operation
  | metadata => .metadata
  | openNote => .checkOpen
  | deleteNote => .deleteNote

-- A request as the router hands it on. `random_token` gives the token of a challenge.
inductive Incoming where
  | publicConfig
  | challenge (token : String)
  | createNote (challenge nonce : List Bytes) (request : HttpRequest)
  | access (route : AccessRoute) (id : String) (request : HttpRequest)
  | page
  -- The guard, the fallback and a wrong method answer without a handler.
  | rejected (error : ApiError)

def Incoming.isAccess : Incoming → Bool
  | access _ id _ => validId id
  | _ => false

-- Where a handler is, and what it holds in its variables.
inductive Phase where
  | publicRate
  | challengeRate
  | issuing
  | createRate
  | inspecting (challenge nonce : String)
  | inspected (upload : Upload)
  | uploadTaken (upload : Upload)
  | packetTaken (upload : Upload)
  | receiving (upload : Upload)
  | creating (packet : Packet) (challenge : String)
  | accessRate
  | reading
  | asking (hash : String)
  | answered (hash : String) (reply : Except ApiError (List Bytes))
  | settled (answer : Except ApiError Payload)
  | slotTaken (hash : String)
  | opening (hash : String)
  | serving
  -- A response body and the chunks of it that are still transported share one permit.
  | held (slot : Slots) (payload : Payload) (body : Bool) (chunks : Nat)
  | finished (answer : Except Failure Payload)
  deriving DecidableEq

def Phase.permits : Phase → List Slots
  | publicRate | challengeRate | issuing | createRate | inspecting _ _ | inspected _ => [.publicControls]
  | uploadTaken _ => [.uploads, .publicControls]
  | packetTaken _ => [.packets, .uploads, .publicControls]
  | receiving _ | creating _ _ => [.packets, .uploads]
  | accessRate | reading | asking _ | answered _ _ | settled _ => [.accessControls]
  | slotTaken _ => [.packets, .accessControls]
  | opening _ => [.packets]
  | serving => [.staticSlots]
  | held slot _ _ _ => [slot]
  | finished _ => []

-- A handler is dropped only where it waits.
def Phase.waits : Phase → Bool
  | uploadTaken _ | packetTaken _ | settled _ | slotTaken _ | held _ _ _ _ | finished _ => false
  | _ => true

inductive Decision where
  | control (granted : Bool)
  | rate (result : Except ApiError Unit)
  | packet (granted : Bool)
  deriving DecidableEq

-- A command whose reply is lost may have been executed or not.
inductive Delivery where
  | delivered
  | lost (executed : Bool)

inductive Turn where
  | arrive
  | reply (delivery : Delivery) (denied : Site → Bool)
  | proceed
  | abort
  | pollFrame
  | shareChunk
  | dropBody
  | dropChunk

inductive Move where
  | elsewhere (event : Event)
  | turn (id : Nat) (turn : Turn)

structure Process where
  free : Slots → Nat
  buckets : String → Option Bucket
  cache : Cache
  tasks : FiniteMap Nat Phase
  log : List (Nat × Decision)

namespace Process

def take (process : Process) (slot : Slots) : Except ApiError Process :=
  match takeSlot (process.free slot) with
  | .error error => .error error
  | .ok left => .ok { process with free := Function.update process.free slot left }

def drop (process : Process) (slot : Slots) : Process :=
  { process with free := Function.update process.free slot (process.free slot + 1) }

def put (process : Process) (id : Nat) (phase : Phase) : Process :=
  { process with tasks := process.tasks.insert id phase }

def record (process : Process) (id : Nat) (decision : Decision) : Process :=
  { process with log := process.log ++ [(id, decision)] }

-- Every return of a handler drops the permits in its variables.
def leave (process : Process) (id : Nat) (phase : Phase) (answer : Except Failure Payload) : Process :=
  (phase.permits.foldl drop process).put id (.finished answer)

def fail (process : Process) (id : Nat) (phase : Phase) (error : ApiError) : Process :=
  process.leave id phase (.error (.api error))

def rate (process : Process) (name : String) (perSecond : ℚ) (delivery : Delivery)
    : Except ApiError Unit × Process :=
  let (allowed, bucket) := Server.rate perSecond process.cache.now (process.buckets name)
  let executed := { process with buckets := Function.update process.buckets name bucket }
  match delivery with
  | .delivered => (if allowed then .ok () else .error .rateLimited, executed)
  | .lost true => (.error .capacity, executed)
  | .lost false => (.error .capacity, process)

-- No reply counts as `Capacity`, as a failing script does.
def call (process : Process) (delivery : Delivery) (denied : Site → Bool) (request : Request)
    : Except ApiError (List Bytes) × Process :=
  let (reply, keys) := request.script.run { now := process.cache.now, denied } process.cache.keys
  let executed := { process with cache := { process.cache with keys } }
  match delivery with
  | .delivered => (respond reply, executed)
  | .lost true => (.error .capacity, executed)
  | .lost false => (.error .capacity, process)

-- `HeldBody` and `HeldChunk`: the permit goes with the last of its owners.
def release (process : Process) (id : Nat) (slot : Slots) (payload : Payload) (body : Bool)
    (chunks : Nat) : Process :=
  if body ∨ 0 < chunks then process.put id (.held slot payload body chunks)
  else process.leave id (.held slot payload body chunks) (.ok payload)

def stepHeld (process : Process) (id : Nat) (slot : Slots) (payload : Payload) (body : Bool)
    (chunks : Nat) : Turn → Process
  | .pollFrame => if body then process.put id (.held slot payload body (chunks + 1)) else process
  | .shareChunk => if 0 < chunks then process.put id (.held slot payload body (chunks + 1)) else process
  | .dropBody => if body then process.release id slot payload false chunks else process
  | .dropChunk => if 0 < chunks then process.release id slot payload body (chunks - 1) else process
  | _ => process

-- The request deadline passes or the client is gone.
def abort (process : Process) (id : Nat) (phase : Phase) : Process :=
  if phase.waits then process.fail id phase .requestTimeout else process

section

variable (limits : Limits) (process : Process) (id : Nat)

def publicRate : ℚ := limits.requestRate / 2

-- `public_admission`, before its rate is known.
def enterPublic : Process :=
  match process.take .publicControls with
  | .error error => process.fail id (.finished (.error (.api error))) error
  | .ok process => process.put id .publicRate

def stepPublicConfig : Option Phase → Turn → Process
  | none, .arrive => process.enterPublic id
  | some .publicRate, .reply delivery _ =>
    match process.rate "public" (publicRate limits) delivery with
    | (.error error, process) => process.fail id .publicRate error
    | (.ok (), process) =>
      process.leave id .publicRate (.ok (.publicConfig (Server.publicConfig limits.config)))
  | some phase, .abort => process.abort id phase
  | _, _ => process

def stepChallenge (token : String) : Option Phase → Turn → Process
  | none, .arrive => process.enterPublic id
  | some .publicRate, .reply delivery _ =>
    match process.rate "public" (publicRate limits) delivery with
    | (.error error, process) => process.fail id .publicRate error
    | (.ok (), process) => process.put id .challengeRate
  | some .challengeRate, .reply delivery _ =>
    match process.rate "challenge" limits.challengeRate delivery with
    | (.error error, process) => process.fail id .challengeRate error
    | (.ok (), process) => process.put id .issuing
  | some .issuing, .reply delivery denied =>
    let (reply, process) := process.call delivery denied (.issue limits.config (asBytes token))
    match reply >>= Challenge.ofParts limits.config token with
    | .error error => process.fail id .issuing error
    | .ok challenge => process.leave id .issuing (.ok (.challenge challenge))
  | some phase, .abort => process.abort id phase
  | _, _ => process

-- The headers that `create_note` needs before it asks for the challenge.
def proofHeaders (challenge nonce : List Bytes) : Except ApiError (String × String) := do
  let some challenge ← oneHeader challenge | .error .proofInvalid
  let some nonce ← oneHeader nonce | .error .proofInvalid
  let challenge := Ascii.string (challenge.map UInt8.toNat)
  let nonce := Ascii.string (nonce.map UInt8.toNat)
  if !validId challenge || !validNonce nonce then .error .proofInvalid
  return (challenge, nonce)

def bitsOf (parts : List Bytes) : Except ApiError Nat := do
  let bits ← number 8 parts 0
  if !(1 ≤ bits && bits ≤ 24) then .error .proofInvalid
  return bits

def stepCreateNote (sha256 : Bytes → Bytes) (challenge nonce : List Bytes) (request : HttpRequest)
    : Option Phase → Turn → Process
  | none, .arrive => process.enterPublic id
  | some .publicRate, .reply delivery _ =>
    match process.rate "public" (publicRate limits) delivery with
    | (.error error, process) => process.fail id .publicRate error
    | (.ok (), process) => process.put id .createRate
  | some .createRate, .reply delivery _ =>
    match process.rate "create" limits.createRate delivery with
    | (.error error, process) => process.fail id .createRate error
    | (.ok (), process) =>
      match proofHeaders challenge nonce with
      | .error error => process.fail id .createRate error
      | .ok (challenge, nonce) => process.put id (.inspecting challenge nonce)
  | some (.inspecting challenge nonce), .reply delivery denied =>
    let (reply, process) := process.call delivery denied (.inspectProof (asBytes challenge))
    match reply >>= bitsOf with
    | .error error => process.fail id (.inspecting challenge nonce) error
    | .ok bits => process.put id (.inspected { challenge, nonce, bits })
  | some (.inspected upload), .proceed =>
    match process.take .uploads with
    | .error error => process.fail id (.inspected upload) error
    | .ok process => process.put id (.uploadTaken upload)
  | some (.uploadTaken upload), .proceed =>
    match process.take .packets with
    | .error error => process.fail id (.uploadTaken upload) error
    | .ok process => process.put id (.packetTaken upload)
  | some (.packetTaken upload), .proceed =>
    (process.drop .publicControls).put id (.receiving upload)
  | some (.receiving upload), .reply _ _ =>
    match body request "application/octet-stream" maxPacketBytes with
    | .error error => process.fail id (.receiving upload) error
    | .ok bytes =>
      match upload.receive sha256 bytes with
      | .error failure => process.leave id (.receiving upload) (.error failure)
      | .ok packet => process.put id (.creating packet upload.challenge)
  | some (.creating packet challenge), .reply delivery denied =>
    let (reply, process) :=
      process.call delivery denied (.create limits.config packet (asBytes challenge))
    match reply >>= Created.ofParts packet with
    | .error error => process.fail id (.creating packet challenge) error
    | .ok created => process.leave id (.creating packet challenge) (.ok (.created created))
  | some phase, .abort => process.abort id phase
  | _, _ => process

-- `valid_id` and `access_capability`, before its rate is known.
def enterAccess (note : String) : Process :=
  if !validId note then process.fail id (.finished (.error (.api .unavailable))) .unavailable
  else
    match process.take .accessControls with
    | .error error =>
      (process.record id (.control false)).fail id (.finished (.error (.api error))) error
    | .ok process => (process.record id (.control true)).put id .accessRate

-- What the handler makes of the reply to its first operation.
def settle (route : AccessRoute) (hash : String) (reply : Except ApiError (List Bytes)) : Process :=
  match route with
  | .metadata =>
    process.put id (.settled ((reply >>= Metadata.ofParts).map fun metadata =>
      .access (.metadata metadata)))
  | .deleteNote => process.put id (.settled (reply.map fun _ => .access .noContent))
  | .openNote =>
    match reply with
    | .error error => process.put id (.settled (.error error))
    | .ok _ =>
      match process.take .packets with
      | .error error => (process.record id (.packet false)).put id (.settled (.error error))
      | .ok process => (process.record id (.packet true)).put id (.slotTaken hash)

def stepAccess (sha256 : Bytes → Bytes) (route : AccessRoute) (note : String) (request : HttpRequest)
    : Option Phase → Turn → Process
  | none, .arrive => process.enterAccess id note
  | some .accessRate, .reply delivery _ =>
    let (result, process) := process.rate "access" (limits.requestRate / 2) delivery
    let process := process.record id (.rate result)
    match result with
    | .error error => process.fail id .accessRate error
    | .ok () => process.put id .reading
  | some .reading, .reply _ _ =>
    match request.capability >>= fun capability => tokenHash sha256 capability.token with
    | .error error => process.fail id .reading error
    | .ok hash => process.put id (.asking hash)
  | some (.asking hash), .reply delivery denied =>
    let (reply, process) :=
      process.call delivery denied (.access (asBytes note) (asBytes hash) route.operation)
    process.put id (.answered hash reply)
  | some (.answered hash reply), .proceed => process.settle id route hash reply
  | some (.settled answer), .proceed => process.leave id (.settled answer) (answer.mapError .api)
  | some (.slotTaken hash), .proceed => (process.drop .accessControls).put id (.opening hash)
  | some (.opening hash), .reply delivery denied =>
    let (reply, process) :=
      process.call delivery denied (.access (asBytes note) (asBytes hash) .openNote)
    match reply >>= packetOf with
    | .error error => process.fail id (.opening hash) error
    | .ok packet => process.put id (.held .packets (.access (.packet packet)) true 0)
  | some (.held .packets payload body chunks), turn =>
    process.stepHeld id .packets payload body chunks turn
  | some phase, .abort => process.abort id phase
  | _, _ => process

def stepPage : Option Phase → Turn → Process
  | none, .arrive =>
    match process.take .staticSlots with
    | .error error => process.fail id (.finished (.error (.api error))) error
    | .ok process => process.put id .serving
  | some .serving, .reply _ _ => process.put id (.held .staticSlots .page true 0)
  | some (.held .staticSlots payload body chunks), turn =>
    process.stepHeld id .staticSlots payload body chunks turn
  | some phase, .abort => process.abort id phase
  | _, _ => process

def stepRejected (error : ApiError) : Option Phase → Turn → Process
  | none, .arrive => process.put id (.finished (.error (.api error)))
  | _, _ => process

end

section

variable (sha256 : Bytes → Bytes) (limits : Limits) (requests : Nat → Incoming)

def stepTurn (process : Process) (id : Nat) (turn : Turn) : Process :=
  let phase := process.tasks.lookup id
  match requests id with
  | .publicConfig => process.stepPublicConfig limits id phase turn
  | .challenge token => process.stepChallenge limits id token phase turn
  | .createNote challenge nonce request =>
    process.stepCreateNote limits id sha256 challenge nonce request phase turn
  | .access route note request => process.stepAccess limits id sha256 route note request phase turn
  | .page => process.stepPage id phase turn
  | .rejected error => process.stepRejected id error phase turn

def step (process : Process) : Move → Process
  | .elsewhere event => { process with cache := (process.cache.step event).1 }
  | .turn id turn => process.stepTurn sha256 limits requests id turn

def run (process : Process) (moves : List Move) : Process :=
  moves.foldl (step sha256 limits requests) process

end

end Process

def Limits.capacity (limits : Limits) : Slots → Nat
  | .publicControls => max limits.maxInFlight 8
  | .accessControls => max limits.maxInFlight 8
  | .uploads => limits.maxInFlight - 1
  | .packets => limits.maxInFlight
  | .staticSlots => 32

def buildRouter (limits : Limits) (cache : Cache) (buckets : String → Option Bucket)
    : Except ApiError Process :=
  if limits.maxInFlight < 2 then .error .capacity
  else .ok { free := limits.capacity, buckets, cache, tasks := ∅, log := [] }

end Server
