import Mathlib.Data.Rat.Defs
import Mathlib.Algebra.Order.Ring.Rat
import Erase.Server.Service

namespace Server

-- How far the body of a request gets before its deadline.
inductive Transfer where
  | complete (bytes : Bytes)
  | broken
  | stalled

structure HttpRequest where
  contentType : List Bytes
  contentLength : List Bytes
  body : Transfer

-- `HeaderValue::to_str`.
def toStr? (value : Bytes) : Option Bytes :=
  if value.all fun byte => (32 ≤ byte.toNat && byte.toNat < 127) || byte.toNat = 9 then some value
  else none

def oneHeader : List Bytes → Except ApiError (Option Bytes)
  | [] => .ok none
  | [value] =>
    match toStr? value with
    | none => .error .invalidRequest
    | some value => .ok (some value)
  | _ => .error .invalidRequest

def toAsciiLowercase (byte : UInt8) : UInt8 :=
  if 65 ≤ byte.toNat ∧ byte.toNat ≤ 90 then byte + 32 else byte

def eqIgnoreAsciiCase (left right : Bytes) : Bool :=
  left.map toAsciiLowercase = right.map toAsciiLowercase

def body (request : HttpRequest) (expected : String) (limit : Nat) : Except ApiError Bytes := do
  let some contentType ← oneHeader request.contentType | .error .invalidRequest
  let valid := eqIgnoreAsciiCase contentType (asBytes expected)
    || (expected = "application/json"
      && eqIgnoreAsciiCase contentType (asBytes "application/json; charset=utf-8"))
  if !valid then .error .invalidRequest
  match ← oneHeader request.contentLength with
  | none => pure ()
  | some length =>
    match parseUnsigned? 64 length with
    | none => .error .invalidRequest
    | some length => if length > limit then .error .tooLarge
  match request.body with
  | .complete bytes => if bytes.length > limit then .error .tooLarge else return bytes
  | .broken => .error .tooLarge
  | .stalled => .error .requestTimeout

structure Capability where
  token : String
  deriving DecidableEq, Repr

namespace Capability

def ofValues? : List Json.Value → Option Capability
  | [token] => (SerdeJson.string? token).map Capability.mk
  | _ => none

def fromSlice? (bytes : Bytes) : Option Capability :=
  ((SerdeJson.parse? bytes).bind (SerdeJson.fields? ["token"])).bind ofValues?

end Capability

def HttpRequest.capability (request : HttpRequest) : Except ApiError Capability := do
  match Capability.fromSlice? (← Server.body request "application/json" 1024) with
  | none => .error .invalidRequest
  | some capability => return capability

structure Bucket where
  tokens : ℚ
  updated : Nat
  expireAt : Nat
  deriving DecidableEq

-- Whether the bucket lets one more request pass. Its tokens are not rounded here.
def rate (perSecond : ℚ) (now : Nat) (bucket : Option Bucket) : Bool × Option Bucket :=
  let burst := perSecond * 2
  let old := bucket.filter fun bucket => now < bucket.expireAt
  let tokens := (old.map Bucket.tokens).getD burst
  let updated := (old.map Bucket.updated).getD now
  let tokens := min burst (tokens + max 0 ((now : ℚ) - updated) * perSecond / 1000)
  if tokens < 1 then (false, bucket)
  else (true, some { tokens := tokens - 1, updated := now, expireAt := now + 4000 })

-- The free permits of a process, and the bucket that all processes share.
structure AppState where
  requestRate : Nat
  accessControls : Nat
  packets : Nat
  bucket : Option Bucket
  deriving DecidableEq

def takeSlot (slots : Nat) : Except ApiError Nat :=
  if slots = 0 then .error .capacity else .ok (slots - 1)

namespace AppState

def rateAccess (state : AppState) (now : Nat) : Bool × Option Bucket :=
  rate (state.requestRate / 2) now state.bucket

def dropControl (state : AppState) : AppState :=
  { state with accessControls := state.accessControls + 1 }

-- Every error gives the permit back.
def accessCapability (sha256 : Bytes → Bytes) (state : AppState) (now : Nat) (id : String)
    (request : HttpRequest) : Except ApiError String × AppState :=
  if !validId id then (.error .unavailable, state)
  else
    match takeSlot state.accessControls with
    | .error error => (.error error, state)
    | .ok accessControls =>
      let (allowed, bucket) := state.rateAccess now
      if !allowed then (.error .rateLimited, { state with bucket })
      else
        match request.capability >>= fun capability => tokenHash sha256 capability.token with
        | .error error => (.error error, { state with bucket })
        | .ok hash => (.ok hash, { state with accessControls, bucket })

end AppState

structure Metadata where
  header : String
  expiresAt : Nat
  remaining : Nat
  deriving DecidableEq, Repr

inductive Response where
  | metadata (metadata : Metadata)
  | packet (bytes : Bytes)
  | noContent
  deriving DecidableEq

-- The cache refuses no write of the access script: it runs with `allow-oom`.
def Cache.access (cache : Cache) (id hash : String) (operation : Operation)
    : Except ApiError (List Bytes) × Cache :=
  let (reply, keys) := (Lua.access (asBytes id) (asBytes hash) operation).run
    { now := cache.now, denied := fun _ => false } cache.keys
  (respond reply, { cache with keys })

def Metadata.ofParts (parts : List Bytes) : Except ApiError Metadata :=
  match parts[0]? with
  | none => .error .capacity
  | some header => do
    let expiresAt ← number 64 parts 1
    let remaining ← number 32 parts 2
    return { header := encodeUrlSafe header, expiresAt, remaining }

def packetOf : List Bytes → Except ApiError Bytes
  | [packet] => .ok packet
  | _ => .error .capacity

structure Served where
  answer : Except ApiError Response
  state : AppState
  cache : Cache

section

variable (sha256 : Bytes → Bytes) (state : AppState) (id : String) (request : HttpRequest)
  (cache : Cache)

def metadata : Served :=
  match state.accessCapability sha256 cache.now id request with
  | (.error error, state) => { answer := .error error, state, cache }
  | (.ok hash, state) =>
    let (reply, cache) := cache.access id hash .metadata
    { answer := (reply >>= Metadata.ofParts).map .metadata, state := state.dropControl, cache }

-- Other requests may run between the two commands. The response keeps its packet permit.
def openNote (meanwhile : List Event) : Served :=
  match state.accessCapability sha256 cache.now id request with
  | (.error error, state) => { answer := .error error, state, cache }
  | (.ok hash, state) =>
    let (checked, cache) := cache.access id hash .checkOpen
    match checked with
    | .error error => { answer := .error error, state := state.dropControl, cache }
    | .ok _ =>
      match takeSlot state.packets with
      | .error error => { answer := .error error, state := state.dropControl, cache }
      | .ok packets =>
        let (reply, cache) := (cache.run meanwhile).1.access id hash .openNote
        match reply >>= packetOf with
        | .error error => { answer := .error error, state := state.dropControl, cache }
        | .ok packet =>
          { answer := .ok (.packet packet), state := { state.dropControl with packets }, cache }

def deleteNote : Served :=
  match state.accessCapability sha256 cache.now id request with
  | (.error error, state) => { answer := .error error, state, cache }
  | (.ok hash, state) =>
    let (reply, cache) := cache.access id hash .deleteNote
    { answer := reply.map fun _ => .noContent, state := state.dropControl, cache }

end

-- The requests that need a capability of a note.
inductive Endpoint where
  | metadata
  | openNote (meanwhile : List Event)
  | deleteNote

namespace Endpoint

-- The first operation that the handler sends to the cache.
def operation : Endpoint → Operation
  | metadata => .metadata
  | openNote _ => .checkOpen
  | deleteNote => .deleteNote

def serve (sha256 : Bytes → Bytes) (state : AppState) (id : String) (request : HttpRequest)
    (cache : Cache) : Endpoint → Served
  | metadata => Server.metadata sha256 state id request cache
  | openNote meanwhile => Server.openNote sha256 state id request cache meanwhile
  | deleteNote => Server.deleteNote sha256 state id request cache

end Endpoint

end Server
