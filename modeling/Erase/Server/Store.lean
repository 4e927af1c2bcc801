import Erase.Server.Lua

namespace Server

structure Config where
  powBits : Nat
  challengeSeconds : Nat
  maxChallenges : Nat
  maxNotes : Nat
  maxStorageBytes : Nat
  deriving DecidableEq, Repr

def Config.new : Config where
  powBits := 18
  challengeSeconds := 420
  maxChallenges := 4096
  maxNotes := 2048
  maxStorageBytes := 256 * 1024 * 1024

-- The requests that the processes of the server send to the cache.
inductive Request where
  | issue (config : Config) (challenge : Bytes)
  | inspectProof (challenge : Bytes)
  | create (config : Config) (packet : Packet) (challenge : Bytes)
  | access (id hash : Bytes) (operation : Operation)
  | reap
  deriving DecidableEq

def createArgs (config : Config) (packet : Packet) (challenge : Bytes) : Lua.CreateArgs where
  id := asBytes packet.header.id
  packet := packet.bytes
  header := packet.headerBytes
  peek := asBytes packet.header.peek
  read := asBytes packet.header.read
  revoke := asBytes packet.header.revoke
  ttl := packet.header.ttl
  views := packet.header.views
  maxNotes := config.maxNotes
  maxBytes := config.maxStorageBytes
  challenge := challenge

def Request.script : Request → Lua Reply
  | issue config challenge =>
    Lua.issue challenge config.powBits config.challengeSeconds config.maxChallenges
  | inspectProof challenge => Lua.inspectProof challenge
  | create config packet challenge => Lua.create (createArgs config packet challenge)
  | access id hash operation => Lua.access id hash operation
  | reap => Lua.reap

-- One primary cache under a clock in milliseconds.
structure Cache where
  now : Nat
  keys : Keyspace Key

inductive Event where
  | tick (elapsed : Nat)
  | expire (key : Key)
  | call (denied : Site → Bool) (request : Request)

structure Answer where
  time : Nat
  request : Request
  reply : Option Reply
  deriving DecidableEq

namespace Answer

def succeeded (answer : Answer) : Bool :=
  match answer.reply with
  | some (.ok _) => true
  | _ => false

def creates (answer : Answer) (id : Bytes) : Bool :=
  match answer.request with
  | .create _ packet _ => asBytes packet.header.id = id && answer.succeeded
  | _ => false

def accesses (answer : Answer) (operation : Operation) (id : Bytes) : Bool :=
  match answer.request with
  | .access id' _ operation' => id' = id && operation' = operation && answer.succeeded
  | _ => false

def opens (answer : Answer) (id : Bytes) : Bool := answer.accesses .openNote id

def deletes (answer : Answer) (id : Bytes) : Bool := answer.accesses .deleteNote id

-- The answer neither delivers nor deletes a note under `id`.
def Quiet (answer : Answer) (id : Bytes) : Prop :=
  answer.opens id = false ∧ answer.deletes id = false

theorem quiet_of_failed {answer : Answer} (h : answer.succeeded = false) (id : Bytes)
    : answer.Quiet id := by
  unfold Quiet opens deletes accesses
  constructor <;> split <;> simp [h]

theorem quiet_of_operation {answer : Answer} {id other hash : Bytes} {operation : Operation}
    (hrequest : answer.request = .access other hash operation)
    (h : other ≠ id ∨ operation ≠ .openNote ∧ operation ≠ .deleteNote) : answer.Quiet id := by
  unfold Quiet opens deletes accesses
  rw [hrequest]
  rcases h with h | ⟨hopen, hdelete⟩
  . simp [h]
  . simp [hopen, hdelete]

theorem reply_of_creates {answer : Answer} {id : Bytes} (h : answer.creates id = true)
    : ∃ parts, answer.reply = some (.ok parts) := by
  unfold creates succeeded at h
  split at h
  . simp only [Bool.and_eq_true] at h
    rcases h with ⟨-, h⟩
    split at h
    . next parts heq => exact ⟨parts, heq⟩
    . cases h
  . cases h

theorem opens_of_deletes {answer : Answer} {id : Bytes} (h : answer.deletes id = true)
    : answer.opens id = false := by
  unfold deletes opens accesses at *
  split at h
  . simp only [Bool.and_eq_true, decide_eq_true_eq] at h
    simp [h.1.2]
  . cases h

end Answer

namespace Cache

def empty (now : Nat) : Cache where
  now := now
  keys _ := none

def step (cache : Cache) : Event → Cache × List Answer
  | .tick elapsed => ({ cache with now := cache.now + elapsed }, [])
  | .expire key => ({ cache with keys := cache.keys.expire cache.now key }, [])
  | .call denied request =>
    let (reply, keys) := request.script.run { now := cache.now, denied } cache.keys
    ({ cache with keys }, [{ time := cache.now, request, reply }])

theorem step_call_eq (cache : Cache) (denied : Site → Bool) (request : Request)
    : cache.step (.call denied request)
      = ((cache.step (.call denied request)).1, [{
          time := cache.now, request,
          reply := (request.script.run { now := cache.now, denied } cache.keys).1 }]) :=
  rfl

def run (cache : Cache) : List Event → Cache × List Answer
  | [] => (cache, [])
  | event :: events =>
    let (next, answers) := cache.step event
    let (last, rest) := next.run events
    (last, answers ++ rest)

end Cache

end Server
