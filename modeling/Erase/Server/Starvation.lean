import Erase.Server.Admission
import Erase.Store.Transition

/-!
The packet slots and the slots and rate of access requests, over every run of one process.
-/

namespace Server

open Store (Ledger Event.elapsed)

def Phase.isUpload : Phase → Bool
  | packetTaken _ | receiving _ | creating _ _ => true
  | _ => false

def Phase.isDownload : Phase → Bool
  | slotTaken _ | opening _ | held .packets _ _ _ => true
  | _ => false

theorem Phase.count_packets (phase : Phase)
    : phase.permits.count .packets = phase.isUpload.toNat + phase.isDownload.toNat := by
  cases phase with
  | held slot payload body chunks => cases slot <;> rfl
  | _ => rfl

theorem Phase.isUpload_le (phase : Phase) : phase.isUpload.toNat ≤ phase.permits.count .uploads := by
  cases phase with
  | held slot payload body chunks => exact Nat.zero_le _
  | _ => simp [isUpload, permits]

namespace Process

-- The uploads that have both of their slots, and the opens that hold a packet slot.
def uploading (process : Process) : Nat := process.tasks.weigh fun phase => phase.isUpload.toNat

def downloading (process : Process) : Nat := process.tasks.weigh fun phase => phase.isDownload.toNat

structure Ordered (limits : Limits) (requests : Nat → Incoming) (process : Process) : Prop where
  conserved : Permits.Conserved Phase.permits limits.capacity process.free process.tasks
  placed : ∀ id phase, process.tasks.lookup id = some phase → (requests id).runs phase = true

section

variable {limits : Limits} {requests : Nat → Incoming} {process next : Process} {id : Nat}

theorem ordered_buildRouter {cache : Cache} {buckets : String → Option Bucket}
    (h : buildRouter limits cache buckets = .ok process)
    : process.Ordered limits requests := by
  unfold buildRouter at h
  split at h
  . cases h
  . cases h
    constructor
    . intro slot
      rfl
    . intro id phase hphase
      cases hphase

theorem Ordered.turned (h : process.Ordered limits requests)
    (hturned : Turned (requests id) process next id)
    : next.Ordered limits requests := by
  rcases hturned.tasks with ⟨htasks, hfree⟩ | ⟨phase, hruns, htasks, hbalanced⟩
  . constructor
    . rw [htasks, hfree]
      exact h.conserved
    . rw [htasks]
      exact h.placed
  . constructor
    . rw [htasks]
      exact h.conserved.insert hbalanced
    . intro other present hpresent
      rw [htasks, FiniteMap.lookup_insert_ite] at hpresent
      split at hpresent
      . next hother =>
        cases hpresent
        rw [hother]
        exact hruns
      . exact h.placed other present hpresent

theorem Ordered.step (sha256 : Bytes → Bytes) (h : process.Ordered limits requests) (move : Move)
    : (process.step sha256 limits requests move).Ordered limits requests := by
  cases move with
  | elsewhere event => exact ⟨h.conserved, h.placed⟩
  | turn id turn => exact h.turned (stepTurn_turned sha256 limits requests turn (h.placed id))

theorem Ordered.run (sha256 : Bytes → Bytes) (h : process.Ordered limits requests) (moves : List Move)
    : (process.run sha256 limits requests moves).Ordered limits requests := by
  induction moves generalizing process with
  | nil => exact h
  | cons move moves ih => exact ih (h.step sha256 move)

theorem Ordered.uploading_le (h : process.Ordered limits requests)
    : process.uploading ≤ limits.maxInFlight - 1 :=
  (FiniteMap.weigh_mono Phase.isUpload_le _).trans (h.conserved.holding_le .uploads)

theorem Ordered.free_packets (h : process.Ordered limits requests)
    : process.free .packets + (process.uploading + process.downloading) = limits.maxInFlight := by
  have hsplit : process.uploading + process.downloading
      = Permits.holding Phase.permits process.tasks .packets := by
    unfold uploading downloading Permits.holding
    rw [← FiniteMap.weigh_add]
    simp only [Phase.count_packets]
  rw [hsplit]
  exact h.conserved .packets

-- When the packet slots are gone, the uploads alone cannot have them.
theorem Ordered.exists_download (h : process.Ordered limits requests) (hlimit : 2 ≤ limits.maxInFlight)
    (hnone : process.free .packets = 0)
    : ∃ other phase, process.tasks.lookup other = some phase ∧ phase.isDownload = true := by
  have huploads := h.uploading_le
  have hpackets := h.free_packets
  rcases FiniteMap.exists_of_weigh_pos (f := fun phase : Phase => phase.isDownload.toNat)
    (m := process.tasks) (by unfold downloading at hpackets; omega) with ⟨other, phase, hphase, hdownload⟩
  refine ⟨other, phase, hphase, ?_⟩
  cases hdown : phase.isDownload with
  | true => rfl
  | false =>
    rw [hdown] at hdownload
    cases hdownload

end

section

variable {process carried : Process} {id other : Nat}

@[simp]
theorem log_put (phase : Phase) : (process.put id phase).log = process.log := rfl

@[simp]
theorem log_leave (phase : Phase) (answer : Except Failure Payload)
    : (process.leave id phase answer).log = process.log := by
  rw [leave, foldl_drop]
  rfl

@[simp]
theorem log_fail (phase : Phase) (error : ApiError) : (process.fail id phase error).log = process.log :=
  log_leave _ _

@[simp]
theorem log_abort (phase : Phase) : (process.abort id phase).log = process.log := by
  unfold abort
  split
  . exact log_fail _ _
  . rfl

@[simp]
theorem log_record (decision : Decision)
    : (process.record id decision).log = process.log ++ [(id, decision)] :=
  rfl

@[simp]
theorem log_rate (name : String) (perSecond : ℚ) (delivery : Delivery)
    : (process.rate name perSecond delivery).2.log = process.log := by
  cases delivery with
  | delivered => rfl
  | lost executed => cases executed <;> rfl

@[simp]
theorem log_call (delivery : Delivery) (denied : Site → Bool) (request : Request)
    : (process.call delivery denied request).2.log = process.log := by
  cases delivery with
  | delivered => rfl
  | lost executed => cases executed <;> rfl

theorem log_take {slot : Slots} (h : process.take slot = .ok carried) : carried.log = process.log := by
  rcases take_eq_ok h with ⟨left, _, rfl⟩
  rfl

@[simp]
theorem log_stepHeld (slot : Slots) (payload : Payload) (body : Bool) (chunks : Nat) (turn : Turn)
    : (process.stepHeld id slot payload body chunks turn).log = process.log := by
  have hrelease (body' : Bool) (chunks' : Nat)
      : (process.release id slot payload body' chunks').log = process.log := by
    unfold release
    split
    . rfl
    . exact log_leave _ _
  unfold stepHeld
  split
  . split <;> rfl
  . split <;> rfl
  . split
    . exact hrelease _ _
    . rfl
  . split
    . exact hrelease _ _
    . rfl
  . rfl

-- The one place where an open is refused for want of a packet slot.
structure Refuses (requests : Nat → Incoming) (process : Process) (id : Nat) : Prop where
  none : process.free .packets = 0
  phase : ∃ note request hash parts, requests id = .access .openNote note request
    ∧ process.tasks.lookup id = some (.answered hash (.ok parts))

theorem refuses_of_settle {requests : Nat → Incoming} {route : AccessRoute} {note hash : String}
    {request : HttpRequest} {reply : Except ApiError (List Bytes)}
    (hrequest : requests id = .access route note request)
    (hphase : process.tasks.lookup id = some (.answered hash reply))
    (h : (other, .packet false) ∈ (process.settle id route hash reply).log)
    : (other, .packet false) ∈ process.log ∨ other = id ∧ process.Refuses requests id := by
  cases route with
  | metadata => exact .inl h
  | deleteNote => exact .inl h
  | openNote =>
    cases reply with
    | error error => exact .inl h
    | ok parts =>
      simp only [settle] at h
      split at h
      . next error htake =>
        rw [log_put, log_record, List.mem_append, List.mem_singleton] at h
        rcases h with h | h
        . exact .inl h
        . cases h
          exact .inr ⟨rfl, (take_eq_error htake).1, note, request, hash, parts, hrequest, hphase⟩
      . next taken htake =>
        rw [log_put, log_record, log_take htake, List.mem_append, List.mem_singleton] at h
        rcases h with h | h
        . exact .inl h
        . cases h

theorem refuses_of_stepAccess {limits : Limits} {sha256 : Bytes → Bytes} {requests : Nat → Incoming}
    {route : AccessRoute} {note : String} {request : HttpRequest} {phase : Option Phase} {turn : Turn}
    (hrequest : requests id = .access route note request) (hphase : process.tasks.lookup id = phase)
    (h : (other, .packet false)
      ∈ (process.stepAccess limits id sha256 route note request phase turn).log)
    : (other, .packet false) ∈ process.log ∨ other = id ∧ process.Refuses requests id := by
  have happended {decision : Decision}
      (hmem : (other, .packet false) ∈ process.log ++ [(id, decision)])
      (hdecision : decision ≠ .packet false)
      : (other, .packet false) ∈ process.log ∨ other = id ∧ process.Refuses requests id := by
    rw [List.mem_append, List.mem_singleton] at hmem
    rcases hmem with hmem | hmem
    . exact .inl hmem
    . cases hmem
      exact absurd rfl hdecision
  unfold stepAccess at h
  split at h
  . unfold enterAccess at h
    split at h
    . exact .inl (by simpa using h)
    . split at h
      . rw [log_fail, log_record] at h
        exact happended h nofun
      . next htake =>
        rw [log_put, log_record, log_take htake] at h
        exact happended h nofun
  . dsimp only at h
    split at h
    . rw [log_fail, log_record, log_rate] at h
      exact happended h nofun
    . rw [log_put, log_record, log_rate] at h
      exact happended h nofun
  . split at h
    . exact .inl (by simpa using h)
    . exact .inl h
  . exact .inl (by simpa using h)
  . exact refuses_of_settle hrequest hphase h
  . exact .inl (by simpa using h)
  . exact .inl h
  . dsimp only at h
    split at h
    . exact .inl (by simpa using h)
    . exact .inl (by simpa using h)
  . exact .inl (by simpa using h)
  . exact .inl (by simpa using h)
  . exact .inl h

/--
Every refusal in the log was made while no packet slot was free.
-/
theorem refuses_of_stepTurn {sha256 : Bytes → Bytes} {limits : Limits} {requests : Nat → Incoming}
    {turn : Turn} (hplaced : ∀ phase, process.tasks.lookup id = some phase → (requests id).runs phase = true)
    (h : (other, .packet false) ∈ (process.stepTurn sha256 limits requests id turn).log)
    : (other, .packet false) ∈ process.log ∨ other = id ∧ process.Refuses requests id := by
  cases haccess : (requests id).isAccess with
  | false =>
    rw [(stepTurn_turned sha256 limits requests turn hplaced).log haccess] at h
    exact .inl h
  | true =>
    cases hrequest : requests id with
    | access route note request =>
      simp only [stepTurn, hrequest] at h
      exact refuses_of_stepAccess hrequest rfl h
    | _ =>
      rw [hrequest] at haccess
      cases haccess

end

-- A request that may still be refused for want of a packet slot.
def awaitsSlot : Option Phase → Bool
  | none | some .accessRate | some .reading | some (.asking _) | some (.answered _ (.ok _)) => true
  | _ => false

def isTurnedAway : Option Phase → Bool
  | some (.settled _) | some (.finished _) => true
  | _ => false

section

variable {process : Process} {id : Nat}

@[simp]
theorem lookup_put (phase : Phase) : (process.put id phase).tasks.lookup id = some phase :=
  Finmap.lookup_insert _

theorem tasks_leave (phase : Phase) (answer : Except Failure Payload)
    : (process.leave id phase answer).tasks.lookup id = some (.finished answer) := by
  rw [leave, foldl_drop]
  exact lookup_put _

theorem cache_leave (phase : Phase) (answer : Except Failure Payload)
    : (process.leave id phase answer).cache = process.cache := by
  rw [leave, foldl_drop]
  rfl

theorem cache_rate (name : String) (perSecond : ℚ) (delivery : Delivery)
    : (process.rate name perSecond delivery).2.cache = process.cache := by
  cases delivery with
  | delivered => rfl
  | lost executed => cases executed <;> rfl

theorem cache_take {slot : Slots} {taken : Process} (h : process.take slot = .ok taken)
    : taken.cache = process.cache := by
  rcases take_eq_ok h with ⟨left, _, rfl⟩
  rfl

theorem cache_settle (route : AccessRoute) (hash : String) (reply : Except ApiError (List Bytes))
    : (process.settle id route hash reply).cache = process.cache := by
  unfold settle
  split
  . rfl
  . rfl
  . split
    . rfl
    . split
      . rfl
      . next htake =>
        have hcache := cache_take htake
        exact hcache

theorem respond_eq_ok {reply : Option Reply} {parts : List Bytes} (h : respond reply = .ok parts)
    : reply = some (.ok parts) := by
  cases reply with
  | none => cases h
  | some reply =>
    cases reply with
    | ok parts' =>
      cases h
      rfl
    | _ => cases h

-- A check that lets an open pass has changed nothing.
theorem keys_of_checked {ledger : Ledger} {delivery : Delivery} {denied : Site → Bool}
    {note hash : Bytes} {parts : List Bytes} (hkeys : process.cache.keys = ledger.keyspace)
    (h : (process.call delivery denied (.access note hash .checkOpen)).1 = .ok parts)
    : (process.call delivery denied (.access note hash .checkOpen)).2.cache.keys
        = process.cache.keys := by
  rcases Store.run_access { now := process.cache.now, denied } ledger note hash .checkOpen with
    ⟨reply, ledger', hrun, haccessed⟩
  cases delivery with
  | lost executed => cases executed <;> cases h
  | delivered =>
    have hscript : (Request.access note hash .checkOpen).script.run
        { now := process.cache.now, denied } process.cache.keys = (reply, ledger'.keyspace) := by
      rw [hkeys]
      exact hrun
    simp only [call, hscript] at h ⊢
    have hreply : reply = some (.ok parts) := respond_eq_ok h
    cases haccessed with
    | checked => exact hkeys.symm
    | _ => simp at hreply

-- Of one request: that none of its turns has changed what the cache stores.
def Untouching (sha256 : Bytes → Bytes) (limits : Limits) (requests : Nat → Incoming) (id : Nat)
    (process : Process) (move : Move) : Prop :=
  (∃ turn, move = .turn id turn)
    → (process.step sha256 limits requests move).cache.keys = process.cache.keys

variable {limits : Limits} {sha256 : Bytes → Bytes} {requests : Nat → Incoming} {note : String}
  {request : HttpRequest}

theorem awaitsSlot_stepHeld {slot : Slots} {payload : Payload} {body : Bool} {chunks : Nat}
    {turn : Turn}
    (hphase : process.tasks.lookup id = some (.held slot payload body chunks))
    : awaitsSlot ((process.stepHeld id slot payload body chunks turn).tasks.lookup id) = false := by
  have hsame : awaitsSlot (process.tasks.lookup id) = false := by
    rw [hphase]
    rfl
  have hput (body' : Bool) (chunks' : Nat)
      : awaitsSlot ((process.put id (.held slot payload body' chunks')).tasks.lookup id) = false := by
    rw [lookup_put]
    rfl
  have hrelease (body' : Bool) (chunks' : Nat)
      : awaitsSlot ((process.release id slot payload body' chunks').tasks.lookup id) = false := by
    unfold release
    split
    . exact hput _ _
    . rw [tasks_leave]
      rfl
  unfold stepHeld
  split
  . split
    . exact hput _ _
    . exact hsame
  . split
    . exact hput _ _
    . exact hsame
  . split
    . exact hrelease _ _
    . exact hsame
  . split
    . exact hrelease _ _
    . exact hsame
  . exact hsame

theorem stepAccess_awaitsSlot {ledger : Ledger} {phase : Option Phase} {turn : Turn}
    (hkeys : process.cache.keys = ledger.keyspace) (hphase : process.tasks.lookup id = phase)
    (hruns : ∀ present, phase = some present
      → (Incoming.access .openNote note request).runs present = true)
    (h : awaitsSlot ((process.stepAccess limits id sha256 .openNote note request phase
      turn).tasks.lookup id) = true)
    : awaitsSlot phase = true
      ∧ (process.stepAccess limits id sha256 .openNote note request phase turn).cache.keys
        = process.cache.keys := by
  have hleft {carried : Process} {present : Phase} {answer : Except Failure Payload}
      (hleave : awaitsSlot ((carried.leave id present answer).tasks.lookup id) = true) : False := by
    rw [tasks_leave] at hleave
    cases hleave
  have hsame (hself : awaitsSlot (process.tasks.lookup id) = true)
      : awaitsSlot phase = true ∧ process.cache.keys = process.cache.keys := by
    rw [hphase] at hself
    exact ⟨hself, rfl⟩
  unfold stepAccess at h ⊢
  split at h
  . unfold enterAccess at h ⊢
    split at h
    . exact (hleft h).elim
    . next hvalid =>
      rw [if_neg hvalid]
      split at h
      . exact (hleft h).elim
      . next htake =>
        have hcache := cache_take htake
        exact ⟨rfl, congrArg Cache.keys hcache⟩
  . dsimp only at h ⊢
    split at h
    . exact (hleft h).elim
    . exact ⟨rfl, congrArg Cache.keys (cache_rate _ _ _)⟩
  . split at h
    . exact (hleft h).elim
    . exact ⟨rfl, rfl⟩
  . dsimp only at h ⊢
    rw [lookup_put] at h
    refine ⟨rfl, ?_⟩
    cases hreply : (process.call _ _ _).1 with
    | error error =>
      rw [hreply] at h
      cases h
    | ok parts => exact keys_of_checked hkeys hreply
  . simp only [settle] at h
    split at h
    . rw [lookup_put] at h
      cases h
    . split at h
      . rw [lookup_put] at h
        cases h
      . rw [lookup_put] at h
        cases h
  . exact (hleft h).elim
  . rw [lookup_put] at h
    cases h
  . dsimp only at h
    split at h
    . exact (hleft h).elim
    . rw [lookup_put] at h
      cases h
  . rw [awaitsSlot_stepHeld hphase] at h
    cases h
  . unfold abort at h ⊢
    split at h
    . exact (hleft h).elim
    . next hwaits =>
      rw [if_neg hwaits]
      exact hsame h
  . exact hsame h

theorem stepAccess_isTurnedAway (limits : Limits) (sha256 : Bytes → Bytes) (route : AccessRoute)
    (note : String) (request : HttpRequest) {phase : Option Phase} (turn : Turn)
    (hphase : process.tasks.lookup id = phase) (h : isTurnedAway phase = true)
    : isTurnedAway ((process.stepAccess limits id sha256 route note request phase
          turn).tasks.lookup id) = true
      ∧ (process.stepAccess limits id sha256 route note request phase turn).cache.keys
        = process.cache.keys := by
  have hsame : isTurnedAway (process.tasks.lookup id) = true := by
    rw [hphase]
    exact h
  rcases phase with _ | phase
  . cases h
  cases phase with
  | settled answer =>
    cases turn with
    | proceed =>
      rw [stepAccess, tasks_leave, cache_leave]
      exact ⟨rfl, rfl⟩
    | _ => exact ⟨hsame, rfl⟩
  | finished answer =>
    cases turn with
    | _ => exact ⟨hsame, rfl⟩
  | _ => cases h

theorem log_isTurnedAway (limits : Limits) (sha256 : Bytes → Bytes) (route : AccessRoute)
    (note : String) (request : HttpRequest) {phase : Option Phase} (turn : Turn)
    (h : isTurnedAway phase = true)
    : (process.stepAccess limits id sha256 route note request phase turn).log = process.log := by
  rcases phase with _ | phase
  . cases h
  cases phase with
  | settled answer =>
    cases turn with
    | proceed => exact log_leave _ _
    | _ => rfl
  | finished answer => cases turn <;> rfl
  | _ => cases h

theorem settle_refused (hash : String) (parts : List Bytes) (hnone : process.free .packets = 0)
    : isTurnedAway ((process.settle id .openNote hash (.ok parts)).tasks.lookup id) = true := by
  simp only [settle]
  split
  . rw [lookup_put]
    rfl
  . next taken htake =>
    rcases take_eq_ok htake with ⟨left, hleft, _⟩
    omega

-- The cache behind the process holds a ledger.
def Stored (process : Process) : Prop := ∃ ledger : Ledger, process.cache.keys = ledger.keyspace

theorem Stored.scripted {next : Process} (h : process.Stored) (hscripted : process.Scripted next)
    : next.Stored := by
  rcases h with ⟨ledger, hkeys⟩
  rcases hscripted with hsame | ⟨denied, called, hcalled⟩
  . exact ⟨ledger, hsame.trans hkeys⟩
  . rcases Store.run_script { now := process.cache.now, denied } ledger called with
      ⟨reply, ledger', hrun, _⟩
    refine ⟨ledger', ?_⟩
    rw [hcalled, hkeys, hrun]

theorem Stored.step (h : process.Stored) (hordered : process.Ordered limits requests) (move : Move)
    : (process.step sha256 limits requests move).Stored := by
  cases move with
  | elsewhere event =>
    rcases h with ⟨ledger, hkeys⟩
    rcases Store.step_keyspace process.cache.now ledger event with ⟨ledger', answers, hstep, _⟩
    have hcache : process.cache = { now := process.cache.now, keys := ledger.keyspace } := by
      rw [← hkeys]
    refine ⟨ledger', ?_⟩
    rw [Process.step, hcache, hstep]
  | turn id turn =>
    exact h.scripted (stepTurn_turned sha256 limits requests turn (hordered.placed id)).scripted

theorem Stored.run (h : process.Stored) (hordered : process.Ordered limits requests)
    (moves : List Move)
    : (process.run sha256 limits requests moves).Stored := by
  induction moves generalizing process with
  | nil => exact h
  | cons move moves ih => exact ih (h.step hordered move) (hordered.step sha256 move)

-- While a request may be turned away, and once it is, none of its turns has changed the cache.
structure Blameless (sha256 : Bytes → Bytes) (limits : Limits) (requests : Nat → Incoming)
    (start : Process) (id : Nat) (moves : List Move) : Prop where
  waiting : awaitsSlot ((start.run sha256 limits requests moves).tasks.lookup id) = true
    → Runs.Along (step sha256 limits requests) (Untouching sha256 limits requests id) start moves
  refused : (id, .packet false) ∈ (start.run sha256 limits requests moves).log
    → isTurnedAway ((start.run sha256 limits requests moves).tasks.lookup id) = true
      ∧ Runs.Along (step sha256 limits requests) (Untouching sha256 limits requests id) start moves

end

section

variable {sha256 : Bytes → Bytes} {limits : Limits} {requests : Nat → Incoming}
  {process start : Process} {id : Nat} {moves : List Move}

theorem run_append (more : List Move)
    : start.run sha256 limits requests (moves ++ more)
        = (start.run sha256 limits requests moves).run sha256 limits requests more :=
  List.foldl_append

theorem along_snoc {move : Move}
    (h : Runs.Along (step sha256 limits requests) (Untouching sha256 limits requests id) start moves)
    (hmove : Untouching sha256 limits requests id (start.run sha256 limits requests moves) move)
    : Runs.Along (step sha256 limits requests) (Untouching sha256 limits requests id) start
        (moves ++ [move]) :=
  Runs.along_append.mpr ⟨h, hmove, trivial⟩

theorem Turned.lookup_of_ne {incoming : Incoming} {next : Process} {other : Nat}
    (h : Turned incoming process next id) (hother : other ≠ id)
    : next.tasks.lookup other = process.tasks.lookup other := by
  rcases h.tasks with ⟨htasks, _⟩ | ⟨phase, _, htasks, _⟩
  . rw [htasks]
  . rw [htasks, FiniteMap.lookup_insert_ite, if_neg hother]

-- What another party does is nothing to the request.
theorem Blameless.elsewhere {move : Move} (h : Blameless sha256 limits requests start id moves)
    (hmove : ∀ turn, move ≠ .turn id turn)
    (htasks : ((start.run sha256 limits requests moves).step sha256 limits requests move).tasks.lookup id
      = (start.run sha256 limits requests moves).tasks.lookup id)
    (hlog : (id, .packet false)
        ∈ ((start.run sha256 limits requests moves).step sha256 limits requests move).log
      → (id, .packet false) ∈ (start.run sha256 limits requests moves).log)
    : Blameless sha256 limits requests start id (moves ++ [move]) := by
  have huntouching : Untouching sha256 limits requests id (start.run sha256 limits requests moves)
      move := fun ⟨turn, hturn⟩ => absurd hturn (hmove turn)
  constructor
  . intro hwaiting
    rw [run_append] at hwaiting
    change awaitsSlot (((start.run sha256 limits requests moves).step sha256 limits requests
      move).tasks.lookup id) = true at hwaiting
    rw [htasks] at hwaiting
    exact along_snoc (h.waiting hwaiting) huntouching
  . intro hrefused
    rw [run_append] at hrefused ⊢
    rcases h.refused (hlog hrefused) with ⟨haway, halong⟩
    refine ⟨?_, along_snoc halong huntouching⟩
    change isTurnedAway (((start.run sha256 limits requests moves).step sha256 limits requests
      move).tasks.lookup id) = true
    rw [htasks]
    exact haway

theorem Blameless.turn {note : String} {request : HttpRequest}
    (hrequest : requests id = .access .openNote note request)
    (hordered : (start.run sha256 limits requests moves).Ordered limits requests)
    (hstored : (start.run sha256 limits requests moves).Stored)
    (h : Blameless sha256 limits requests start id moves) (turn : Turn)
    : Blameless sha256 limits requests start id (moves ++ [.turn id turn]) := by
  rcases hstored with ⟨ledger, hkeys⟩
  have hstep : (start.run sha256 limits requests moves).step sha256 limits requests (.turn id turn)
      = (start.run sha256 limits requests moves).stepAccess limits id sha256 .openNote note request
          ((start.run sha256 limits requests moves).tasks.lookup id) turn := by
    simp only [step, stepTurn, hrequest]
  have hlast : start.run sha256 limits requests (moves ++ [.turn id turn])
      = (start.run sha256 limits requests moves).stepAccess limits id sha256 .openNote note request
          ((start.run sha256 limits requests moves).tasks.lookup id) turn := by
    rw [run_append, ← hstep]
    rfl
  have hruns := hordered.placed id
  rw [hrequest] at hruns
  constructor
  . intro hwaiting
    rw [hlast] at hwaiting
    rcases stepAccess_awaitsSlot hkeys rfl hruns hwaiting with ⟨hbefore, hsame⟩
    refine along_snoc (h.waiting hbefore) fun _ => ?_
    rw [hstep]
    exact hsame
  . intro hrefused
    rw [hlast] at hrefused ⊢
    have hkept (hbefore : (id, .packet false) ∈ (start.run sha256 limits requests moves).log)
        : isTurnedAway (((start.run sha256 limits requests moves).stepAccess limits id sha256 .openNote
              note request ((start.run sha256 limits requests moves).tasks.lookup id) turn).tasks.lookup
              id) = true
          ∧ Runs.Along (step sha256 limits requests) (Untouching sha256 limits requests id) start
              (moves ++ [.turn id turn]) := by
      rcases h.refused hbefore with ⟨haway, halong⟩
      rcases stepAccess_isTurnedAway limits sha256 .openNote note request turn rfl haway with
        ⟨hnext, hsame⟩
      refine ⟨hnext, along_snoc halong fun _ => ?_⟩
      rw [hstep]
      exact hsame
    rcases refuses_of_stepAccess hrequest rfl hrefused with hbefore | ⟨_, hrefuses⟩
    . exact hkept hbefore
    rcases hrefuses.phase with ⟨note', request', hash, parts, _, hphase⟩
    rw [hphase] at hrefused hkept hstep ⊢
    cases turn with
    | proceed =>
      have hwaiting : awaitsSlot ((start.run sha256 limits requests moves).tasks.lookup id) = true := by
        rw [hphase]
        rfl
      refine ⟨settle_refused hash parts hrefuses.none, along_snoc (h.waiting hwaiting) fun _ => ?_⟩
      rw [hstep]
      exact congrArg Cache.keys (cache_settle _ _ _)
    | abort =>
      have habort : (id, .packet false) ∈ ((start.run sha256 limits requests moves).abort id
          (.answered hash (.ok parts))).log := hrefused
      rw [log_abort] at habort
      exact hkept habort
    | _ => exact hkept hrefused

theorem blameless {note : String} {request : HttpRequest}
    (hrequest : requests id = .access .openNote note request)
    (hordered : start.Ordered limits requests) (hstored : start.Stored) (hlog : start.log = [])
    (moves : List Move)
    : Blameless sha256 limits requests start id moves := by
  induction moves using List.reverseRecOn with
  | nil =>
    constructor
    . intro _
      trivial
    . intro hrefused
      change (id, .packet false) ∈ start.log at hrefused
      rw [hlog] at hrefused
      cases hrefused
  | append_singleton moves move ih =>
    have hrun := hordered.run sha256 moves
    cases move with
    | elsewhere event => exact ih.elsewhere nofun rfl fun hbefore => hbefore
    | turn other turn =>
      by_cases hother : other = id
      . subst hother
        exact ih.turn hrequest hrun (hstored.run hordered moves) turn
      . have hturned := stepTurn_turned sha256 limits requests turn (hrun.placed other)
        refine ih.elsewhere ?_ (hturned.lookup_of_ne (Ne.symm hother)) ?_
        . intro turn' hturn
          cases hturn
          exact hother rfl
        . intro hrefused
          rcases refuses_of_stepTurn (hrun.placed other) hrefused with hbefore | ⟨rfl, _⟩
          . exact hbefore
          . exact absurd rfl hother

-- A refusal in the log belongs to an open that the router has handed on.
theorem openNote_of_refused (hordered : start.Ordered limits requests) (hlog : start.log = [])
    (h : (id, .packet false) ∈ (start.run sha256 limits requests moves).log)
    : ∃ note request, requests id = .access .openNote note request := by
  induction moves using List.reverseRecOn with
  | nil =>
    change (id, .packet false) ∈ start.log at h
    rw [hlog] at h
    cases h
  | append_singleton moves move ih =>
    rw [run_append] at h
    cases move with
    | elsewhere event => exact ih h
    | turn other turn =>
      rcases refuses_of_stepTurn ((hordered.run sha256 moves).placed other) h with hbefore | ⟨rfl, hrefuses⟩
      . exact ih hbefore
      . rcases hrefuses.phase with ⟨note, request, _, _, hrequest, _⟩
        exact ⟨note, request, hrequest⟩

theorem untouching_of_refused (hordered : start.Ordered limits requests) (hstored : start.Stored)
    (hlog : start.log = [])
    (h : (id, .packet false) ∈ (start.run sha256 limits requests moves).log)
    : Runs.Along (step sha256 limits requests) (Untouching sha256 limits requests id) start moves := by
  rcases openNote_of_refused hordered hlog h with ⟨note, request, hrequest⟩
  exact ((blameless hrequest hordered hstored hlog moves).refused h).2

-- What the access requests alone do to what decides about them.
def admissionStep (sha256 : Bytes → Bytes) (limits : Limits) (requests : Nat → Incoming)
    (admission : Admission) : Move → Admission
  | .elsewhere event => { admission with now := admission.now + Store.Event.elapsed event }
  | .turn id turn =>
    if (requests id).isAccess then
      admission.turn limits ((requests id).readable sha256) id (admission.places id) turn
    else
      admission

theorem free_accessControls {next : Process} {phase : Phase}
    (hplaced : ∀ phase, process.tasks.lookup id = some phase → (requests id).runs phase = true)
    (hother : (requests id).isAccess = false) (hruns : (requests id).runs phase = true)
    (hbalanced : process.Balanced next id phase)
    : next.free .accessControls = process.free .accessControls := by
  have hnone (present : Phase) (hpresent : (requests id).runs present = true)
      : present.permits.count .accessControls = 0 := by
    cases hrequest : requests id with
    | access route note request =>
      rw [hrequest] at hother hpresent
      have hinvalid : validId note = false := hother
      cases present with
      | finished answer => rfl
      | held slot payload body chunks => cases slot <;> simp [Incoming.runs, hinvalid] at hpresent
      | _ => simp [Incoming.runs, hinvalid] at hpresent
    | _ =>
      rw [hrequest] at hpresent
      cases present with
      | held slot payload body chunks =>
        cases slot with
        | staticSlots => rfl
        | _ => cases hpresent
      | _ => first | rfl | cases hpresent
  have hbalance := hbalanced .accessControls
  rw [hnone phase hruns] at hbalance
  have hheld : (Permits.heldBy Phase.permits process.tasks id).count .accessControls = 0 := by
    cases hphase : process.tasks.lookup id with
    | none => rw [heldBy_none hphase, List.count_nil]
    | some present => rw [heldBy_eq hphase, hnone present (hplaced present hphase)]
  rw [hheld] at hbalance
  exact hbalance

/--
The process refines the admission of its access requests, whatever else it serves.
-/
theorem step_admission (hordered : process.Ordered limits requests) (move : Move)
    : (process.step sha256 limits requests move).admission requests
        = admissionStep sha256 limits requests (process.admission requests) move := by
  cases move with
  | elsewhere event =>
    apply Admission.ext
    . rfl
    . rfl
    . cases event with
      | tick elapsed => rfl
      | expire key => rfl
      | call denied request => rfl
    . rfl
    . rfl
  | turn id turn =>
    cases haccess : (requests id).isAccess with
    | true =>
      simp only [admissionStep, haccess, if_true]
      cases hrequest : requests id with
      | access route note request =>
        have hvalid : validId note = true := by
          rw [hrequest] at haccess
          exact haccess
        have hruns := hordered.placed id
        rw [hrequest] at hruns
        have hplace : (process.admission requests).places id
            = ((process.tasks.lookup id).map Phase.place).getD .absent := by
          simp only [admission, place, haccess, if_true]
        rw [hplace]
        simp only [step, stepTurn, hrequest, Incoming.readable]
        exact stepAccess_admission turn haccess hvalid rfl hruns
      | _ =>
        rw [hrequest] at haccess
        cases haccess
    | false =>
      have hturned := stepTurn_turned sha256 limits requests turn (hordered.placed id)
      simp only [admissionStep, haccess, Bool.false_eq_true, if_false]
      apply Admission.ext
      . rcases hturned.tasks with ⟨_, hfree⟩ | ⟨phase, hruns, _, hbalanced⟩
        . exact congrFun hfree _
        . exact free_accessControls (hordered.placed id) haccess hruns hbalanced
      . exact hturned.buckets haccess
      . exact hturned.now
      . funext other
        by_cases hother : other = id
        . simp only [admission, place, hother, haccess, Bool.false_eq_true, if_false]
        . simp only [admission, place]
          rw [step, hturned.lookup_of_ne hother]
      . have hlog := hturned.log haccess
        simp only [admission, step, hlog]

-- The moves that stay when all other requests are taken away.
def keepsAccess (requests : Nat → Incoming) : Move → Bool
  | .elsewhere _ => true
  | .turn id _ => (requests id).isAccess

theorem admission_run (hordered : start.Ordered limits requests) (moves : List Move)
    : (start.run sha256 limits requests moves).admission requests
        = (start.run sha256 limits requests (moves.filter (keepsAccess requests))).admission requests := by
  let Related (left right : Process) : Prop := left.Ordered limits requests
    ∧ right.Ordered limits requests ∧ left.admission requests = right.admission requests
  have hvisible {left right : Process} {move : Move} (_ : keepsAccess requests move = true)
      (h : Related left right)
      : Related (left.step sha256 limits requests move) (right.step sha256 limits requests move) := by
    rcases h with ⟨hleft, hright, hsame⟩
    refine ⟨hleft.step sha256 move, hright.step sha256 move, ?_⟩
    rw [step_admission hleft, step_admission hright, hsame]
  have hother {left right : Process} {move : Move} (hmove : keepsAccess requests move = false)
      (h : Related left right)
      : Related (left.step sha256 limits requests move) right := by
    rcases h with ⟨hleft, hright, hsame⟩
    refine ⟨hleft.step sha256 move, hright, ?_⟩
    rw [step_admission hleft]
    cases move with
    | elsewhere event => cases hmove
    | turn id turn =>
      have hnot : (requests id).isAccess = false := hmove
      simp only [admissionStep, hnot, Bool.false_eq_true, if_false]
      exact hsame
  have hrelated : Related (moves.foldl (step sha256 limits requests) start)
      ((moves.filter (keepsAccess requests)).foldl (step sha256 limits requests) start) :=
    Runs.purge hvisible hother ⟨hordered, hordered, rfl⟩
  exact hrelated.2.2

end

end Process

open Process in
theorem creation_cannot_starve_recipients (sha256 : Bytes → Bytes) (limits : Limits)
    (requests : Nat → Incoming) (ledger : Ledger) (now : Nat) (buckets : String → Option Bucket)
    {start : Process} (hstart : buildRouter limits (ledger.cache now) buckets = .ok start)
    (moves : List Move)
    : let last := start.run sha256 limits requests moves
      last.uploading ≤ limits.maxInFlight - 1
      ∧ last.uploading + last.downloading ≤ limits.maxInFlight
      ∧ (∀ id turn, (last.step sha256 limits requests (.turn id turn)).log
            = last.log ++ [(id, .packet false)]
          → ∃ other phase, other ≠ id ∧ last.tasks.lookup other = some phase
              ∧ phase.isDownload = true)
      ∧ (∀ id, (id, .packet false) ∈ last.log
          → Runs.Along (step sha256 limits requests) (Untouching sha256 limits requests id) start moves)
      ∧ last.log.filter (fun entry => entry.2.isAdmission)
        = (start.run sha256 limits requests (moves.filter (keepsAccess requests))).log.filter
            fun entry => entry.2.isAdmission := by
  intro last
  have hordered : start.Ordered limits requests := ordered_buildRouter hstart
  have hlast : last.Ordered limits requests := hordered.run sha256 moves
  have hbuilt : 2 ≤ limits.maxInFlight ∧ start.log = [] ∧ start.Stored := by
    unfold buildRouter at hstart
    split at hstart
    . cases hstart
    . next hlimit =>
      cases hstart
      exact ⟨by omega, rfl, ledger, rfl⟩
  rcases hbuilt with ⟨hlimit, hlog, hstored⟩
  have hpackets := hlast.free_packets
  refine ⟨hlast.uploading_le, by omega, ?_, ?_, ?_⟩
  . intro id turn hrefused
    have hmem : (id, .packet false) ∈ (last.stepTurn sha256 limits requests id turn).log := by
      change (id, .packet false) ∈ (last.step sha256 limits requests (.turn id turn)).log
      rw [hrefused]
      exact List.mem_append_right _ (List.mem_singleton_self _)
    rcases refuses_of_stepTurn (hlast.placed id) hmem with hbefore | ⟨_, hrefuses⟩
    . rcases openNote_of_refused hordered hlog hbefore with ⟨note, request, hrequest⟩
      have haway := ((blameless hrequest hordered hstored hlog moves).refused hbefore).1
      have hsame : (last.stepAccess limits id sha256 .openNote note request (last.tasks.lookup id)
          turn).log = last.log :=
        log_isTurnedAway limits sha256 .openNote note request turn haway
      simp only [step, stepTurn, hrequest] at hrefused
      rw [hsame] at hrefused
      simp at hrefused
    . rcases hlast.exists_download hlimit hrefuses.none with ⟨other, phase, hphase, hdownload⟩
      refine ⟨other, phase, ?_, hphase, hdownload⟩
      rintro rfl
      rcases hrefuses.phase with ⟨_, _, _, _, _, hanswered⟩
      rw [hanswered] at hphase
      cases hphase
      cases hdownload
  . intro id hrefused
    exact untouching_of_refused hordered hstored hlog hrefused
  . exact congrArg Admission.log (admission_run hordered moves)

def exampleLimits : Limits where
  config := Config.new
  maxInFlight := 2
  requestRate := 100
  challengeRate := 10
  createRate := 8

def exampleToken : String := String.ofList (List.replicate 43 'A')

def constantSha256 (_ : Bytes) : Bytes := List.replicate 32 187

def exampleKept : Store.Note where
  packet := [1]
  header := [2]
  peek := [3]
  read := asBytes (digest constantSha256 [])
  revoke := [4]
  expires := 420
  remaining := 2
  expireAt := some 420000

-- A note that whoever has the token can open, and a challenge for an upload.
def exampleLedger : Ledger :=
  (Ledger.empty.setNote (asBytes exampleToken) (some exampleKept)).setLease (asBytes exampleToken)
    (some { expires := 420, bits := 18, expireAt := 420000 })

def exampleOpener : HttpRequest where
  contentType := [asBytes "application/json"]
  contentLength := []
  body := .complete (asBytes ("\x7b\"token\":\"" ++ exampleToken ++ "\"\x7d"))

-- An upload and two recipients.
def exampleTraffic : Nat → Incoming
  | 0 => .createNote [asBytes exampleToken] [asBytes "0"] exampleOpener
  | 1 => .access .openNote exampleToken exampleOpener
  | 2 => .access .openNote exampleToken exampleOpener
  | _ => .page

def exampleAnswer : Turn := .reply .delivered fun _ => false

-- The upload waits for its body, one recipient is served and the other is about to ask for a slot.
def exampleBusyMoves : List Move :=
  [.arrive, exampleAnswer, exampleAnswer, exampleAnswer, .proceed, .proceed, .proceed].map (.turn 0)
    ++ [.arrive, exampleAnswer, exampleAnswer, exampleAnswer, .proceed].map (.turn 1)
    ++ [.arrive, exampleAnswer, exampleAnswer, exampleAnswer].map (.turn 2)

def exampleProcess : Process where
  free := exampleLimits.capacity
  buckets _ := none
  cache := exampleLedger.cache 0
  tasks := ∅
  log := []

theorem exampleProcess_built
    : buildRouter exampleLimits (exampleLedger.cache 0) (fun _ => none) = .ok exampleProcess :=
  rfl

theorem creation_cannot_starve_recipients_exampleTraffic
    : let last := exampleProcess.run constantSha256 exampleLimits exampleTraffic exampleBusyMoves
      last.uploading = 1 ∧ last.uploading + last.downloading ≤ 2
        ∧ (1, .packet true) ∈ last.log
        ∧ ∃ other phase, other ≠ 2 ∧ last.tasks.lookup other = some phase ∧ phase.isDownload = true := by
  intro last
  have huploading : last.uploading = 1 := by decide +kernel
  have hserved : (1, .packet true) ∈ last.log := by decide +kernel
  have hrefused : (last.step constantSha256 exampleLimits exampleTraffic (.turn 2 .proceed)).log
      = last.log ++ [(2, .packet false)] := by decide +kernel
  rcases creation_cannot_starve_recipients constantSha256 exampleLimits exampleTraffic exampleLedger 0
    (fun _ => none) exampleProcess_built exampleBusyMoves with ⟨-, hbounded, hdownload, -, -⟩
  exact ⟨huploading, hbounded, hserved, hdownload 2 .proceed hrefused⟩

end Server
