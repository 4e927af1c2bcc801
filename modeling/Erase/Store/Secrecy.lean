import Erase.Server.Handlers
import Erase.Store.ProofOfWork

namespace Store

open Server Server.Lua Valkey Script

def noteField (cache : Cache) (id field : Bytes) : Option Bytes :=
  (cache.keys.hash? (.note id)).bind fun fields => fields.lookup field

def roleHash (cache : Cache) (id : Bytes) (operation : Operation) : Option Bytes :=
  (Lua.Operation.capability operation).bind (noteField cache id)

def HoldsLive (cache : Cache) (id : Bytes) : Prop :=
  ∃ expires, (noteField cache id Field.expires).bind tonumber = some expires
    ∧ cache.now / 1000 < expires

-- The caches differ only in what they record for `id`.
structure AgreesExcept (id : Bytes) (cache cache' : Cache) : Prop where
  now : cache.now = cache'.now
  index : (cache.keys.zset? .notes).map (fun index => index.erase id)
    = (cache'.keys.zset? .notes).map fun index => index.erase id
  charges : (cache.keys.hash? .charges).map (fun charges => charges.erase id)
    = (cache'.keys.hash? .charges).map fun charges => charges.erase id
  rest : ∀ key, key ≠ .note id → key ≠ .notes → key ≠ .charges → key ≠ .bytes
    → cache.keys key = cache'.keys key

namespace AgreesExcept

variable {id : Bytes} {cache cache' cache'' : Cache}

theorem refl (id : Bytes) (cache : Cache) : AgreesExcept id cache cache where
  now := rfl
  index := rfl
  charges := rfl
  rest _ _ _ _ _ := rfl

theorem symm (h : AgreesExcept id cache cache') : AgreesExcept id cache' cache where
  now := h.now.symm
  index := h.index.symm
  charges := h.charges.symm
  rest key hnote hindex hcharges htotal := (h.rest key hnote hindex hcharges htotal).symm

theorem trans (h : AgreesExcept id cache cache') (h' : AgreesExcept id cache' cache'')
    : AgreesExcept id cache cache'' where
  now := h.now.trans h'.now
  index := h.index.trans h'.index
  charges := h.charges.trans h'.charges
  rest key hnote hindex hcharges htotal :=
    (h.rest key hnote hindex hcharges htotal).trans (h'.rest key hnote hindex hcharges htotal)

theorem of_ledger {now : Nat} {ledger ledger' : Ledger}
    (hnotes : ∀ other, other ≠ id → ledger.notes other = ledger'.notes other)
    (hindex : ledger.index.erase id = ledger'.index.erase id)
    (hcharges : ledger.charges.erase id = ledger'.charges.erase id)
    (hleases : ledger.leases = ledger'.leases) (hspent : ledger.spent = ledger'.spent)
    (hchallenges : ledger.challenges = ledger'.challenges)
    : AgreesExcept id (ledger.cache now) (ledger'.cache now) where
  now := rfl
  index := by
    have hread : ∀ ledger : Ledger, (ledger.cache now).keys.zset? .notes = some ledger.index :=
      fun _ => Keyspace.zset?_ofZset rfl
    rw [hread, hread, Option.map_some, Option.map_some, hindex]
  charges := by
    have hread : ∀ ledger : Ledger, (ledger.cache now).keys.hash? .charges
        = some (ledger.charges.mapValues tostring) :=
      fun _ => Keyspace.hash?_ofHash rfl
    rw [hread, hread, Option.map_some, Option.map_some, ← FiniteMap.mapValues_erase,
      ← FiniteMap.mapValues_erase, hcharges]
  rest key hnote hindex hcharges htotal := by
    cases key with
    | note other =>
      have hother : other ≠ id := by simpa using hnote
      simp only [Ledger.cache, Ledger.keyspace, hnotes other hother]
    | notes => exact absurd rfl hindex
    | charges => exact absurd rfl hcharges
    | bytes => exact absurd rfl htotal
    | challenge token => simp only [Ledger.cache, Ledger.keyspace, hleases]
    | spent token => simp only [Ledger.cache, Ledger.keyspace, hspent]
    | challenges => simp only [Ledger.cache, Ledger.keyspace, hchallenges]

theorem release (now : Nat) (ledger : Ledger) (id : Bytes)
    : AgreesExcept id (ledger.cache now) ((ledger.release id).cache now) :=
  of_ledger (fun _ hother => (Function.update_of_ne hother _ _).symm)
    (FiniteMap.erase_erase_self _ _).symm (FiniteMap.erase_erase_self _ _).symm rfl rfl rfl

theorem setNote (now : Nat) (ledger : Ledger) (id : Bytes) (note : Option Note)
    : AgreesExcept id (ledger.cache now) ((ledger.setNote id note).cache now) :=
  of_ledger (fun _ hother => (Function.update_of_ne hother _ _).symm) rfl rfl rfl rfl rfl

end AgreesExcept

section

variable {now : Nat} {ledger : Ledger} {id : Bytes} {note : Note}

theorem noteField_cache (hnote : ledger.notes id = some note) (field : Bytes)
    : noteField (ledger.cache now) id field = note.fields.lookup field := by
  simp [noteField, Ledger.cache, ledger.hash?_note hnote]

theorem roleHash_cache (hnote : ledger.notes id = some note) {operation : Operation}
    (hknown : operation ≠ .other)
    : roleHash (ledger.cache now) id operation = note.capability operation := by
  unfold roleHash
  cases hfield : Lua.Operation.capability operation with
  | none => cases operation <;> first | exact absurd rfl hknown | cases hfield
  | some field => rw [Option.bind_some, noteField_cache hnote, lookup_capability note hfield]

theorem not_holdsLive (hnote : ledger.notes id = some note) (hexpired : note.expires ≤ now / 1000)
    : ¬HoldsLive (ledger.cache now) id := by
  rintro ⟨expires, hexpires, hlive⟩
  have hparsed : tonumber (tostring note.expires) = some note.expires := Decimal.parse?_print _
  rw [noteField_cache hnote, Note.lookup_expires, Option.bind_some, hparsed] at hexpires
  cases hexpires
  exact absurd hlive (Nat.not_lt.mpr hexpired)

end

theorem Accessed.of_unauthorized {env : Environment Site} {ledger ledger' : Ledger}
    {id hash : Bytes} {operation : Operation} {reply : Option Reply}
    (h : Accessed env ledger id hash operation reply ledger') (hallows : AllowsRelease env)
    (hknown : operation ≠ .other)
    (hdenied : ∀ note, ledger.notes id = some note → ¬note.Authorizes operation hash)
    : reply = some .unavailable
        ∧ (ledger' = ledger
          ∨ ledger' = ledger.release id
            ∧ ∃ note, ledger.notes id = some note ∧ note.expires ≤ env.now / 1000) := by
  cases h with
  | missing => exact ⟨rfl, .inl rfl⟩
  | expired hnote hexpired hreleased =>
    rcases hreleased.exact hallows with ⟨rfl, rfl⟩
    exact ⟨rfl, .inr ⟨rfl, _, hnote, hexpired⟩⟩
  | refused => exact ⟨rfl, .inl rfl⟩
  | unknown => exact absurd rfl hknown
  | exhausted hnote _ hallowed => exact absurd hallowed (hdenied _ hnote)
  | checked hnote _ hallowed => exact absurd hallowed (hdenied _ hnote)
  | described hnote _ hallowed => exact absurd hallowed (hdenied _ hnote)
  | deleted hnote _ hallowed => exact absurd hallowed (hdenied _ hnote)
  | openedLast hnote _ hallowed => exact absurd hallowed (hdenied _ hnote)
  | opened hnote _ hallowed => exact absurd hallowed (hdenied _ hnote)
  | undecremented hnote _ hallowed => exact absurd hallowed (hdenied _ hnote)

theorem access_unauthorized {cache : Cache} {ledger : Ledger} {id hash : String}
    {operation : Operation} (hcache : cache = ledger.cache cache.now) (hknown : operation ≠ .other)
    (h : roleHash cache (asBytes id) operation ≠ some (asBytes hash))
    : ∃ cache', cache.access id hash operation = (.error .unavailable, cache')
        ∧ AgreesExcept (asBytes id) cache cache'
        ∧ (HoldsLive cache (asBytes id) → cache' = cache) := by
  generalize cache.now = now at hcache
  subst hcache
  have hdenied : ∀ note, ledger.notes (asBytes id) = some note
      → ¬note.Authorizes operation (asBytes hash) := by
    intro note hnote hallowed
    rw [roleHash_cache hnote hknown] at h
    exact h hallowed.1
  rcases run_access { now, denied := fun _ => false } ledger (asBytes id) (asBytes hash) operation
    with ⟨reply, ledger', hrun, haccessed⟩
  have haccess : (ledger.cache now).access id hash operation
      = (respond reply, ledger'.cache now) := by
    simp only [Cache.access, Ledger.cache, hrun]
  rcases haccessed.of_unauthorized (fun _ => ⟨rfl, rfl, rfl, rfl⟩) hknown hdenied
    with ⟨rfl, rfl | ⟨rfl, note, hnote, hexpired⟩⟩
  . exact ⟨_, haccess, .refl _ _, fun _ => rfl⟩
  . exact ⟨_, haccess, .release now ledger _, fun hlive => absurd hlive (not_holdsLive hnote hexpired)⟩

theorem Accessed.agreesExcept {env : Environment Site} {ledger ledger' : Ledger} {id hash : Bytes}
    {operation : Operation} {reply : Option Reply}
    (h : Accessed env ledger id hash operation reply ledger') (hallows : AllowsRelease env)
    : AgreesExcept id (ledger.cache env.now) (ledger'.cache env.now) := by
  have hrelease : ∀ {outcome ledger'}, Released env ledger id outcome ledger'
      → AgreesExcept id (ledger.cache env.now) (ledger'.cache env.now) := by
    intro outcome ledger' hreleased
    rw [(hreleased.exact hallows).2]
    exact .release _ _ _
  cases h with
  | missing => exact .refl _ _
  | expired _ _ hreleased => exact hrelease hreleased
  | refused => exact .refl _ _
  | unknown => exact .refl _ _
  | exhausted _ _ _ _ hreleased => exact hrelease hreleased
  | checked => exact .refl _ _
  | described => exact .refl _ _
  | deleted _ _ _ _ hreleased => exact hrelease hreleased
  | openedLast _ _ _ _ hreleased => exact hrelease hreleased
  | opened => exact .setNote _ _ _ _
  | undecremented => exact .refl _ _

-- No token of the request hashes to the hash that the note keeps for the operation.
def Unauthorized (sha256 : Bytes → Bytes) (cache : Cache) (id : String) (operation : Operation)
    (request : HttpRequest) : Prop :=
  ∀ capability hash, request.capability = .ok capability
    → tokenHash sha256 capability.token = .ok hash
    → roleHash cache (asBytes id) operation ≠ some (asBytes hash)

-- A request that reaches its token.
def IsAdmitted (state : AppState) (now : Nat) (id : String) (request : HttpRequest) : Prop :=
  validId id = true ∧ state.accessControls ≠ 0 ∧ (state.rateAccess now).1 = true
    ∧ ∃ capability, request.capability = .ok capability

-- An answer of a handler that neither tells nor touches a note.
structure Refused (state : AppState) (id : String) (request : HttpRequest) (cache : Cache)
    (served : Served) : Prop where
  error : ∃ error, served.answer = .error error
  unavailable : IsAdmitted state cache.now id request → served.answer = .error .unavailable
  others : AgreesExcept (asBytes id) cache served.cache
  live : HoldsLive cache (asBytes id) → served.cache = cache

-- Two runs of a handler that differ in the records of `id` and in the free packet slots.
structure Oblivious (id : String) (packets : Nat) (served served' : Served) : Prop where
  answer : served.answer = served'.answer
  state : served'.state = { served.state with packets }
  cache : AgreesExcept (asBytes id) served.cache served'.cache

section

variable {sha256 : Bytes → Bytes} {state state' : AppState} {now packets : Nat} {id hash : String}
  {request : HttpRequest} {cache cache' : Cache} {error : ApiError}

theorem tokenHash_error {token : String} (h : tokenHash sha256 token = .error error)
    : error = .unavailable := by
  unfold tokenHash at h
  split at h
  . cases h
  . cases h
    rfl

theorem accessCapability_packets
    : AppState.accessCapability sha256 { state with packets } now id request
        = ((state.accessCapability sha256 now id request).1,
          { (state.accessCapability sha256 now id request).2 with packets }) := by
  unfold AppState.accessCapability AppState.rateAccess
  split
  . rfl
  dsimp only
  cases takeSlot state.accessControls with
  | error => rfl
  | ok =>
    dsimp only
    split
    . rfl
    . split <;> rfl

theorem accessCapability_ok
    (h : state.accessCapability sha256 now id request = (.ok hash, state'))
    : ∃ capability, request.capability = .ok capability
        ∧ tokenHash sha256 capability.token = .ok hash := by
  unfold AppState.accessCapability at h
  split at h
  . cases h
  split at h
  . cases h
  dsimp only at h
  split at h
  . cases h
  split at h
  . cases h
  next hash' hcapability =>
    cases h
    exact Except.bind_eq_ok.mp hcapability

theorem accessCapability_error (hadmitted : IsAdmitted state now id request)
    (h : state.accessCapability sha256 now id request = (.error error, state'))
    : error = .unavailable := by
  rcases hadmitted with ⟨hid, hslots, hrate, capability, hcapability⟩
  rw [AppState.accessCapability, hid, hcapability, takeSlot, if_neg hslots] at h
  simp only [hrate, Bool.not_true, Bool.false_eq_true, if_false, Except.ok_bind] at h
  cases htoken : tokenHash sha256 capability.token with
  | ok => simp [htoken] at h
  | error error' =>
    rw [htoken] at h
    cases h
    exact tokenHash_error htoken

theorem serve_of_error (endpoint : Endpoint)
    (h : state.accessCapability sha256 cache.now id request = (.error error, state'))
    : endpoint.serve sha256 state id request cache
        = { answer := .error error, state := state', cache } := by
  cases endpoint with
  | metadata => simp only [Endpoint.serve, metadata, h]
  | openNote meanwhile => simp only [Endpoint.serve, openNote, h]
  | deleteNote => simp only [Endpoint.serve, deleteNote, h]

theorem serve_of_refused (endpoint : Endpoint)
    (h : state.accessCapability sha256 cache.now id request = (.ok hash, state'))
    (hrefused : cache.access id hash endpoint.operation = (.error error, cache'))
    : endpoint.serve sha256 state id request cache
        = { answer := .error error, state := state'.dropControl, cache := cache' } := by
  cases endpoint with
  | metadata =>
    rw [Endpoint.operation] at hrefused
    simp only [Endpoint.serve, metadata, h, hrefused]
    rfl
  | openNote meanwhile =>
    rw [Endpoint.operation] at hrefused
    simp only [Endpoint.serve, openNote, h, hrefused]
  | deleteNote =>
    rw [Endpoint.operation] at hrefused
    simp only [Endpoint.serve, deleteNote, h, hrefused]
    rfl

theorem Endpoint.operation_ne_other (endpoint : Endpoint) : endpoint.operation ≠ .other := by
  cases endpoint <;> nofun

variable {ledger ledger' : Ledger} {endpoint : Endpoint}

theorem serve_unauthorized (hcache : cache = ledger.cache cache.now)
    (h : Unauthorized sha256 cache id endpoint.operation request)
    : Refused state id request cache (endpoint.serve sha256 state id request cache) := by
  cases haccess : state.accessCapability sha256 cache.now id request with
  | mk result state' =>
  cases result with
  | error error =>
    rw [serve_of_error endpoint haccess]
    exact {
      error := ⟨error, rfl⟩
      unavailable := fun hadmitted => by rw [accessCapability_error hadmitted haccess]
      others := .refl _ _
      live := fun _ => rfl
    }
  | ok hash =>
    rcases accessCapability_ok haccess with ⟨capability, hcapability, hhash⟩
    rcases access_unauthorized hcache (Endpoint.operation_ne_other endpoint)
      (h capability hash hcapability hhash) with ⟨cache', hrefused, hagrees, hlive⟩
    rw [serve_of_refused endpoint haccess hrefused]
    exact {
      error := ⟨.unavailable, rfl⟩
      unavailable := fun _ => rfl
      others := hagrees
      live := hlive
    }

theorem serve_oblivious (hcache : cache = ledger.cache cache.now)
    (hcache' : cache' = ledger'.cache cache'.now) (hagrees : AgreesExcept (asBytes id) cache cache')
    (h : Unauthorized sha256 cache id endpoint.operation request)
    (h' : Unauthorized sha256 cache' id endpoint.operation request)
    : Oblivious id packets (endpoint.serve sha256 state id request cache)
        (endpoint.serve sha256 { state with packets } id request cache') := by
  have hrefused : Refused state id request cache (endpoint.serve sha256 state id request cache) :=
    serve_unauthorized hcache h
  have hrefused' : Refused { state with packets } id request cache'
      (endpoint.serve sha256 { state with packets } id request cache') :=
    serve_unauthorized hcache' h'
  have hagree := hrefused.others.symm.trans (hagrees.trans hrefused'.others)
  cases haccess : state.accessCapability sha256 cache.now id request with
  | mk result held =>
  have haccess' : AppState.accessCapability sha256 { state with packets } cache'.now id request
      = (result, { held with packets }) := by
    rw [accessCapability_packets, ← hagrees.now, haccess]
  cases result with
  | error error =>
    rw [serve_of_error endpoint haccess, serve_of_error endpoint haccess'] at hagree ⊢
    exact ⟨rfl, rfl, hagree⟩
  | ok hash =>
    rcases accessCapability_ok haccess with ⟨capability, hcapability, hhash⟩
    rcases access_unauthorized hcache (Endpoint.operation_ne_other endpoint)
      (h capability hash hcapability hhash) with ⟨next, hunavailable, -, -⟩
    rcases access_unauthorized hcache' (Endpoint.operation_ne_other endpoint)
      (h' capability hash hcapability hhash) with ⟨next', hunavailable', -, -⟩
    rw [serve_of_refused endpoint haccess hunavailable,
      serve_of_refused endpoint haccess' hunavailable'] at hagree ⊢
    exact ⟨rfl, rfl, hagree⟩

end

-- No two of the three hashes of a note are equal.
def RolesDiffer (cache : Cache) (id : Bytes) : Prop :=
  noteField cache id Field.peek ≠ noteField cache id Field.read
    ∧ noteField cache id Field.read ≠ noteField cache id Field.revoke
    ∧ noteField cache id Field.peek ≠ noteField cache id Field.revoke

theorem RolesDiffer.unauthorized {sha256 : Bytes → Bytes} {cache : Cache} {id hash : String}
    {request : HttpRequest} {holder endpoint : Endpoint} {capability : Capability}
    (h : RolesDiffer cache (asBytes id)) (hother : holder.operation ≠ endpoint.operation)
    (hcapability : request.capability = .ok capability)
    (hhash : tokenHash sha256 capability.token = .ok hash)
    (hholds : roleHash cache (asBytes id) holder.operation = some (asBytes hash))
    : Unauthorized sha256 cache id endpoint.operation request := by
  intro capability' hash' hcapability' hhash'
  cases hcapability.symm.trans hcapability'
  cases hhash.symm.trans hhash'
  rw [← hholds]
  rcases h with ⟨hpeek, hread, hrevoke⟩
  cases holder <;> cases endpoint <;> first | exact absurd rfl hother | skip
  . exact hpeek.symm
  . exact hrevoke.symm
  . exact hpeek
  . exact hread.symm
  . exact hrevoke
  . exact hread

theorem run_cache {start : Nat} {cache : Cache} {events : List Event} {answers : List Answer}
    (hrun : (Cache.empty start).run events = (cache, answers))
    : ∃ ledger, cache = Ledger.cache ledger cache.now := by
  rcases run_empty_invariant (fun _ => True) (fun _ _ _ => True) hrun trivial
    (fun _ _ _ => trivial) (fun _ _ => trivial) with ⟨ledger, hkeys, -⟩
  refine ⟨ledger, ?_⟩
  rw [Ledger.cache, ← hkeys]

theorem unauthorized_access_oblivious {sha256 : Bytes → Bytes} {start start' : Nat}
    {events events' : List Event} {cache cache' : Cache} {answers answers' : List Answer}
    {id : String} (hrun : (Cache.empty start).run events = (cache, answers))
    (hrun' : (Cache.empty start').run events' = (cache', answers'))
    (hagrees : AgreesExcept (asBytes id) cache cache') (state : AppState) (packets : Nat)
    (request : HttpRequest)
    : (∀ endpoint : Endpoint, Unauthorized sha256 cache id endpoint.operation request
        → Unauthorized sha256 cache' id endpoint.operation request
        → Oblivious id packets (endpoint.serve sha256 state id request cache)
            (endpoint.serve sha256 { state with packets } id request cache')
          ∧ Refused state id request cache (endpoint.serve sha256 state id request cache)
          ∧ Refused state id request cache' (endpoint.serve sha256 state id request cache'))
      ∧ ∀ (holder endpoint : Endpoint) (capability : Capability) (hash : String),
        RolesDiffer cache (asBytes id) → holder.operation ≠ endpoint.operation
        → request.capability = .ok capability → tokenHash sha256 capability.token = .ok hash
        → roleHash cache (asBytes id) holder.operation = some (asBytes hash)
        → Unauthorized sha256 cache id endpoint.operation request
          ∧ Refused state id request cache (endpoint.serve sha256 state id request cache) := by
  rcases run_cache hrun with ⟨ledger, hcache⟩
  rcases run_cache hrun' with ⟨ledger', hcache'⟩
  constructor
  . intro endpoint h h'
    exact ⟨serve_oblivious hcache hcache' hagrees h h', serve_unauthorized hcache h,
      serve_unauthorized hcache' h'⟩
  . intro holder endpoint capability hash hroles hother hcapability hhash hholds
    have h := hroles.unauthorized hother hcapability hhash hholds
    exact ⟨h, serve_unauthorized hcache h⟩

theorem run_access_agreesExcept {start : Nat} {events : List Event} (id hash : Bytes)
    (operation : Operation)
    : AgreesExcept id ((Cache.empty start).run events).1
        ((Cache.empty start).run (events ++ [.call allowAll (.access id hash operation)])).1 := by
  have hlast : ∀ cache : Cache, (cache.run (events ++ [.call allowAll (.access id hash operation)])).1
      = ((cache.run events).1.step (.call allowAll (.access id hash operation))).1 := by
    induction events with
    | nil => exact fun _ => rfl
    | cons event events ih => exact fun cache => ih _
  rw [hlast]
  rcases hrun : (Cache.empty start).run events with ⟨cache, answers⟩
  rcases run_cache hrun with ⟨ledger, hcache⟩
  rcases run_access { now := cache.now, denied := allowAll } ledger id hash operation
    with ⟨reply, ledger', haccess, haccessed⟩
  have hstep : (cache.step (.call allowAll (.access id hash operation))).1
      = ledger'.cache cache.now := by
    rw [hcache]
    simp only [Cache.step, Request.script, Ledger.cache, haccess]
  have hagrees : AgreesExcept id (ledger.cache cache.now) (ledger'.cache cache.now) :=
    haccessed.agreesExcept fun _ => ⟨rfl, rfl, rfl, rfl⟩
  rw [← hcache] at hagrees
  rw [hstep]
  exact hagrees

def exampleState : AppState where
  requestRate := 100
  accessControls := 8
  packets := 2
  bucket := none

def exampleStranger : HttpRequest where
  contentType := [asBytes "application/json"]
  contentLength := []
  body := .complete (asBytes ("\x7b\"token\":\"" ++ exampleChallenge ++ "\"\x7d"))

def exampleDeletion : Event :=
  .call allowAll (.access (asBytes exampleUpload.header.id) (asBytes exampleUpload.header.revoke)
    .deleteNote)

-- The note of `exampleUploads`, live in one run and deleted in the other.
theorem unauthorized_access_oblivious_exampleUpload
    : Oblivious exampleUpload.header.id 0
        (Endpoint.serve (fun _ => List.replicate 32 0) exampleState exampleUpload.header.id
          exampleStranger ((Cache.empty 0).run exampleUploads).1 .metadata)
        (Endpoint.serve (fun _ => List.replicate 32 0) { exampleState with packets := 0 }
          exampleUpload.header.id exampleStranger
          ((Cache.empty 0).run (exampleUploads ++ [exampleDeletion])).1 .metadata) := by
  have hdigest : digest (fun _ => List.replicate 32 0) [] = String.ofList (List.replicate 64 '0') := by
    decide +kernel
  have hhash : ∀ token hash, tokenHash (fun _ => List.replicate 32 0) token = .ok hash
      → hash = String.ofList (List.replicate 64 '0') := by
    intro token hash hhash
    unfold tokenHash at hhash
    split at hhash <;> cases hhash
    exact hdigest
  apply ((unauthorized_access_oblivious Prod.mk.eta.symm Prod.mk.eta.symm
    (run_access_agreesExcept _ _ _) exampleState 0 exampleStranger).1 .metadata ?_ ?_).1
  . intro capability hash _ htoken
    rw [hhash _ _ htoken]
    decide +kernel
  . intro capability hash _ htoken
    rw [hhash _ _ htoken]
    decide +kernel

end Store
