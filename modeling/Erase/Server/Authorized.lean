import Erase.Server.Starvation
import Erase.Store.Contents
import Erase.Store.ProofOfWork
import Erase.Store.Secrecy

/-!
Who is answered with what: over every run of a process under all of its traffic, a note that its cache
keeps is described, handed out or deleted for those alone who have presented its capability.
-/

namespace Server

open Store (Ledger Admitted Contents Keeps Accessed Called)

-- The hash of the capability that a packet asks for.
def Packet.capability (packet : Packet) : Operation → Option String
  | .metadata => some packet.header.peek
  | .checkOpen => some packet.header.read
  | .openNote => some packet.header.read
  | .deleteNote => some packet.header.revoke
  | .other => none

-- What the cache keeps under the id of a note that has not expired.
structure Shelves (cache : Cache) (note : String) (stored : Store.Note) (packet : Packet) : Prop where
  entry : cache.keys (.note (asBytes note)) = some stored.entry
  keeps : Keeps (asBytes note) stored packet
  live : cache.now / 1000 < stored.expires

theorem Shelves.named {cache : Cache} {note : String} {stored : Store.Note} {packet : Packet}
    (h : Shelves cache note stored packet) : note = packet.header.id :=
  asBytes_injective h.keeps.named

-- What the cache tells of a note to who holds the capability.
def Tells (stored : Store.Note) (parts : List Bytes) : Operation → Prop
  | .metadata => parts = [stored.header, Lua.tostring stored.expires, Lua.tostring stored.remaining]
  | .openNote => parts = [stored.packet]
  | _ => True

structure Grants (cache : Cache) (note hash : String) (operation : Operation) (stored : Store.Note)
    (packet : Packet) (parts : List Bytes) : Prop where
  shelved : Shelves cache note stored packet
  capability : packet.capability operation = some hash
  tells : Tells stored parts operation

theorem capability_of_keeps {id : Bytes} {note : Store.Note} {packet : Packet} (h : Keeps id note packet)
    (operation : Operation) : note.capability operation = (packet.capability operation).map asBytes := by
  cases operation with
  | metadata => simp [Store.Note.capability, Packet.capability, h.peek]
  | checkOpen => simp [Store.Note.capability, Packet.capability, h.read]
  | openNote => simp [Store.Note.capability, Packet.capability, h.read]
  | deleteNote => simp [Store.Note.capability, Packet.capability, h.revoke]
  | other => rfl

section

variable {cache : Cache} {ledger ledger' : Ledger} {note hash : String} {operation : Operation}
variable {parts : List Bytes}

theorem grants_of_authorizes {stored : Store.Note} (hkeys : cache.keys = ledger.keyspace)
    (hcontents : Contents ledger) (hnote : ledger.notes (asBytes note) = some stored)
    (hlive : cache.now / 1000 < stored.expires) (hallowed : stored.Authorizes operation (asBytes hash))
    (htells : Tells stored parts operation)
    : ∃ stored packet, Grants cache note hash operation stored packet parts := by
  rcases hcontents _ _ hnote with ⟨packet, hkeeps⟩
  refine ⟨stored, packet, ⟨?_, hkeeps, hlive⟩, ?_, htells⟩
  . rw [hkeys, Ledger.keyspace, hnote, Option.map_some]
  . have hcapability := hallowed.1
    rw [capability_of_keeps hkeeps, Option.map_eq_some_iff] at hcapability
    rcases hcapability with ⟨own, hown, hsame⟩
    rw [hown, asBytes_injective hsame]

theorem respond_released {outcome : Option Unit}
    (h : respond (outcome.map fun _ => Reply.unavailable) = .ok parts) : False := by
  cases outcome with
  | none => cases h
  | some _ => cases h

theorem grants_of_accessed {denied : Site → Bool} {reply : Option Reply}
    (hkeys : cache.keys = ledger.keyspace) (hcontents : Contents ledger)
    (haccessed : Accessed { now := cache.now, denied } ledger (asBytes note) (asBytes hash) operation reply
      ledger')
    (h : respond reply = .ok parts)
    : ∃ stored packet, Grants cache note hash operation stored packet parts := by
  cases haccessed with
  | missing => cases h
  | expired => exact (respond_released h).elim
  | unknown => cases h
  | refused => cases h
  | exhausted => exact (respond_released h).elim
  | checked hnote hlive hallowed => exact grants_of_authorizes hkeys hcontents hnote hlive hallowed trivial
  | described hnote hlive hallowed =>
    cases h
    exact grants_of_authorizes hkeys hcontents hnote hlive hallowed rfl
  | deleted hnote hlive hallowed => exact grants_of_authorizes hkeys hcontents hnote hlive hallowed trivial
  | @openedLast stored outcome _ hnote hlive hallowed =>
    cases outcome with
    | none => cases h
    | some _ =>
      cases h
      exact grants_of_authorizes hkeys hcontents hnote hlive hallowed rfl
  | opened hnote hlive hallowed =>
    cases h
    exact grants_of_authorizes hkeys hcontents hnote hlive hallowed rfl
  | undecremented => cases h

end

-- The request presents the capability with this hash.
def HttpRequest.Presents (sha256 : Bytes → Bytes) (request : HttpRequest) (hash : String) : Prop :=
  (request.capability >>= fun capability => tokenHash sha256 capability.token) = .ok hash

-- What a route answers of a note to who presents the capability with this hash.
def Packet.Answers (packet : Packet) (stored : Store.Note) (hash : String) (response : Response)
    : AccessRoute → Prop
  | .metadata => hash = packet.header.peek
    ∧ response = .metadata ⟨encodeUrlSafe packet.headerBytes, stored.expires, stored.remaining⟩
  | .openNote => hash = packet.header.read ∧ response = .packet packet.bytes
  | .deleteNote => hash = packet.header.revoke ∧ response = .noContent

-- The caches that a request has met at its turns.
abbrev Met := Cache → Prop

-- The answer tells of a note that a cache it has met kept under its id, whose capability it has presented.
def Incoming.Earned (sha256 : Bytes → Bytes) (met : Met) : Incoming → Payload → Prop
  | .access route note request, .access response => ∃ cache stored packet hash, met cache
      ∧ Shelves cache note stored packet ∧ request.Presents sha256 hash
      ∧ packet.Answers stored hash response route
  | _, .access _ => False
  | _, _ => True

-- What a handler knows where it is.
def Incoming.Sound (sha256 : Bytes → Bytes) (met : Met) : Incoming → Phase → Prop
  | .createNote _ _ _, .creating packet _ => Admitted packet
  | .access _ _ request, .asking hash => request.Presents sha256 hash
  | .access route note request, .answered hash reply => request.Presents sha256 hash
      ∧ ∀ parts, reply = .ok parts
        → ∃ cache stored packet, met cache ∧ Grants cache note hash route.operation stored packet parts
  | .access route _ request, .slotTaken hash => route = .openNote ∧ request.Presents sha256 hash
  | .access route _ request, .opening hash => route = .openNote ∧ request.Presents sha256 hash
  | incoming, .settled (.ok payload) => incoming.Earned sha256 met payload
  | incoming, .held _ payload _ _ => incoming.Earned sha256 met payload
  | incoming, .finished (.ok payload) => incoming.Earned sha256 met payload
  | _, _ => True

section

variable {sha256 : Bytes → Bytes} {met met' : Met} {incoming : Incoming} {payload : Payload}

theorem Incoming.sound_settled
    : incoming.Sound sha256 met (.settled (.ok payload)) ↔ incoming.Earned sha256 met payload := by
  cases incoming <;> exact Iff.rfl

theorem Incoming.sound_held (slot : Slots) (body : Bool) (chunks : Nat)
    : incoming.Sound sha256 met (.held slot payload body chunks) ↔ incoming.Earned sha256 met payload := by
  cases incoming <;> exact Iff.rfl

theorem Incoming.sound_finished
    : incoming.Sound sha256 met (.finished (.ok payload)) ↔ incoming.Earned sha256 met payload := by
  cases incoming <;> exact Iff.rfl

theorem Incoming.Earned.mono (hmet : ∀ cache, met cache → met' cache) (h : incoming.Earned sha256 met payload)
    : incoming.Earned sha256 met' payload := by
  cases payload with
  | access response =>
    cases incoming with
    | access route note request =>
      rcases h with ⟨cache, stored, packet, hash, hcache, hearned⟩
      exact ⟨cache, stored, packet, hash, hmet cache hcache, hearned⟩
    | _ => exact h.elim
  | _ => cases incoming <;> trivial

-- What a handler knows, it knows whatever else it meets.
theorem Incoming.Sound.mono {phase : Phase} (hmet : ∀ cache, met cache → met' cache)
    (h : incoming.Sound sha256 met phase) : incoming.Sound sha256 met' phase := by
  cases phase with
  | answered hash reply =>
    cases incoming with
    | access route note request =>
      refine ⟨h.1, fun parts hparts => ?_⟩
      rcases h.2 parts hparts with ⟨cache, stored, packet, hcache, hgrants⟩
      exact ⟨cache, stored, packet, hmet cache hcache, hgrants⟩
    | _ => trivial
  | settled answer =>
    cases answer with
    | error error => cases incoming <;> trivial
    | ok payload => exact sound_settled.mpr ((sound_settled.mp h).mono hmet)
  | held slot payload body chunks =>
    exact (sound_held slot body chunks).mpr (((sound_held slot body chunks).mp h).mono hmet)
  | finished answer =>
    cases answer with
    | error error => cases incoming <;> trivial
    | ok payload => exact sound_finished.mpr ((sound_finished.mp h).mono hmet)
  | _ => cases incoming <;> exact h

end

namespace Process

-- The cache of the process keeps packets that a server has parsed, each under its own id.
def Stocked (process : Process) : Prop :=
  ∃ ledger : Ledger, process.cache.keys = ledger.keyspace ∧ Contents ledger

-- A turn leaves the tasks alone or takes one of them to a phase that knows what it should.
structure Kept (sha256 : Bytes → Bytes) (met : Met) (incoming : Incoming) (process next : Process) (id : Nat)
    : Prop where
  stocked : next.Stocked
  tasks : next.tasks = process.tasks
    ∨ ∃ phase, incoming.Sound sha256 met phase ∧ next.tasks = process.tasks.insert id phase

-- What the handlers change besides the tasks.
structure Borne (process carried : Process) : Prop where
  stocked : carried.Stocked
  tasks : carried.tasks = process.tasks

section

variable {sha256 : Bytes → Bytes} {met : Met} {incoming : Incoming} {process carried next : Process} {id : Nat}

theorem Borne.refl (h : process.Stocked) : process.Borne process := ⟨h, rfl⟩

theorem Borne.trans (h : process.Borne carried) (h' : carried.Borne next) : process.Borne next :=
  ⟨h'.stocked, h'.tasks.trans h.tasks⟩

theorem Borne.of_cache (h : process.Stocked) (hcache : carried.cache = process.cache)
    (htasks : carried.tasks = process.tasks) : process.Borne carried := by
  refine ⟨?_, htasks⟩
  rw [Stocked, hcache]
  exact h

theorem rate_borne {name : String} {perSecond : ℚ} {delivery : Delivery} {result : Except ApiError Unit}
    (hstocked : process.Stocked) (h : process.rate name perSecond delivery = (result, carried))
    : process.Borne carried := by
  have hcache : (process.rate name perSecond delivery).2.cache = process.cache :=
    cache_rate name perSecond delivery
  rw [h] at hcache
  apply Borne.of_cache hstocked hcache
  unfold rate at h
  cases delivery with
  | delivered =>
    cases h
    rfl
  | lost executed => cases executed <;> (cases h; rfl)

theorem take_borne {slot : Slots} (hstocked : process.Stocked) (h : process.take slot = .ok carried)
    : process.Borne carried := by
  rcases take_eq_ok h with ⟨left, _, rfl⟩
  exact ⟨hstocked, rfl⟩

theorem drop_borne {slot : Slots} (hstocked : process.Stocked) : process.Borne (process.drop slot) :=
  ⟨hstocked, rfl⟩

theorem record_borne {decision : Decision} (hstocked : process.Stocked)
    : process.Borne (process.record id decision) :=
  ⟨hstocked, rfl⟩

-- A command that is executed has the outcomes of its script, whether its reply arrives or not.
theorem call_borne {delivery : Delivery} {denied : Site → Bool} {request : Request}
    {reply : Except ApiError (List Bytes)} (hstocked : process.Stocked)
    (h : process.call delivery denied request = (reply, carried))
    (hparses : Store.Parses (.call denied request))
    : process.Borne carried ∧ ∀ parts, reply = .ok parts
        → ∃ (ledger : Ledger) (answer : Option Reply) (ledger' : Ledger),
          process.cache.keys = ledger.keyspace ∧ Contents ledger
            ∧ Called { now := process.cache.now, denied } ledger request answer ledger'
            ∧ respond answer = .ok parts := by
  rcases hstocked with ⟨ledger, hkeys, hcontents⟩
  rcases Store.run_script { now := process.cache.now, denied } ledger request with ⟨answer, ledger', hrun, hcalled⟩
  rw [← hkeys] at hrun
  have hexecuted : ∃ ledger : Ledger, (request.script.run { now := process.cache.now, denied } process.cache.keys).2
      = ledger.keyspace ∧ Contents ledger :=
    ⟨ledger', by rw [hrun], hcontents.of_called hparses hcalled⟩
  unfold call at h
  cases delivery with
  | delivered =>
    cases h
    refine ⟨⟨hexecuted, rfl⟩, fun parts hparts => ⟨ledger, answer, ledger', hkeys, hcontents, hcalled, ?_⟩⟩
    have hanswer := congrArg (fun result => respond result.1) hrun
    exact hanswer.symm.trans hparts
  | lost executed =>
    cases executed with
    | true =>
      cases h
      exact ⟨⟨hexecuted, rfl⟩, nofun⟩
    | false =>
      cases h
      exact ⟨⟨⟨ledger, hkeys, hcontents⟩, rfl⟩, nofun⟩

theorem Borne.put (h : process.Borne carried) {phase : Phase} (hsound : incoming.Sound sha256 met phase)
    : Kept sha256 met incoming process (carried.put id phase) id := by
  refine ⟨h.stocked, .inr ⟨phase, hsound, ?_⟩⟩
  rw [Process.put, h.tasks]

theorem Borne.leave (h : process.Borne carried) {phase : Phase} {answer : Except Failure Payload}
    (hsound : incoming.Sound sha256 met (.finished answer))
    : Kept sha256 met incoming process (carried.leave id phase answer) id := by
  rw [Process.leave, foldl_drop]
  have hdropped : process.Borne
      { carried with free := fun slot => carried.free slot + phase.permits.count slot } :=
    ⟨h.stocked, h.tasks⟩
  exact hdropped.put hsound

theorem Borne.fail (h : process.Borne carried) {phase : Phase} {error : ApiError}
    : Kept sha256 met incoming process (carried.fail id phase error) id := by
  apply h.leave
  cases incoming <;> trivial

theorem Borne.kept (h : process.Borne carried) : Kept sha256 met incoming process carried id :=
  ⟨h.stocked, .inl h.tasks⟩

theorem Borne.abort (h : process.Borne carried) {phase : Phase}
    : Kept sha256 met incoming process (carried.abort id phase) id := by
  unfold Process.abort
  split
  . exact h.fail
  . exact h.kept

theorem enterPublic_kept (h : process.Stocked) (hsound : incoming.Sound sha256 met .publicRate)
    : Kept sha256 met incoming process (process.enterPublic id) id := by
  unfold enterPublic
  split
  . exact (Borne.refl h).fail
  . next htake => exact (take_borne h htake).put hsound

theorem stepPublicConfig_kept (limits : Limits) (h : process.Stocked) (phase : Option Phase) (turn : Turn)
    : Kept sha256 met .publicConfig process (process.stepPublicConfig limits id phase turn) id := by
  unfold stepPublicConfig
  split
  . exact enterPublic_kept h trivial
  . split
    . next hrate => exact (rate_borne h hrate).fail
    . next hrate => exact (rate_borne h hrate).leave trivial
  . exact (Borne.refl h).abort
  . exact (Borne.refl h).kept

theorem stepChallenge_kept (limits : Limits) (token : String) (h : process.Stocked) (phase : Option Phase)
    (turn : Turn)
    : Kept sha256 met (.challenge token) process (process.stepChallenge limits id token phase turn) id := by
  unfold stepChallenge
  split
  . exact enterPublic_kept h trivial
  . split
    . next hrate => exact (rate_borne h hrate).fail
    . next hrate => exact (rate_borne h hrate).put trivial
  . split
    . next hrate => exact (rate_borne h hrate).fail
    . next hrate => exact (rate_borne h hrate).put trivial
  . split
    next hcall =>
    split
    . exact (call_borne h hcall trivial).1.fail
    . exact (call_borne h hcall trivial).1.leave trivial
  . exact (Borne.refl h).abort
  . exact (Borne.refl h).kept

theorem stepCreateNote_kept (limits : Limits) (challenge nonce : List Bytes) (request : HttpRequest)
    (h : process.Stocked) {phase : Option Phase} (turn : Turn)
    (hphase : ∀ present, phase = some present
      → (Incoming.createNote challenge nonce request).Sound sha256 met present)
    : Kept sha256 met (.createNote challenge nonce request) process
        (process.stepCreateNote limits id sha256 challenge nonce request phase turn) id := by
  unfold stepCreateNote
  split
  . exact enterPublic_kept h trivial
  . split
    . next hrate => exact (rate_borne h hrate).fail
    . next hrate => exact (rate_borne h hrate).put trivial
  . split
    . next hrate => exact (rate_borne h hrate).fail
    . next hrate =>
      split
      . exact (rate_borne h hrate).fail
      . exact (rate_borne h hrate).put trivial
  . split
    next hcall =>
    split
    . exact (call_borne h hcall trivial).1.fail
    . exact (call_borne h hcall trivial).1.put trivial
  . split
    . exact (Borne.refl h).fail
    . next htake => exact (take_borne h htake).put trivial
  . split
    . exact (Borne.refl h).fail
    . next htake => exact (take_borne h htake).put trivial
  . exact (drop_borne h).put trivial
  . split
    . exact (Borne.refl h).fail
    . split
      . exact (Borne.refl h).leave trivial
      . next hreceive => exact (Borne.refl h).put ((Store.receive_eq_ok hreceive).1)
  . next packet challenge delivery denied =>
    have hadmitted : Admitted packet := hphase _ rfl
    split
    next hcall =>
    split
    . exact (call_borne h hcall hadmitted).1.fail
    . exact (call_borne h hcall hadmitted).1.leave trivial
  . exact (Borne.refl h).abort
  . exact (Borne.refl h).kept

theorem stepHeld_kept {slot : Slots} {payload : Payload} {body : Bool} {chunks : Nat} (h : process.Stocked)
    (hearned : incoming.Earned sha256 met payload) (turn : Turn)
    : Kept sha256 met incoming process (process.stepHeld id slot payload body chunks turn) id := by
  have hheld (body' : Bool) (chunks' : Nat) := (Incoming.sound_held slot body' chunks').mpr hearned
  have hrelease (body' : Bool) (chunks' : Nat)
      : Kept sha256 met incoming process (process.release id slot payload body' chunks') id := by
    unfold release
    split
    . exact (Borne.refl h).put (hheld _ _)
    . exact (Borne.refl h).leave (Incoming.sound_finished.mpr hearned)
  unfold stepHeld
  split
  . split
    . exact (Borne.refl h).put (hheld _ _)
    . exact (Borne.refl h).kept
  . split
    . exact (Borne.refl h).put (hheld _ _)
    . exact (Borne.refl h).kept
  . split
    . exact hrelease _ _
    . exact (Borne.refl h).kept
  . split
    . exact hrelease _ _
    . exact (Borne.refl h).kept
  . exact (Borne.refl h).kept

theorem stepPage_kept (h : process.Stocked) (phase : Option Phase) (turn : Turn)
    (hphase : ∀ present, phase = some present → Incoming.page.Sound sha256 met present)
    : Kept sha256 met .page process (process.stepPage id phase turn) id := by
  unfold stepPage
  split
  . split
    . exact (Borne.refl h).fail
    . next htake => exact (take_borne h htake).put trivial
  . exact (Borne.refl h).put trivial
  . next turn payload body chunks =>
    have hheld : Incoming.page.Sound sha256 met (.held .staticSlots payload body chunks) := hphase _ rfl
    exact stepHeld_kept h ((Incoming.sound_held _ _ _).mp hheld) _
  . exact (Borne.refl h).abort
  . exact (Borne.refl h).kept

theorem stepRejected_kept (error : ApiError) (h : process.Stocked) (phase : Option Phase) (turn : Turn)
    : Kept sha256 met (.rejected error) process (process.stepRejected id error phase turn) id := by
  unfold stepRejected
  split
  . exact (Borne.refl h).put trivial
  . exact (Borne.refl h).kept

theorem enterAccess_kept {route : AccessRoute} {note : String} {request : HttpRequest} (h : process.Stocked)
    : Kept sha256 met (.access route note request) process (process.enterAccess id note) id := by
  unfold enterAccess
  split
  . exact (Borne.refl h).fail
  . split
    . exact (record_borne h).fail
    . next htake =>
      have htaken := take_borne h htake
      exact (htaken.trans (record_borne htaken.stocked)).put trivial

theorem metadata_of_ofParts {header : Bytes} {expires remaining : Nat} {metadata : Metadata}
    (h : Metadata.ofParts [header, Lua.tostring expires, Lua.tostring remaining] = .ok metadata)
    : metadata = ⟨encodeUrlSafe header, expires, remaining⟩ := by
  unfold Metadata.ofParts at h
  simp only [List.getElem?_cons_zero, Except.bind_eq_ok] at h
  rcases h with ⟨expires', hexpires, remaining', hremaining, hmetadata⟩
  rw [Store.number_eq rfl hexpires, Store.number_eq rfl hremaining] at hmetadata
  cases hmetadata
  rfl

theorem settle_kept {route : AccessRoute} {note hash : String} {request : HttpRequest}
    {reply : Except ApiError (List Bytes)} (h : process.Stocked) (hpresents : request.Presents sha256 hash)
    (hgrants : ∀ parts, reply = .ok parts
      → ∃ cache stored packet, met cache ∧ Grants cache note hash route.operation stored packet parts)
    : Kept sha256 met (.access route note request) process (process.settle id route hash reply) id := by
  cases reply with
  | error error => cases route <;> exact (Borne.refl h).put trivial
  | ok parts =>
    rcases hgrants parts rfl with ⟨cache, stored, packet, hmet, hgrant⟩
    have hshelved := hgrant.shelved
    cases route with
    | metadata =>
      have hown : hash = packet.header.peek := (Option.some.inj hgrant.capability).symm
      apply (Borne.refl h).put
      cases hmetadata : Metadata.ofParts parts with
      | error error =>
        rw [Except.ok_bind, hmetadata]
        trivial
      | ok metadata =>
        rw [Except.ok_bind, hmetadata]
        have htells : parts = _ := hgrant.tells
        rw [htells] at hmetadata
        rw [metadata_of_ofParts hmetadata, hshelved.keeps.header]
        exact ⟨cache, stored, packet, hash, hmet, hshelved, hpresents, hown, rfl⟩
    | deleteNote =>
      have hown : hash = packet.header.revoke := (Option.some.inj hgrant.capability).symm
      apply (Borne.refl h).put
      exact ⟨cache, stored, packet, hash, hmet, hshelved, hpresents, hown, rfl⟩
    | openNote =>
      simp only [settle]
      split
      . exact (record_borne h).put trivial
      . next htake =>
        have htaken := take_borne h htake
        exact (htaken.trans (record_borne htaken.stocked)).put ⟨rfl, hpresents⟩

theorem stepAccess_kept (limits : Limits) (route : AccessRoute) (note : String) (request : HttpRequest)
    (h : process.Stocked) (hmet : met process.cache) {phase : Option Phase} (turn : Turn)
    (hphase : ∀ present, phase = some present → (Incoming.access route note request).Sound sha256 met present)
    : Kept sha256 met (.access route note request) process
        (process.stepAccess limits id sha256 route note request phase turn) id := by
  unfold stepAccess
  split
  . exact enterAccess_kept h
  . next delivery denied =>
    have hrated : process.Borne (process.rate "access" (limits.requestRate / 2) delivery).2 :=
      rate_borne h rfl
    dsimp only
    split
    . exact (hrated.trans (record_borne hrated.stocked)).fail
    . exact (hrated.trans (record_borne hrated.stocked)).put trivial
  . split
    . exact (Borne.refl h).fail
    . next hpresents => exact (Borne.refl h).put hpresents
  . next hash delivery denied =>
    have hpresents : request.Presents sha256 hash := hphase _ rfl
    split
    next hcall =>
    rcases call_borne h hcall trivial with ⟨hcarried, hreplied⟩
    apply hcarried.put
    refine ⟨hpresents, fun parts hparts => ?_⟩
    rcases hreplied parts hparts with ⟨ledger, answer, ledger', hkeys, hcontents, hcalled, hanswer⟩
    cases hcalled with
    | access haccessed =>
      rcases grants_of_accessed hkeys hcontents haccessed hanswer with ⟨stored, packet, hgrant⟩
      exact ⟨process.cache, stored, packet, hmet, hgrant⟩
  . next hash reply =>
    have hanswered : (Incoming.access route note request).Sound sha256 met (.answered hash reply) := hphase _ rfl
    exact settle_kept h hanswered.1 hanswered.2
  . next answer =>
    have hsettled : (Incoming.access route note request).Sound sha256 met (.settled answer) := hphase _ rfl
    apply (Borne.refl h).leave
    cases answer with
    | error error => trivial
    | ok payload => exact hsettled
  . next hash =>
    have hslot : (Incoming.access route note request).Sound sha256 met (.slotTaken hash) := hphase _ rfl
    exact (drop_borne h).put hslot
  . next hash delivery denied =>
    have hopening : (Incoming.access route note request).Sound sha256 met (.opening hash) := hphase _ rfl
    rcases hopening with ⟨rfl, hpresents⟩
    split
    next hcall =>
    rcases call_borne h hcall trivial with ⟨hcarried, hreplied⟩
    split
    . exact hcarried.fail
    . next packet hpacket =>
      apply hcarried.put
      rw [Except.bind_eq_ok] at hpacket
      rcases hpacket with ⟨parts, hparts, hpacket⟩
      rcases hreplied parts hparts with ⟨ledger, answer, ledger', hkeys, hcontents, hcalled, hanswer⟩
      cases hcalled with
      | access haccessed =>
        rcases grants_of_accessed hkeys hcontents haccessed hanswer with ⟨stored, kept, hgrant⟩
        have htold : parts = [stored.packet] := hgrant.tells
        rw [htold] at hpacket
        cases hpacket
        have hown : hash = kept.header.read := (Option.some.inj hgrant.capability).symm
        refine ⟨process.cache, stored, kept, hash, hmet, hgrant.shelved, hpresents, hown, ?_⟩
        rw [hgrant.shelved.keeps.stored]
  . next turn payload body chunks =>
    have hheld : (Incoming.access route note request).Sound sha256 met (.held .packets payload body chunks) :=
      hphase _ rfl
    exact stepHeld_kept h ((Incoming.sound_held _ _ _).mp hheld) _
  . exact (Borne.refl h).abort
  . exact (Borne.refl h).kept

theorem stepTurn_kept (limits : Limits) (requests : Nat → Incoming) (h : process.Stocked)
    (hmet : met process.cache) (turn : Turn)
    (hsound : ∀ phase, process.tasks.lookup id = some phase → (requests id).Sound sha256 met phase)
    : Kept sha256 met (requests id) process (process.stepTurn sha256 limits requests id turn) id := by
  unfold stepTurn
  cases hrequest : requests id with
  | publicConfig => exact stepPublicConfig_kept limits h _ turn
  | challenge token => exact stepChallenge_kept limits token h _ turn
  | createNote challenge nonce request =>
    rw [hrequest] at hsound
    exact stepCreateNote_kept limits challenge nonce request h turn hsound
  | access route note request =>
    rw [hrequest] at hsound
    exact stepAccess_kept limits route note request h hmet turn hsound
  | page =>
    rw [hrequest] at hsound
    exact stepPage_kept h _ turn hsound
  | rejected error => exact stepRejected_kept error h _ turn

end

-- What is so in every state of a process whose requests have met these caches.
structure Guarded (sha256 : Bytes → Bytes) (requests : Nat → Incoming) (met : Nat → Met) (process : Process)
    : Prop where
  stocked : process.Stocked
  sound : ∀ id phase, process.tasks.lookup id = some phase → (requests id).Sound sha256 (met id) phase

-- The caches that stood before the turns of a request.
def MetIn (sha256 : Bytes → Bytes) (limits : Limits) (requests : Nat → Incoming) (start : Process)
    (moves : List Move) (id : Nat) : Met :=
  fun cache => ∃ before turn after, moves = before ++ .turn id turn :: after
    ∧ cache = (start.run sha256 limits requests before).cache

section

variable {sha256 : Bytes → Bytes} {limits : Limits} {requests : Nat → Incoming} {process start : Process}
  {met met' : Nat → Met} {moves : List Move}

theorem Guarded.step (h : process.Guarded sha256 requests met) {move : Move}
    (hparses : ∀ event, move = .elsewhere event → Store.Parses event)
    (hmono : ∀ id cache, met id cache → met' id cache)
    (hmet : ∀ id turn, move = .turn id turn → met' id process.cache)
    : (process.step sha256 limits requests move).Guarded sha256 requests met' := by
  have hsound : ∀ id phase, process.tasks.lookup id = some phase
      → (requests id).Sound sha256 (met' id) phase :=
    fun id phase hphase => (h.sound id phase hphase).mono (hmono id)
  cases move with
  | elsewhere event =>
    rcases h.stocked with ⟨ledger, hkeys, hcontents⟩
    rcases Store.step_keyspace process.cache.now ledger event with ⟨ledger', answers, hstep, htransition⟩
    refine ⟨⟨ledger', ?_, hcontents.of_transition (hparses event rfl) htransition⟩, hsound⟩
    rw [← hkeys] at hstep
    exact congrArg (fun result => result.1.keys) hstep
  | turn id turn =>
    have hkept := stepTurn_kept limits requests h.stocked (hmet id turn rfl) turn (hsound id)
    refine ⟨hkept.stocked, ?_⟩
    intro other present hpresent
    rcases hkept.tasks with hsame | ⟨phase, hphase, hinserted⟩
    . exact hsound other present (by rw [← hsame]; exact hpresent)
    . change (process.stepTurn sha256 limits requests id turn).tasks.lookup other = some present at hpresent
      rw [hinserted, FiniteMap.lookup_insert_ite] at hpresent
      split at hpresent
      . next hother =>
        cases hpresent
        rw [hother]
        exact hphase
      . exact hsound other present hpresent

theorem Guarded.run (h : start.Guarded sha256 requests fun _ _ => False)
    (hparses : ∀ event, .elsewhere event ∈ moves → Store.Parses event)
    : (start.run sha256 limits requests moves).Guarded sha256 requests
        (MetIn sha256 limits requests start moves) := by
  induction moves using List.reverseRecOn with
  | nil => exact ⟨h.stocked, fun id phase hphase => (h.sound id phase hphase).mono nofun⟩
  | append_singleton moves move ih =>
    have hbefore := ih fun event hevent => hparses event (List.mem_append_left _ hevent)
    rw [run_append]
    apply hbefore.step
    . rintro event rfl
      exact hparses event List.mem_concat_self
    . rintro id cache ⟨before, turn, after, rfl, hcache⟩
      exact ⟨before, turn, after ++ [move], by simp, hcache⟩
    . rintro id turn rfl
      exact ⟨moves, turn, [], rfl, rfl⟩

theorem guarded_buildRouter {cache : Cache} {buckets : String → Option Bucket}
    (hbuilt : buildRouter limits cache buckets = .ok start)
    (hcache : ∃ start events answers, (Cache.empty start).run events = (cache, answers)
      ∧ ∀ event ∈ events, Store.Parses event)
    : start.Guarded sha256 requests met := by
  rcases hcache with ⟨time, events, answers, hrun, hparses⟩
  unfold buildRouter at hbuilt
  split at hbuilt
  . cases hbuilt
  . cases hbuilt
    refine ⟨Store.run_contents hrun hparses, ?_⟩
    intro id phase hphase
    cases hphase

-- The process answers this request with this, and its client has got some or all of it.
def Answers (process : Process) (id : Nat) (payload : Payload) : Prop :=
  process.tasks.lookup id = some (.finished (.ok payload))
  ∨ ∃ slot body chunks, process.tasks.lookup id = some (.held slot payload body chunks)

theorem Guarded.earned (h : process.Guarded sha256 requests met) {id : Nat} {payload : Payload}
    (hanswers : process.Answers id payload) : (requests id).Earned sha256 (met id) payload := by
  rcases hanswers with hfinished | ⟨slot, body, chunks, hheld⟩
  . exact Incoming.sound_finished.mp (h.sound id _ hfinished)
  . exact (Incoming.sound_held slot body chunks).mp (h.sound id _ hheld)

end

end Process

/--
Whatever the requests to a process are and however their handlers, other processes and the cache take turns:
what an access request is answered with is of a note that the cache has kept, live and under the id of the
request, at a turn of this request, which has presented the capability of the note for just this operation.
-/
theorem answers_are_earned {sha256 : Bytes → Bytes} {limits : Limits} {requests : Nat → Incoming}
    {cache : Cache} {buckets : String → Option Bucket} {process : Process} {moves : List Move}
    (hbuilt : buildRouter limits cache buckets = .ok process)
    (hcache : ∃ start events answers, (Cache.empty start).run events = (cache, answers)
      ∧ ∀ event ∈ events, Store.Parses event)
    (hparses : ∀ event, .elsewhere event ∈ moves → Store.Parses event)
    {id : Nat} {route : AccessRoute} {note : String} {request : HttpRequest} {response : Response}
    (hrequest : requests id = .access route note request)
    (hanswers : (process.run sha256 limits requests moves).Answers id (.access response))
    : ∃ before turn after stored packet hash, moves = before ++ .turn id turn :: after
        ∧ Shelves (process.run sha256 limits requests before).cache note stored packet
        ∧ note = packet.header.id ∧ request.Presents sha256 hash
        ∧ packet.Answers stored hash response route := by
  have hguarded : (process.run sha256 limits requests moves).Guarded sha256 requests
      (Process.MetIn sha256 limits requests process moves) :=
    (Process.guarded_buildRouter hbuilt hcache).run hparses
  have hearned := hguarded.earned hanswers
  rw [hrequest] at hearned
  rcases hearned with ⟨_, stored, packet, hash, ⟨before, turn, after, hmoves, rfl⟩, hshelved, hearned⟩
  exact ⟨before, turn, after, stored, packet, hash, hmoves, hshelved, hshelved.named, hearned⟩

-- A recipient opens the note of `exampleUploads`, with a token of the hash that it asks for.
def exampleShelf : Cache := ((Cache.empty 0).run Store.exampleUploads).1

def exampleRecipient : Nat → Incoming
  | 0 => .access .openNote Store.exampleUpload.header.id Store.exampleStranger
  | _ => .rejected .notFound

def exampleServing : Process where
  free := exampleLimits.capacity
  buckets _ := none
  cache := exampleShelf
  tasks := ∅
  log := []

def exampleOpening : List Move :=
  [.arrive, exampleAnswer, exampleAnswer, exampleAnswer, .proceed, .proceed, exampleAnswer].map (.turn 0)

def Phase.response? : Phase → Option Response
  | held _ (.access response) _ _ => some response
  | finished (.ok (.access response)) => some response
  | _ => none

theorem answers_of_response? {process : Process} {id : Nat} {response : Response}
    (h : (process.tasks.lookup id).bind Phase.response? = some response)
    : process.Answers id (.access response) := by
  rw [Option.bind_eq_some_iff] at h
  rcases h with ⟨phase, hphase, hresponse⟩
  unfold Phase.response? at hresponse
  split at hresponse
  . cases hresponse
    exact .inr ⟨_, _, _, hphase⟩
  . cases hresponse
    exact .inl hphase
  . cases hresponse

theorem reached_exampleShelf
    : ∃ start events answers, (Cache.empty start).run events = (exampleShelf, answers)
        ∧ ∀ event ∈ events, Store.Parses event := by
  refine ⟨0, Store.exampleUploads, _, Prod.mk.eta.symm, ?_⟩
  simp [Store.exampleUploads, Store.Parses, Store.admitted_exampleUpload]

theorem answers_are_earned_exampleOpening
    : ∃ before turn after stored packet hash response, exampleOpening = before ++ .turn 0 turn :: after
        ∧ Shelves (exampleServing.run constantSha256 exampleLimits exampleRecipient before).cache
          Store.exampleUpload.header.id stored packet
        ∧ Store.exampleStranger.Presents constantSha256 hash
        ∧ packet.Answers stored hash response .openNote := by
  have hsome : (((exampleServing.run constantSha256 exampleLimits exampleRecipient exampleOpening).tasks.lookup
      0).bind Phase.response?).isSome = true := by
    decide +kernel
  rcases Option.isSome_iff_exists.mp hsome with ⟨response, hresponse⟩
  have hbuilt : buildRouter exampleLimits exampleShelf (fun _ => none) = .ok exampleServing := rfl
  have hparses : ∀ event, .elsewhere event ∈ exampleOpening → Store.Parses event := by
    simp [exampleOpening]
  have hrequest : exampleRecipient 0 = .access .openNote Store.exampleUpload.header.id Store.exampleStranger := rfl
  rcases answers_are_earned hbuilt reached_exampleShelf hparses hrequest (answers_of_response? hresponse)
    with ⟨before, turn, after, stored, packet, hash, hmoves, hshelved, -, hpresents, hanswers⟩
  exact ⟨before, turn, after, stored, packet, hash, response, hmoves, hshelved, hpresents, hanswers⟩

end Server
