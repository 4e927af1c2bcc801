import Erase.Server.Traffic

/-!
What a turn of one handler can do to the process: which phases it reaches, and how the permits move.
-/

namespace Server

-- The phases of the handler that a request has.
def Incoming.runs : Incoming → Phase → Bool
  | _, .finished _ => true
  | publicConfig, .publicRate => true
  | challenge _, .publicRate => true
  | challenge _, .challengeRate => true
  | challenge _, .issuing => true
  | createNote _ _ _, .publicRate => true
  | createNote _ _ _, .createRate => true
  | createNote _ _ _, .inspecting _ _ => true
  | createNote _ _ _, .inspected _ => true
  | createNote _ _ _, .uploadTaken _ => true
  | createNote _ _ _, .packetTaken _ => true
  | createNote _ _ _, .receiving _ => true
  | createNote _ _ _, .creating _ _ => true
  | access _ id _, .accessRate => validId id
  | access _ id _, .reading => validId id
  | access _ id _, .asking _ => validId id
  | access _ id _, .answered _ _ => validId id
  | access _ id _, .settled _ => validId id
  | access _ id _, .slotTaken _ => validId id
  | access _ id _, .opening _ => validId id
  | access _ id _, .held .packets _ _ _ => validId id
  | page, .serving => true
  | page, .held .staticSlots _ _ _ => true
  | _, _ => false

namespace Process

section

variable {process : Process} {slot : Slots}

theorem take_eq_ok {taken : Process} (h : process.take slot = .ok taken)
    : ∃ left, process.free slot = left + 1
        ∧ taken = { process with free := Function.update process.free slot left } := by
  unfold take takeSlot at h
  split at h
  . cases h
  . next left hleft =>
    cases h
    split at hleft
    . cases hleft
    . cases hleft
      exact ⟨process.free slot - 1, by omega, rfl⟩

theorem take_eq_error {error : ApiError} (h : process.take slot = .error error)
    : process.free slot = 0 ∧ error = .capacity := by
  unfold take takeSlot at h
  split at h
  . next failure hleft =>
    cases h
    split at hleft
    . next hfree =>
      cases hleft
      exact ⟨hfree, rfl⟩
    . cases hleft
  . cases h

theorem foldl_drop (slots : List Slots)
    : slots.foldl drop process
        = { process with free := fun slot => process.free slot + slots.count slot } := by
  induction slots generalizing process with
  | nil => rfl
  | cons slot slots ih =>
    rw [List.foldl_cons, ih, drop]
    congr 1
    funext other
    dsimp only
    rw [List.count_cons]
    by_cases hother : other = slot
    . subst hother
      rw [Function.update_self, beq_self_eq_true, if_pos rfl]
      omega
    . rw [Function.update_of_ne hother, if_neg (by simpa using Ne.symm hother)]
      omega

end

-- What the cache stores changes by a script alone.
def Scripted (process next : Process) : Prop :=
  next.cache.keys = process.cache.keys
  ∨ ∃ (denied : Site → Bool) (request : Request), next.cache.keys
      = (request.script.run { now := process.cache.now, denied } process.cache.keys).2

-- What the handlers change besides the tasks and the permits.
structure Carried (incoming : Incoming) (process next : Process) : Prop where
  free : next.free = process.free
  tasks : next.tasks = process.tasks
  now : next.cache.now = process.cache.now
  scripted : process.Scripted next
  buckets : incoming.isAccess = false → next.buckets "access" = process.buckets "access"
  log : incoming.isAccess = false → next.log = process.log

def Balanced (process next : Process) (id : Nat) (phase : Phase) : Prop :=
  ∀ slot, next.free slot + phase.permits.count slot
    = process.free slot + (Permits.heldBy Phase.permits process.tasks id).count slot

-- A turn leaves the tasks and permits alone, or takes one task from phase to phase.
structure Turned (incoming : Incoming) (process next : Process) (id : Nat) : Prop where
  tasks : next.tasks = process.tasks ∧ next.free = process.free
    ∨ ∃ phase, incoming.runs phase = true ∧ next.tasks = process.tasks.insert id phase
        ∧ process.Balanced next id phase
  now : next.cache.now = process.cache.now
  scripted : process.Scripted next
  buckets : incoming.isAccess = false → next.buckets "access" = process.buckets "access"
  log : incoming.isAccess = false → next.log = process.log

section

variable {incoming : Incoming} {process carried : Process} {id : Nat}

theorem Carried.refl : Carried incoming process process :=
  ⟨rfl, rfl, rfl, .inl rfl, fun _ => rfl, fun _ => rfl⟩

theorem rate_carried {name : String} {perSecond : ℚ} {delivery : Delivery}
    {result : Except ApiError Unit} (h : process.rate name perSecond delivery = (result, carried))
    (hname : incoming.isAccess = true ∨ name ≠ "access")
    : Carried incoming process carried := by
  have hbucket (bucket : Option Bucket) (hother : incoming.isAccess = false)
      : Function.update process.buckets name bucket "access" = process.buckets "access" := by
    rcases hname with haccess | hname
    . rw [haccess] at hother
      cases hother
    . exact Function.update_of_ne hname.symm _ _
  unfold rate at h
  cases delivery with
  | delivered =>
    cases h
    exact ⟨rfl, rfl, rfl, .inl rfl, hbucket _, fun _ => rfl⟩
  | lost executed =>
    cases executed with
    | true =>
      cases h
      exact ⟨rfl, rfl, rfl, .inl rfl, hbucket _, fun _ => rfl⟩
    | false =>
      cases h
      exact .refl

theorem call_carried {delivery : Delivery} {denied : Site → Bool} {request : Request}
    {reply : Except ApiError (List Bytes)} (h : process.call delivery denied request = (reply, carried))
    : Carried incoming process carried := by
  unfold call at h
  cases delivery with
  | delivered =>
    cases h
    exact ⟨rfl, rfl, rfl, .inr ⟨denied, request, rfl⟩, fun _ => rfl, fun _ => rfl⟩
  | lost executed =>
    cases executed with
    | true =>
      cases h
      exact ⟨rfl, rfl, rfl, .inr ⟨denied, request, rfl⟩, fun _ => rfl, fun _ => rfl⟩
    | false =>
      cases h
      exact .refl

theorem Carried.record (h : Carried incoming process carried) (haccess : incoming.isAccess = true)
    (decision : Decision)
    : Carried incoming process (carried.record id decision) where
  free := h.free
  tasks := h.tasks
  now := h.now
  scripted := h.scripted
  buckets := h.buckets
  log hother := by
    rw [haccess] at hother
    cases hother

theorem Turned.refl : Turned incoming process process id :=
  ⟨.inl ⟨rfl, rfl⟩, rfl, .inl rfl, fun _ => rfl, fun _ => rfl⟩

variable {phase next : Phase} {slot : Slots}

theorem heldBy_eq (h : process.tasks.lookup id = some phase)
    : Permits.heldBy Phase.permits process.tasks id = phase.permits := by
  rw [Permits.heldBy, h]
  rfl

theorem heldBy_none (h : process.tasks.lookup id = none)
    : Permits.heldBy Phase.permits process.tasks id = [] := by
  rw [Permits.heldBy, h]
  rfl

theorem Carried.keep (h : Carried incoming process carried)
    (hruns : incoming.runs next = true)
    (hsame : next.permits = Permits.heldBy Phase.permits process.tasks id)
    : Turned incoming process (carried.put id next) id where
  tasks := by
    refine .inr ⟨next, hruns, by rw [put, h.tasks], fun slot => ?_⟩
    rw [put, h.free, hsame]
  now := h.now
  scripted := h.scripted
  buckets := h.buckets
  log := h.log

theorem Carried.take (h : Carried incoming process carried) {left : Nat}
    (hleft : process.free slot = left + 1) (hruns : incoming.runs next = true)
    (htaken : next.permits.Perm (slot :: Permits.heldBy Phase.permits process.tasks id))
    : Turned incoming process
        ({ carried with free := Function.update carried.free slot left }.put id next) id where
  tasks := by
    refine .inr ⟨next, hruns, by rw [put, h.tasks], fun other => ?_⟩
    rw [put, h.free, htaken.count_eq, List.count_cons]
    dsimp only
    by_cases hother : other = slot
    . subst hother
      rw [Function.update_self, beq_self_eq_true, if_pos rfl]
      omega
    . rw [Function.update_of_ne hother, if_neg (by simpa using Ne.symm hother)]
      omega
  now := h.now
  scripted := h.scripted
  buckets := h.buckets
  log := h.log

theorem Carried.drop (h : Carried incoming process carried) (hruns : incoming.runs next = true)
    (hdropped : (Permits.heldBy Phase.permits process.tasks id).Perm (slot :: next.permits))
    : Turned incoming process ((carried.drop slot).put id next) id where
  tasks := by
    refine .inr ⟨next, hruns, by rw [put, Process.drop, h.tasks], fun other => ?_⟩
    rw [put, Process.drop, h.free, hdropped.count_eq, List.count_cons]
    dsimp only
    by_cases hother : other = slot
    . subst hother
      rw [Function.update_self, beq_self_eq_true, if_pos rfl]
      omega
    . rw [Function.update_of_ne hother, if_neg (by simpa using Ne.symm hother)]
      omega
  now := h.now
  scripted := h.scripted
  buckets := h.buckets
  log := h.log

theorem Carried.leave (h : Carried incoming process carried)
    (hsame : phase.permits = Permits.heldBy Phase.permits process.tasks id)
    (answer : Except Failure Payload)
    : Turned incoming process (carried.leave id phase answer) id where
  tasks := by
    refine .inr ⟨.finished answer, by cases incoming <;> rfl, ?_, fun slot => ?_⟩
    . rw [Process.leave, foldl_drop, put, h.tasks]
    . rw [Process.leave, foldl_drop, put, h.free, hsame]
      rfl
  now := by
    rw [Process.leave, foldl_drop, put]
    exact h.now
  scripted := by
    rw [Process.leave, foldl_drop, put]
    exact h.scripted
  buckets := by
    rw [Process.leave, foldl_drop, put]
    exact h.buckets
  log := by
    rw [Process.leave, foldl_drop, put]
    exact h.log

theorem Carried.refuse (h : Carried incoming process carried)
    (hphase : process.tasks.lookup id = none) (answer : Except Failure Payload) (error : ApiError)
    : Turned incoming process (carried.fail id (.finished answer) error) id := by
  have hsame : (Phase.finished answer).permits = Permits.heldBy Phase.permits process.tasks id :=
    (heldBy_none hphase).symm
  exact h.leave hsame _

theorem abort_turned (h : process.tasks.lookup id = some phase)
    : Turned incoming process (process.abort id phase) id := by
  unfold abort
  split
  . exact Carried.refl.leave (heldBy_eq h).symm _
  . exact .refl

theorem enterPublic_turned (hphase : process.tasks.lookup id = none)
    (hruns : incoming.runs .publicRate = true)
    : Turned incoming process (process.enterPublic id) id := by
  unfold enterPublic
  split
  . exact Carried.refl.refuse hphase _ _
  . next taken htake =>
    rcases take_eq_ok htake with ⟨left, hleft, rfl⟩
    exact Carried.refl.take hleft hruns (by rw [heldBy_none hphase]; exact .refl _)

theorem stepPublicConfig_turned (limits : Limits) {phase : Option Phase} (turn : Turn)
    (hphase : process.tasks.lookup id = phase)
    : Turned .publicConfig process (process.stepPublicConfig limits id phase turn) id := by
  unfold stepPublicConfig
  split
  . exact enterPublic_turned hphase rfl
  . split
    . next hrate =>
      exact (rate_carried hrate (.inr (by decide))).leave (heldBy_eq hphase).symm _
    . next hrate =>
      exact (rate_carried hrate (.inr (by decide))).leave (heldBy_eq hphase).symm _
  . exact abort_turned hphase
  . exact .refl

theorem stepChallenge_turned (limits : Limits) (token : String) {phase : Option Phase} (turn : Turn)
    (hphase : process.tasks.lookup id = phase)
    : Turned (.challenge token) process (process.stepChallenge limits id token phase turn) id := by
  unfold stepChallenge
  split
  . exact enterPublic_turned hphase rfl
  . split
    . next hrate =>
      exact (rate_carried hrate (.inr (by decide))).leave (heldBy_eq hphase).symm _
    . next hrate =>
      exact (rate_carried hrate (.inr (by decide))).keep rfl (heldBy_eq hphase).symm
  . split
    . next hrate =>
      exact (rate_carried hrate (.inr (by decide))).leave (heldBy_eq hphase).symm _
    . next hrate =>
      exact (rate_carried hrate (.inr (by decide))).keep rfl (heldBy_eq hphase).symm
  . split
    next hcall =>
    split
    . exact (call_carried hcall).leave (heldBy_eq hphase).symm _
    . exact (call_carried hcall).leave (heldBy_eq hphase).symm _
  . exact abort_turned hphase
  . exact .refl

theorem stepCreateNote_turned (limits : Limits) (sha256 : Bytes → Bytes)
    (challenge nonce : List Bytes) (request : HttpRequest) {phase : Option Phase} (turn : Turn)
    (hphase : process.tasks.lookup id = phase)
    : Turned (.createNote challenge nonce request) process
        (process.stepCreateNote limits id sha256 challenge nonce request phase turn) id := by
  unfold stepCreateNote
  split
  . exact enterPublic_turned hphase rfl
  . split
    . next hrate =>
      exact (rate_carried hrate (.inr (by decide))).leave (heldBy_eq hphase).symm _
    . next hrate =>
      exact (rate_carried hrate (.inr (by decide))).keep rfl (heldBy_eq hphase).symm
  . split
    . next hrate =>
      exact (rate_carried hrate (.inr (by decide))).leave (heldBy_eq hphase).symm _
    . next hrate =>
      split
      . exact (rate_carried hrate (.inr (by decide))).leave (heldBy_eq hphase).symm _
      . exact (rate_carried hrate (.inr (by decide))).keep rfl (heldBy_eq hphase).symm
  . split
    next hcall =>
    split
    . exact (call_carried hcall).leave (heldBy_eq hphase).symm _
    . exact (call_carried hcall).keep rfl (heldBy_eq hphase).symm
  . split
    . exact Carried.refl.leave (heldBy_eq hphase).symm _
    . next htake =>
      rcases take_eq_ok htake with ⟨left, hleft, rfl⟩
      exact Carried.refl.take hleft rfl (by rw [heldBy_eq hphase]; exact .refl _)
  . split
    . exact Carried.refl.leave (heldBy_eq hphase).symm _
    . next htake =>
      rcases take_eq_ok htake with ⟨left, hleft, rfl⟩
      exact Carried.refl.take hleft rfl (by rw [heldBy_eq hphase]; exact .refl _)
  . apply Carried.refl.drop rfl
    rw [heldBy_eq hphase]
    change [Slots.packets, .uploads, .publicControls].Perm [.publicControls, .packets, .uploads]
    decide
  . split
    . exact Carried.refl.leave (heldBy_eq hphase).symm _
    . split
      . exact Carried.refl.leave (heldBy_eq hphase).symm _
      . exact Carried.refl.keep rfl (heldBy_eq hphase).symm
  . split
    next hcall =>
    split
    . exact (call_carried hcall).leave (heldBy_eq hphase).symm _
    . exact (call_carried hcall).leave (heldBy_eq hphase).symm _
  . exact abort_turned hphase
  . exact .refl

theorem stepHeld_turned {slot : Slots} {payload : Payload} {body : Bool} {chunks : Nat} (turn : Turn)
    (hphase : process.tasks.lookup id = some (.held slot payload body chunks))
    (hruns : ∀ body chunks, incoming.runs (.held slot payload body chunks) = true)
    : Turned incoming process (process.stepHeld id slot payload body chunks turn) id := by
  have hkeep (body' : Bool) (chunks' : Nat)
      : Turned incoming process (process.put id (.held slot payload body' chunks')) id :=
    Carried.refl.keep (hruns _ _) (heldBy_eq hphase).symm
  have hrelease (body' : Bool) (chunks' : Nat)
      : Turned incoming process (process.release id slot payload body' chunks') id := by
    unfold release
    split
    . exact hkeep _ _
    . have hsame : (Phase.held slot payload body' chunks').permits
          = Permits.heldBy Phase.permits process.tasks id := (heldBy_eq hphase).symm
      exact Carried.refl.leave hsame _
  unfold stepHeld
  split
  . split
    . exact hkeep _ _
    . exact .refl
  . split
    . exact hkeep _ _
    . exact .refl
  . split
    . exact hrelease _ _
    . exact .refl
  . split
    . exact hrelease _ _
    . exact .refl
  . exact .refl

theorem enterAccess_turned {route : AccessRoute} {note : String} {request : HttpRequest}
    (hphase : process.tasks.lookup id = none)
    : Turned (.access route note request) process (process.enterAccess id note) id := by
  unfold enterAccess
  split
  . exact Carried.refl.refuse hphase _ _
  . next hvalid =>
    have haccess : (Incoming.access route note request).isAccess = true := by
      simpa [Incoming.isAccess] using hvalid
    split
    . exact (Carried.refl.record haccess _).refuse hphase _ _
    . next htake =>
      rcases take_eq_ok htake with ⟨left, hleft, rfl⟩
      exact (Carried.refl.record haccess _).take hleft haccess (by rw [heldBy_none hphase]; exact .refl _)

theorem settle_turned {route : AccessRoute} {note hash : String} {request : HttpRequest}
    {reply : Except ApiError (List Bytes)}
    (hphase : process.tasks.lookup id = some (.answered hash reply))
    (haccess : (Incoming.access route note request).isAccess = true)
    : Turned (.access route note request) process (process.settle id route hash reply) id := by
  unfold settle
  split
  . exact Carried.refl.keep haccess (heldBy_eq hphase).symm
  . exact Carried.refl.keep haccess (heldBy_eq hphase).symm
  . split
    . exact Carried.refl.keep haccess (heldBy_eq hphase).symm
    . split
      . exact (Carried.refl.record haccess _).keep haccess (heldBy_eq hphase).symm
      . next htake =>
        rcases take_eq_ok htake with ⟨left, hleft, rfl⟩
        exact (Carried.refl.record haccess _).take hleft haccess
          (by rw [heldBy_eq hphase]; exact .refl _)

theorem stepAccess_turned (limits : Limits) (sha256 : Bytes → Bytes) (route : AccessRoute)
    (note : String) (request : HttpRequest) {phase : Option Phase} (turn : Turn)
    (hphase : process.tasks.lookup id = phase)
    (hruns : ∀ present, phase = some present
      → (Incoming.access route note request).runs present = true)
    : Turned (.access route note request) process
        (process.stepAccess limits id sha256 route note request phase turn) id := by
  unfold stepAccess
  split
  . exact enterAccess_turned hphase
  . have haccess : (Incoming.access route note request).isAccess = true := hruns _ rfl
    split
    next hrate =>
    split
    . exact ((rate_carried hrate (.inl haccess)).record haccess _).leave (heldBy_eq hphase).symm _
    . exact ((rate_carried hrate (.inl haccess)).record haccess _).keep haccess (heldBy_eq hphase).symm
  . have haccess : validId note = true := hruns _ rfl
    split
    . exact Carried.refl.leave (heldBy_eq hphase).symm _
    . exact Carried.refl.keep haccess (heldBy_eq hphase).symm
  . have haccess : validId note = true := hruns _ rfl
    split
    next hcall =>
    exact (call_carried hcall).keep haccess (heldBy_eq hphase).symm
  . exact settle_turned hphase (hruns _ rfl)
  . exact Carried.refl.leave (heldBy_eq hphase).symm _
  . next hash =>
    have haccess : validId note = true := hruns _ rfl
    have hopening : (Incoming.access route note request).runs (.opening hash) = true := haccess
    apply Carried.refl.drop hopening
    rw [heldBy_eq hphase]
    change [Slots.packets, .accessControls].Perm [.accessControls, .packets]
    decide
  . have haccess : validId note = true := hruns _ rfl
    split
    next hcall =>
    split
    . exact (call_carried hcall).leave (heldBy_eq hphase).symm _
    . exact (call_carried hcall).keep haccess (heldBy_eq hphase).symm
  . have haccess : validId note = true := hruns _ rfl
    exact stepHeld_turned _ hphase fun _ _ => haccess
  . exact abort_turned hphase
  . exact .refl

theorem stepPage_turned {phase : Option Phase} (turn : Turn) (hphase : process.tasks.lookup id = phase)
    : Turned .page process (process.stepPage id phase turn) id := by
  unfold stepPage
  split
  . split
    . exact Carried.refl.refuse hphase _ _
    . next htake =>
      rcases take_eq_ok htake with ⟨left, hleft, rfl⟩
      exact Carried.refl.take hleft rfl (by rw [heldBy_none hphase]; exact .refl _)
  . exact Carried.refl.keep rfl (heldBy_eq hphase).symm
  . exact stepHeld_turned _ hphase fun _ _ => rfl
  . exact abort_turned hphase
  . exact .refl

theorem stepRejected_turned {error : ApiError} {phase : Option Phase} (turn : Turn)
    (hphase : process.tasks.lookup id = phase)
    : Turned (.rejected error) process (process.stepRejected id error phase turn) id := by
  unfold stepRejected
  split
  . exact Carried.refl.keep rfl (heldBy_none hphase).symm
  . exact .refl

/--
Every turn of a request is one of its handler's.
-/
theorem stepTurn_turned (sha256 : Bytes → Bytes) (limits : Limits) (requests : Nat → Incoming)
    (turn : Turn)
    (hruns : ∀ phase, process.tasks.lookup id = some phase → (requests id).runs phase = true)
    : Turned (requests id) process (process.stepTurn sha256 limits requests id turn) id := by
  unfold stepTurn
  cases hrequest : requests id with
  | publicConfig => exact stepPublicConfig_turned limits turn rfl
  | challenge token => exact stepChallenge_turned limits token turn rfl
  | createNote challenge nonce request =>
    exact stepCreateNote_turned limits sha256 challenge nonce request turn rfl
  | access route note request =>
    rw [hrequest] at hruns
    exact stepAccess_turned limits sha256 route note request turn rfl hruns
  | page => exact stepPage_turned turn rfl
  | rejected error => exact stepRejected_turned turn rfl

end

end Process

end Server
