import Erase.Server.Router
import Erase.Server.Starvation

/-!
Requests that name no call of the API leave no trace in what the calls of the API meet.
-/

namespace Server

def Incoming.isCall : Incoming → Bool
  | page | rejected _ => false
  | _ => true

namespace Process

-- Two processes that the calls of the API cannot tell apart.
structure Alike (requests : Nat → Incoming) (left right : Process) : Prop where
  free : ∀ slot, slot ≠ .staticSlots → left.free slot = right.free slot
  buckets : left.buckets = right.buckets
  cache : left.cache = right.cache
  log : left.log = right.log
  tasks : ∀ id, (requests id).isCall = true → left.tasks.lookup id = right.tasks.lookup id

section

variable {requests : Nat → Incoming} {left right : Process} {id : Nat}

theorem Alike.refl : Alike requests left left :=
  ⟨fun _ _ => rfl, rfl, rfl, rfl, fun _ _ => rfl⟩

theorem Alike.put (h : Alike requests left right) (id : Nat) (phase : Phase)
    : Alike requests (left.put id phase) (right.put id phase) where
  free := h.free
  buckets := h.buckets
  cache := h.cache
  log := h.log
  tasks other hother := by
    simp only [Process.put, FiniteMap.lookup_insert_ite, h.tasks other hother]

theorem Alike.drop (h : Alike requests left right) (slot : Slots)
    : Alike requests (left.drop slot) (right.drop slot) where
  free other hother := by
    by_cases hslot : other = slot
    . subst hslot
      simp only [Process.drop, Function.update_self, h.free other hother]
    . simp only [Process.drop, Function.update_of_ne hslot, h.free other hother]
  buckets := h.buckets
  cache := h.cache
  log := h.log
  tasks := h.tasks

theorem Alike.leave (h : Alike requests left right) (id : Nat) (phase : Phase)
    (answer : Except Failure Payload)
    : Alike requests (left.leave id phase answer) (right.leave id phase answer) := by
  apply Alike.put
  induction phase.permits generalizing left right with
  | nil => exact h
  | cons slot slots ih => exact ih (h.drop slot)

theorem Alike.fail (h : Alike requests left right) (id : Nat) (phase : Phase) (error : ApiError)
    : Alike requests (left.fail id phase error) (right.fail id phase error) :=
  h.leave id phase _

theorem Alike.abort (h : Alike requests left right) (id : Nat) (phase : Phase)
    : Alike requests (left.abort id phase) (right.abort id phase) := by
  unfold Process.abort
  split
  . apply h.fail
  . exact h

theorem Alike.record (h : Alike requests left right) (id : Nat) (decision : Decision)
    : Alike requests (left.record id decision) (right.record id decision) where
  free := h.free
  buckets := h.buckets
  cache := h.cache
  log := by simp only [Process.record, h.log]
  tasks := h.tasks

theorem Alike.take (h : Alike requests left right) (slot : Slots) (hslot : slot ≠ .staticSlots)
    : (∃ error, left.take slot = .error error ∧ right.take slot = .error error)
        ∨ ∃ left' right', left.take slot = .ok left' ∧ right.take slot = .ok right'
          ∧ Alike requests left' right' := by
  unfold Process.take
  rw [h.free slot hslot]
  cases takeSlot (right.free slot) with
  | error error => exact .inl ⟨error, rfl, rfl⟩
  | ok remaining =>
    refine .inr ⟨_, _, rfl, rfl, ?_, h.buckets, h.cache, h.log, h.tasks⟩
    intro other hother
    by_cases hsame : other = slot
    . simp only [hsame, Function.update_self]
    . simp only [Function.update_of_ne hsame, h.free other hother]

theorem Alike.update (h : Alike requests left right) (buckets : String → Option Bucket) (cache : Cache)
    : Alike requests { left with buckets, cache } { right with buckets, cache } :=
  ⟨h.free, rfl, rfl, h.log, h.tasks⟩

theorem Alike.rate (h : Alike requests left right) (name : String) (perSecond : ℚ) (delivery : Delivery)
    : ∃ result left' right', left.rate name perSecond delivery = (result, left')
        ∧ right.rate name perSecond delivery = (result, right') ∧ Alike requests left' right' := by
  unfold Process.rate
  rw [h.cache, h.buckets]
  cases delivery with
  | delivered => exact ⟨_, _, _, rfl, rfl, h.update _ _⟩
  | lost executed =>
    cases executed with
    | true => exact ⟨_, _, _, rfl, rfl, h.update _ _⟩
    | false => exact ⟨_, _, _, rfl, rfl, h⟩

theorem Alike.call (h : Alike requests left right) (delivery : Delivery) (denied : Site → Bool)
    (request : Request)
    : ∃ reply left' right', left.call delivery denied request = (reply, left')
        ∧ right.call delivery denied request = (reply, right') ∧ Alike requests left' right' := by
  unfold Process.call
  rw [h.cache, h.buckets]
  cases delivery with
  | delivered => exact ⟨_, _, _, rfl, rfl, h.update _ _⟩
  | lost executed =>
    cases executed with
    | true => exact ⟨_, _, _, rfl, rfl, h.update _ _⟩
    | false => exact ⟨_, _, _, rfl, rfl, h⟩

end

section

variable {requests : Nat → Incoming} {left right : Process} (id : Nat)

theorem Alike.enterPublic (h : Alike requests left right)
    : Alike requests (left.enterPublic id) (right.enterPublic id) := by
  unfold Process.enterPublic
  rcases h.take .publicControls (by decide) with ⟨error, hleft, hright⟩ | ⟨_, _, hleft, hright, h'⟩
  . rw [hleft, hright]
    apply h.fail
  . rw [hleft, hright]
    apply h'.put

theorem Alike.stepPublicConfig (h : Alike requests left right) (limits : Limits) (phase : Option Phase)
    (turn : Turn)
    : Alike requests (left.stepPublicConfig limits id phase turn)
        (right.stepPublicConfig limits id phase turn) := by
  unfold Process.stepPublicConfig
  split
  . exact h.enterPublic id
  . next delivery _ =>
    rcases h.rate "public" (publicRate limits) delivery with ⟨result, _, _, hleft, hright, h'⟩
    rw [hleft, hright]
    cases result with
    | error error => exact h'.fail id _ _
    | ok _ => exact h'.leave id _ _
  . exact h.abort id _
  . exact h

theorem Alike.stepChallenge (h : Alike requests left right) (limits : Limits) (token : String)
    (phase : Option Phase) (turn : Turn)
    : Alike requests (left.stepChallenge limits id token phase turn)
        (right.stepChallenge limits id token phase turn) := by
  unfold Process.stepChallenge
  split
  . exact h.enterPublic id
  . next delivery _ =>
    rcases h.rate "public" (publicRate limits) delivery with ⟨result, _, _, hleft, hright, h'⟩
    rw [hleft, hright]
    cases result with
    | error error => exact h'.fail id _ _
    | ok _ => exact h'.put id _
  . next delivery _ =>
    rcases h.rate "challenge" limits.challengeRate delivery with ⟨result, _, _, hleft, hright, h'⟩
    rw [hleft, hright]
    cases result with
    | error error => exact h'.fail id _ _
    | ok _ => exact h'.put id _
  . next delivery denied =>
    rcases h.call delivery denied (.issue limits.config (asBytes token))
      with ⟨reply, _, _, hleft, hright, h'⟩
    rw [hleft, hright]
    dsimp only
    cases reply >>= Challenge.ofParts limits.config token with
    | error error => exact h'.fail id _ _
    | ok challenge => exact h'.leave id _ _
  . exact h.abort id _
  . exact h

theorem Alike.stepCreateNote (h : Alike requests left right) (limits : Limits) (sha256 : Bytes → Bytes)
    (challenge nonce : List Bytes) (request : HttpRequest) (phase : Option Phase) (turn : Turn)
    : Alike requests (left.stepCreateNote limits id sha256 challenge nonce request phase turn)
        (right.stepCreateNote limits id sha256 challenge nonce request phase turn) := by
  unfold Process.stepCreateNote
  split
  . exact h.enterPublic id
  . next delivery _ =>
    rcases h.rate "public" (publicRate limits) delivery with ⟨result, _, _, hleft, hright, h'⟩
    rw [hleft, hright]
    cases result with
    | error error => exact h'.fail id _ _
    | ok _ => exact h'.put id _
  . next delivery _ =>
    rcases h.rate "create" limits.createRate delivery with ⟨result, _, _, hleft, hright, h'⟩
    rw [hleft, hright]
    cases result with
    | error error => exact h'.fail id _ _
    | ok _ =>
      dsimp only
      cases proofHeaders challenge nonce with
      | error error => exact h'.fail id _ _
      | ok proof => exact h'.put id _
  . next challenge nonce delivery denied =>
    rcases h.call delivery denied (.inspectProof (asBytes challenge)) with ⟨reply, _, _, hleft, hright, h'⟩
    rw [hleft, hright]
    dsimp only
    cases reply >>= bitsOf with
    | error error => exact h'.fail id _ _
    | ok bits => exact h'.put id _
  . next upload =>
    rcases h.take .uploads (by decide) with ⟨error, hleft, hright⟩ | ⟨_, _, hleft, hright, h'⟩
    . rw [hleft, hright]
      exact h.fail id _ _
    . rw [hleft, hright]
      exact h'.put id _
  . next upload =>
    rcases h.take .packets (by decide) with ⟨error, hleft, hright⟩ | ⟨_, _, hleft, hright, h'⟩
    . rw [hleft, hright]
      exact h.fail id _ _
    . rw [hleft, hright]
      exact h'.put id _
  . exact (h.drop _).put id _
  . next upload _ _ =>
    cases body request "application/octet-stream" maxPacketBytes with
    | error error => exact h.fail id _ _
    | ok bytes =>
      dsimp only
      cases upload.receive sha256 bytes with
      | error failure => exact h.leave id _ _
      | ok packet => exact h.put id _
  . next packet challenge delivery denied =>
    rcases h.call delivery denied (.create limits.config packet (asBytes challenge))
      with ⟨reply, _, _, hleft, hright, h'⟩
    rw [hleft, hright]
    dsimp only
    cases reply >>= Created.ofParts packet with
    | error error => exact h'.fail id _ _
    | ok created => exact h'.leave id _ _
  . exact h.abort id _
  . exact h

theorem Alike.enterAccess (h : Alike requests left right) (note : String)
    : Alike requests (left.enterAccess id note) (right.enterAccess id note) := by
  unfold Process.enterAccess
  split
  . exact h.fail id _ _
  . rcases h.take .accessControls (by decide) with ⟨error, hleft, hright⟩ | ⟨_, _, hleft, hright, h'⟩
    . rw [hleft, hright]
      exact (h.record id _).fail id _ _
    . rw [hleft, hright]
      exact (h'.record id _).put id _

theorem Alike.settle (h : Alike requests left right) (route : AccessRoute) (hash : String)
    (reply : Except ApiError (List Bytes))
    : Alike requests (left.settle id route hash reply) (right.settle id route hash reply) := by
  unfold Process.settle
  split
  . exact h.put id _
  . exact h.put id _
  . split
    . exact h.put id _
    . rcases h.take .packets (by decide) with ⟨error, hleft, hright⟩ | ⟨_, _, hleft, hright, h'⟩
      . rw [hleft, hright]
        exact (h.record id _).put id _
      . rw [hleft, hright]
        exact (h'.record id _).put id _

theorem Alike.release (h : Alike requests left right) (slot : Slots) (payload : Payload) (body : Bool)
    (chunks : Nat)
    : Alike requests (left.release id slot payload body chunks) (right.release id slot payload body chunks) := by
  unfold Process.release
  split
  . exact h.put id _
  . exact h.leave id _ _

theorem Alike.stepHeld (h : Alike requests left right) (slot : Slots) (payload : Payload) (body : Bool)
    (chunks : Nat) (turn : Turn)
    : Alike requests (left.stepHeld id slot payload body chunks turn)
        (right.stepHeld id slot payload body chunks turn) := by
  unfold Process.stepHeld
  split
  . split
    . exact h.put id _
    . exact h
  . split
    . exact h.put id _
    . exact h
  . split
    . exact h.release id slot payload _ _
    . exact h
  . split
    . exact h.release id slot payload _ _
    . exact h
  . exact h

theorem Alike.stepAccess (h : Alike requests left right) (limits : Limits) (sha256 : Bytes → Bytes)
    (route : AccessRoute) (note : String) (request : HttpRequest) (phase : Option Phase) (turn : Turn)
    : Alike requests (left.stepAccess limits id sha256 route note request phase turn)
        (right.stepAccess limits id sha256 route note request phase turn) := by
  unfold Process.stepAccess
  split
  . exact h.enterAccess id note
  . next delivery _ =>
    rcases h.rate "access" (limits.requestRate / 2) delivery with ⟨result, _, _, hleft, hright, h'⟩
    rw [hleft, hright]
    dsimp only
    cases result with
    | error error => exact (h'.record id _).fail id _ _
    | ok _ => exact (h'.record id _).put id _
  . cases request.capability >>= fun capability => tokenHash sha256 capability.token with
    | error error => exact h.fail id _ _
    | ok hash => exact h.put id _
  . next hash delivery denied =>
    rcases h.call delivery denied (.access (asBytes note) (asBytes hash) route.operation)
      with ⟨reply, _, _, hleft, hright, h'⟩
    rw [hleft, hright]
    exact h'.put id _
  . exact h.settle id route _ _
  . exact h.leave id _ _
  . exact (h.drop _).put id _
  . next hash delivery denied =>
    rcases h.call delivery denied (.access (asBytes note) (asBytes hash) .openNote)
      with ⟨reply, _, _, hleft, hright, h'⟩
    rw [hleft, hright]
    dsimp only
    cases reply >>= packetOf with
    | error error => exact h'.fail id _ _
    | ok packet => exact h'.put id _
  . exact h.stepHeld id _ _ _ _ turn
  . exact h.abort id _
  . exact h

theorem Alike.stepCall (h : Alike requests left right) (limits : Limits) (sha256 : Bytes → Bytes)
    (hcall : (requests id).isCall = true) (turn : Turn)
    : Alike requests (left.stepTurn sha256 limits requests id turn)
        (right.stepTurn sha256 limits requests id turn) := by
  unfold Process.stepTurn
  rw [h.tasks id hcall]
  cases hrequest : requests id with
  | publicConfig => exact h.stepPublicConfig id limits _ turn
  | challenge token => exact h.stepChallenge id limits token _ turn
  | createNote challenge nonce request => exact h.stepCreateNote id limits sha256 challenge nonce request _ turn
  | access route note request => exact h.stepAccess id limits sha256 route note request _ turn
  | page =>
    rw [hrequest] at hcall
    cases hcall
  | rejected error =>
    rw [hrequest] at hcall
    cases hcall

end

section

variable {requests : Nat → Incoming} {left right : Process} {id : Nat}

theorem Alike.unseen_put (h : Alike requests left right) (hcall : (requests id).isCall = false)
    (phase : Phase)
    : Alike requests (left.put id phase) right where
  free := h.free
  buckets := h.buckets
  cache := h.cache
  log := h.log
  tasks other hother := by
    have hne : other ≠ id := by
      rintro rfl
      rw [hcall] at hother
      cases hother
    simp only [Process.put, FiniteMap.lookup_insert_ite, if_neg hne, h.tasks other hother]

theorem Alike.unseen_leave (h : Alike requests left right) (hcall : (requests id).isCall = false)
    {phase : Phase} (hpermits : phase.permits ⊆ [.staticSlots]) (answer : Except Failure Payload)
    : Alike requests (left.leave id phase answer) right := by
  apply Alike.unseen_put _ hcall
  rw [foldl_drop]
  refine ⟨?_, h.buckets, h.cache, h.log, h.tasks⟩
  intro slot hslot
  have hcount : phase.permits.count slot = 0 := by
    apply List.count_eq_zero.mpr
    intro hmem
    exact hslot (List.mem_singleton.mp (hpermits hmem))
  simp only [hcount, Nat.add_zero]
  exact h.free slot hslot

theorem Alike.unseen_held (h : Alike requests left right) (hcall : (requests id).isCall = false)
    (payload : Payload) (body : Bool) (chunks : Nat) (turn : Turn)
    : Alike requests (left.stepHeld id .staticSlots payload body chunks turn) right := by
  have hput : ∀ body chunks, Alike requests (left.put id (.held .staticSlots payload body chunks)) right :=
    fun _ _ => h.unseen_put hcall _
  have hrelease : ∀ body chunks, Alike requests (left.release id .staticSlots payload body chunks) right := by
    intro body chunks
    unfold Process.release
    split
    . exact hput _ _
    . exact h.unseen_leave hcall (List.Subset.refl _) _
  unfold Process.stepHeld
  split
  . split
    . exact hput _ _
    . exact h
  . split
    . exact hput _ _
    . exact h
  . split
    . exact hrelease _ _
    . exact h
  . split
    . exact hrelease _ _
    . exact h
  . exact h

theorem Alike.unseen_page (h : Alike requests left right) (hpage : requests id = .page)
    (hruns : ∀ phase, left.tasks.lookup id = some phase → (requests id).runs phase = true) (turn : Turn)
    : Alike requests (left.stepPage id (left.tasks.lookup id) turn) right := by
  have hcall : (requests id).isCall = false := by
    rw [hpage]
    rfl
  rw [hpage] at hruns
  unfold Process.stepPage
  split
  . split
    . exact h.unseen_leave hcall (List.nil_subset _) _
    . next taken htake =>
      rcases take_eq_ok htake with ⟨remaining, -, rfl⟩
      apply Alike.unseen_put _ hcall
      refine ⟨?_, h.buckets, h.cache, h.log, h.tasks⟩
      intro slot hslot
      rw [← h.free slot hslot]
      exact Function.update_of_ne hslot _ _
  . exact h.unseen_put hcall _
  . apply h.unseen_held hcall
  . next phase _ hphase =>
    unfold Process.abort
    split
    . apply h.unseen_leave hcall
      have hplaced := hruns phase hphase
      cases phase with
      | held slot payload body chunks =>
        cases slot with
        | staticSlots => exact List.Subset.refl _
        | _ => cases hplaced
      | serving => exact List.Subset.refl _
      | finished answer => exact List.nil_subset _
      | _ => cases hplaced
    . exact h
  . exact h

theorem Alike.unseen (h : Alike requests left right) (limits : Limits) (sha256 : Bytes → Bytes)
    (hcall : (requests id).isCall = false)
    (hruns : ∀ phase, left.tasks.lookup id = some phase → (requests id).runs phase = true) (turn : Turn)
    : Alike requests (left.stepTurn sha256 limits requests id turn) right := by
  unfold Process.stepTurn
  cases hrequest : requests id with
  | page => exact h.unseen_page hrequest hruns turn
  | rejected error =>
    dsimp only
    unfold Process.stepRejected
    split
    . exact h.unseen_put hcall _
    . exact h
  | _ =>
    rw [hrequest] at hcall
    cases hcall

def keepsCalls (requests : Nat → Incoming) : Move → Bool
  | .elsewhere _ => true
  | .turn id _ => (requests id).isCall

theorem alike_run {limits : Limits} (sha256 : Bytes → Bytes) {start : Process}
    (hordered : start.Ordered limits requests) (moves : List Move)
    : Alike requests (start.run sha256 limits requests moves)
        (start.run sha256 limits requests (moves.filter (keepsCalls requests))) := by
  let Related (left right : Process) : Prop := left.Ordered limits requests ∧ Alike requests left right
  have hvisible {left right : Process} {move : Move} (hmove : keepsCalls requests move = true)
      (h : Related left right)
      : Related (left.step sha256 limits requests move) (right.step sha256 limits requests move) := by
    refine ⟨h.1.step sha256 move, ?_⟩
    cases move with
    | elsewhere event =>
      refine ⟨h.2.free, h.2.buckets, ?_, h.2.log, h.2.tasks⟩
      simp only [step, h.2.cache]
    | turn id turn => exact h.2.stepCall id limits sha256 hmove turn
  have hother {left right : Process} {move : Move} (hmove : keepsCalls requests move = false)
      (h : Related left right)
      : Related (left.step sha256 limits requests move) right := by
    refine ⟨h.1.step sha256 move, ?_⟩
    cases move with
    | elsewhere event => cases hmove
    | turn id turn => exact h.2.unseen limits sha256 hmove (h.1.placed id) turn
  have hrelated : Related (moves.foldl (step sha256 limits requests) start)
      ((moves.filter (keepsCalls requests)).foldl (step sha256 limits requests) start) :=
    Runs.purge hvisible hother ⟨hordered, Alike.refl⟩
  exact hrelated.2

end

end Process

theorem isCall_incoming (head : RequestHead) (body : Transfer) (token : String) (call : ApiCall)
    : (call.incoming head body token).isCall = true := by
  cases call <;> rfl

open Process in
/--
Whatever else arrives, in whichever order it goes on, leaves the answers to the calls of the API, their
permits and rates, and the cache as they are without it.
-/
theorem refused_requests_unseen (sha256 : Bytes → Bytes) (config : Configuration)
    (heads : Nat → RequestHead) (bodies : Nat → Transfer) (tokens : Nat → String) (cache : Cache)
    (buckets : String → Option Bucket) {start : Process}
    (hstart : buildRouter config.limits cache buckets = .ok start) (moves : List Move)
    : let requests := fun id => incoming config (heads id) (bodies id) (tokens id)
      (∀ id, (requests id).isCall = true ↔ ∃ call : ApiCall, call.IsNamedBy config (heads id))
      ∧ Alike requests (start.run sha256 config.limits requests moves)
          (start.run sha256 config.limits requests (moves.filter (keepsCalls requests))) := by
  intro requests
  refine ⟨fun id => ?_, alike_run sha256 (ordered_buildRouter hstart) moves⟩
  constructor
  . intro hcall
    rcases incoming_cases config (heads id) (bodies id) (tokens id)
      with ⟨call, hincoming⟩ | hpage | ⟨error, hrejected⟩
    . exact ⟨call, incoming_eq_iff.mp hincoming⟩
    . rw [show requests id = .page from hpage] at hcall
      cases hcall
    . rw [show requests id = .rejected error from hrejected] at hcall
      cases hcall
  . rintro ⟨call, hnamed⟩
    rw [show requests id = call.incoming (heads id) (bodies id) (tokens id)
      from incoming_eq_iff.mpr hnamed]
    apply isCall_incoming

-- A request for the settings of the service, behind one with a wrong method.
def exampleHeads (id : Nat) : RequestHead where
  method := if id = 0 then .post else .get
  uri := { scheme := none, authority := none, path := "/api/config".toList, query := none }
  headers := [(asBytes "host", asBytes "localhost:3001")]

def exampleMoves : List Move := [.turn 0 .arrive, .turn 1 .arrive]

open Process in
theorem refused_requests_unseen_exampleMoves
    : ∃ start, buildRouter Configuration.default.limits (.empty 0) (fun _ => none) = .ok start
        ∧ let requests := fun id => incoming .default (exampleHeads id) .broken ""
          Alike requests (start.run id Configuration.default.limits requests exampleMoves)
            (start.run id Configuration.default.limits requests
              (exampleMoves.filter (keepsCalls requests))) :=
  ⟨_, rfl, (refused_requests_unseen id .default exampleHeads (fun _ => .broken) (fun _ => "") (.empty 0)
    (fun _ => none) rfl exampleMoves).2⟩

end Server
