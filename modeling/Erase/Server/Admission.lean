import Erase.Server.Turns

/-!
What decides about access requests: their own control slots, their own bucket and the clock. A process
under all of its traffic does to these what the access requests alone do.
-/

namespace Server

-- How far an access request has come, as far as its control slot goes.
inductive Place where
  | absent
  | rating
  | reading
  | asking
  | answered
  | settled
  | released
  deriving DecidableEq

def Phase.place : Phase → Place
  | accessRate => .rating
  | reading => .reading
  | asking _ => .asking
  | answered _ _ => .answered
  | settled _ => .settled
  | slotTaken _ => .settled
  | _ => .released

def Decision.isAdmission : Decision → Bool
  | packet _ => false
  | _ => true

@[ext]
structure Admission where
  controls : Nat
  bucket : Option Bucket
  now : Nat
  places : Nat → Place
  log : List (Nat × Decision)

namespace Admission

def put (admission : Admission) (id : Nat) (place : Place) : Admission :=
  { admission with places := Function.update admission.places id place }

def record (admission : Admission) (id : Nat) (decision : Decision) : Admission :=
  { admission with log := admission.log ++ [(id, decision)] }

def release (admission : Admission) (id : Nat) : Admission :=
  { admission.put id .released with controls := admission.controls + 1 }

def rate (limits : Limits) (admission : Admission) (delivery : Delivery)
    : Except ApiError Unit × Admission :=
  let (allowed, bucket) := Server.rate (limits.requestRate / 2) admission.now admission.bucket
  match delivery with
  | .delivered => (if allowed then .ok () else .error .rateLimited, { admission with bucket })
  | .lost true => (.error .capacity, { admission with bucket })
  | .lost false => (.error .capacity, admission)

def turn (limits : Limits) (readable : Bool) (admission : Admission) (id : Nat)
    : Place → Turn → Admission
  | .absent, .arrive =>
    if admission.controls = 0 then (admission.record id (.control false)).put id .released
    else
      { (admission.record id (.control true)).put id .rating with controls := admission.controls - 1 }
  | .rating, .reply delivery _ =>
    let (result, admission) := admission.rate limits delivery
    match result with
    | .error _ => (admission.record id (.rate result)).release id
    | .ok _ => (admission.record id (.rate result)).put id .reading
  | .reading, .reply _ _ => if readable then admission.put id .asking else admission.release id
  | .asking, .reply _ _ => admission.put id .answered
  | .answered, .proceed => admission.put id .settled
  | .settled, .proceed => admission.release id
  | .rating, .abort | .reading, .abort | .asking, .abort | .answered, .abort => admission.release id
  | _, _ => admission

end Admission

def HttpRequest.readable (sha256 : Bytes → Bytes) (request : HttpRequest) : Bool :=
  isOk (request.capability >>= fun capability => tokenHash sha256 capability.token)

def Incoming.readable (sha256 : Bytes → Bytes) : Incoming → Bool
  | .access _ _ request => request.readable sha256
  | _ => false

namespace Process

section

variable (requests : Nat → Incoming)

def place (process : Process) (id : Nat) : Place :=
  if (requests id).isAccess then ((process.tasks.lookup id).map Phase.place).getD .absent else .absent

def admission (process : Process) : Admission where
  controls := process.free .accessControls
  bucket := process.buckets "access"
  now := process.cache.now
  places := process.place requests
  log := process.log.filter fun entry => entry.2.isAdmission

end

section

variable {requests : Nat → Incoming} {process carried : Process} {id : Nat}

theorem admission_put (haccess : (requests id).isAccess = true) (phase : Phase)
    : (process.put id phase).admission requests
        = (process.admission requests).put id phase.place := by
  apply Admission.ext
  . rfl
  . rfl
  . rfl
  . funext other
    by_cases hother : other = id
    . subst hother
      simp [admission, place, put, Admission.put, haccess]
    . simp [admission, place, put, Admission.put, hother]
  . rfl

theorem admission_leave (haccess : (requests id).isAccess = true) {phase : Phase}
    (hpermits : phase.permits.count .accessControls = 1) (answer : Except Failure Payload)
    : (process.leave id phase answer).admission requests = (process.admission requests).release id := by
  rw [leave, foldl_drop, admission_put haccess]
  apply Admission.ext
  . simp only [Admission.put, Admission.release, admission, hpermits]
  . rfl
  . rfl
  . rfl
  . rfl

theorem admission_fail (haccess : (requests id).isAccess = true) {phase : Phase}
    (hpermits : phase.permits.count .accessControls = 1) (error : ApiError)
    : (process.fail id phase error).admission requests = (process.admission requests).release id :=
  admission_leave haccess hpermits _

theorem admission_record (decision : Decision)
    : (process.record id decision).admission requests
        = if decision.isAdmission then (process.admission requests).record id decision
          else process.admission requests := by
  have hlog : ((process.record id decision).admission requests).log
      = (process.admission requests).log ++ if decision.isAdmission then [(id, decision)] else [] := by
    simp only [admission, record, List.filter_append, List.filter_cons, List.filter_nil]
  split
  . next h =>
    rw [if_pos h] at hlog
    exact Admission.ext rfl rfl rfl rfl hlog
  . next h =>
    rw [if_neg h, List.append_nil] at hlog
    exact Admission.ext rfl rfl rfl rfl hlog

theorem admission_call (delivery : Delivery) (denied : Site → Bool) (request : Request)
    : (process.call delivery denied request).2.admission requests = process.admission requests := by
  cases delivery with
  | delivered => rfl
  | lost executed =>
    cases executed with
    | true => rfl
    | false => rfl

theorem admission_rate (limits : Limits) (delivery : Delivery)
    : (process.admission requests).rate limits delivery
        = ((process.rate "access" (limits.requestRate / 2) delivery).1,
          (process.rate "access" (limits.requestRate / 2) delivery).2.admission requests) := by
  unfold rate Admission.rate
  cases delivery with
  | delivered =>
    simp only [admission, Function.update_self]
    rfl
  | lost executed =>
    cases executed with
    | true =>
      simp only [admission, Function.update_self]
      rfl
    | false => rfl

theorem admission_take {slot : Slots} {left : Nat} (hother : slot ≠ .accessControls)
    : ({ process with free := Function.update process.free slot left }).admission requests
        = process.admission requests :=
  Admission.ext (Function.update_of_ne hother.symm _ _) rfl rfl rfl rfl

theorem enterAccess_admission {limits : Limits} {readable : Bool} {note : String}
    (hvalid : validId note = true) (haccess : (requests id).isAccess = true)
    : (process.enterAccess id note).admission requests
        = (process.admission requests).turn limits readable id .absent .arrive := by
  have hnot : ¬(!validId note) = true := by simp [hvalid]
  unfold enterAccess
  rw [if_neg hnot]
  split
  . next error htake =>
    have hnone : (process.admission requests).controls = 0 := (take_eq_error htake).1
    simp only [Admission.turn, if_pos hnone, fail, leave, Phase.permits, List.foldl_nil]
    rw [admission_put haccess, admission_record]
    rfl
  . next taken htake =>
    rcases take_eq_ok htake with ⟨left, hleft, rfl⟩
    have hsome : (process.admission requests).controls = left + 1 := hleft
    have hpositive : ¬(process.admission requests).controls = 0 := by omega
    simp only [Admission.turn, if_neg hpositive]
    rw [admission_put haccess, admission_record]
    apply Admission.ext
    . simp only [hsome, Nat.add_sub_cancel]
      change Function.update process.free .accessControls left .accessControls = left
      rw [Function.update_self]
    . rfl
    . rfl
    . rfl
    . rfl

theorem settle_admission {route : AccessRoute} {hash : String} {reply : Except ApiError (List Bytes)}
    (haccess : (requests id).isAccess = true)
    : (process.settle id route hash reply).admission requests
        = (process.admission requests).put id .settled := by
  unfold settle
  split
  . exact admission_put haccess _
  . exact admission_put haccess _
  . split
    . exact admission_put haccess _
    . split
      . rw [admission_put haccess, admission_record]
        rfl
      . next taken htake =>
        rcases take_eq_ok htake with ⟨left, _, rfl⟩
        rw [admission_put haccess, admission_record]
        exact congrArg (Admission.put · id .settled) (admission_take (by decide))

theorem stepHeld_admission (haccess : (requests id).isAccess = true) {payload : Payload} {body : Bool}
    {chunks : Nat} (hphase : process.tasks.lookup id = some (.held .packets payload body chunks))
    (turn : Turn)
    : (process.stepHeld id .packets payload body chunks turn).admission requests
        = process.admission requests := by
  have hplace : (process.admission requests).places id = .released := by
    simp [admission, place, haccess, hphase, Phase.place]
  have hreleased : (process.admission requests).put id .released = process.admission requests := by
    rw [Admission.put, ← hplace, Function.update_eq_self]
  have hput (body' : Bool) (chunks' : Nat)
      : (process.put id (.held .packets payload body' chunks')).admission requests
          = process.admission requests := by
    rw [admission_put haccess]
    exact hreleased
  have hrelease (body' : Bool) (chunks' : Nat)
      : (process.release id .packets payload body' chunks').admission requests
          = process.admission requests := by
    unfold release
    split
    . exact hput _ _
    . rw [leave, foldl_drop, admission_put haccess]
      refine Eq.trans ?_ hreleased
      apply Admission.ext
      . rfl
      . rfl
      . rfl
      . rfl
      . rfl
  unfold stepHeld
  split
  . split
    . exact hput _ _
    . rfl
  . split
    . exact hput _ _
    . rfl
  . split
    . exact hrelease _ _
    . rfl
  . split
    . exact hrelease _ _
    . rfl
  . rfl

theorem stepAccess_admission {limits : Limits} {sha256 : Bytes → Bytes} {route : AccessRoute}
    {note : String} {request : HttpRequest} {phase : Option Phase} (turn : Turn)
    (haccess : (requests id).isAccess = true) (hvalid : validId note = true)
    (hphase : process.tasks.lookup id = phase)
    (hruns : ∀ present, phase = some present
      → (Incoming.access route note request).runs present = true)
    : (process.stepAccess limits id sha256 route note request phase turn).admission requests
        = (process.admission requests).turn limits (request.readable sha256) id
            ((phase.map Phase.place).getD .absent) turn := by
  rcases phase with _ | phase
  . cases turn with
    | arrive => exact enterAccess_admission hvalid haccess
    | _ => rfl
  cases phase with
  | accessRate =>
    cases turn with
    | reply delivery denied =>
      simp only [stepAccess, Admission.turn, Phase.place, Option.map_some, Option.getD_some]
      rw [admission_rate]
      cases (process.rate "access" (limits.requestRate / 2) delivery).1 with
      | error error =>
        dsimp only
        rw [admission_fail haccess rfl, admission_record]
        rfl
      | ok _ =>
        dsimp only
        rw [admission_put haccess, admission_record]
        rfl
    | abort => exact admission_fail haccess rfl _
    | _ => rfl
  | reading =>
    cases turn with
    | reply delivery denied =>
      simp only [stepAccess, Admission.turn, Phase.place, Option.map_some, Option.getD_some]
      split
      . next error herror =>
        have hreadable : ¬request.readable sha256 = true := by simp [HttpRequest.readable, herror, isOk]
        rw [if_neg hreadable]
        exact admission_fail haccess rfl _
      . next hash hok =>
        have hreadable : request.readable sha256 = true := by simp [HttpRequest.readable, hok, isOk]
        rw [if_pos hreadable]
        exact admission_put haccess _
    | abort => exact admission_fail haccess rfl _
    | _ => rfl
  | asking hash =>
    cases turn with
    | reply delivery denied =>
      simp only [stepAccess, Admission.turn, Phase.place, Option.map_some, Option.getD_some]
      rw [admission_put haccess, admission_call]
      rfl
    | abort => exact admission_fail haccess rfl _
    | _ => rfl
  | answered hash reply =>
    cases turn with
    | proceed => exact settle_admission haccess
    | abort => exact admission_fail haccess rfl _
    | _ => rfl
  | settled answer =>
    cases turn with
    | proceed => exact admission_leave haccess rfl _
    | _ => rfl
  | slotTaken hash =>
    cases turn with
    | proceed =>
      simp only [stepAccess, Admission.turn, Phase.place, Option.map_some, Option.getD_some]
      rw [admission_put haccess]
      apply Admission.ext
      . change Function.update process.free .accessControls _ .accessControls = _
        rw [Function.update_self]
        rfl
      . rfl
      . rfl
      . rfl
      . rfl
    | _ => rfl
  | opening hash =>
    have hplace : (process.admission requests).places id = .released := by
      simp [admission, place, haccess, hphase, Phase.place]
    have hreleased : (process.admission requests).put id .released = process.admission requests := by
      rw [Admission.put, ← hplace, Function.update_eq_self]
    have hfail (carried : Process) (error : ApiError)
        (hsame : carried.admission requests = process.admission requests)
        : (carried.fail id (.opening hash) error).admission requests = process.admission requests := by
      rw [fail, leave, foldl_drop, admission_put haccess]
      refine Eq.trans ?_ hreleased
      rw [← hsame]
      apply Admission.ext
      . rfl
      . rfl
      . rfl
      . rfl
      . rfl
    cases turn with
    | reply delivery denied =>
      simp only [stepAccess, Admission.turn, Phase.place, Option.map_some, Option.getD_some]
      split
      . exact hfail _ _ (admission_call _ _ _)
      . rw [admission_put haccess, admission_call]
        exact hreleased
    | abort => exact hfail _ _ rfl
    | _ => rfl
  | held slot payload body chunks =>
    cases slot with
    | packets =>
      rw [stepAccess, stepHeld_admission haccess hphase]
      cases turn <;> rfl
    | _ => cases hruns _ rfl
  | finished answer => cases turn <;> rfl
  | _ => cases hruns _ rfl

end

end Process

end Server
