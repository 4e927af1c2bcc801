import Erase.Server.Authorized

/-!
The memory that packets take in one process, and the permits that are back once its requests are answered.
-/

namespace Server

-- The bytes of a packet that a handler may have in memory: a body is limited while it is received, and
-- what the cache hands out is a packet that has once been received.
def Phase.buffered : Phase → Nat
  | receiving _ => maxPacketBytes
  | creating packet _ => packet.bytes.length
  | opening _ => maxPacketBytes
  | held _ (.access (.packet bytes)) _ _ => bytes.length
  | _ => 0

theorem Incoming.Earned.length_le {sha256 : Bytes → Bytes} {met : Met} {incoming : Incoming} {bytes : Bytes}
    (h : incoming.Earned sha256 met (.access (.packet bytes))) : bytes.length ≤ maxPacketBytes := by
  cases incoming with
  | access route note request =>
    rcases h with ⟨cache, stored, packet, hash, -, hshelved, -, hanswers⟩
    cases route with
    | metadata => cases hanswers.2
    | openNote =>
      cases hanswers.2
      exact hshelved.keeps.admitted.length_le
    | deleteNote => cases hanswers.2
  | _ => exact h.elim

-- Who has packet bytes in memory has a packet slot.
theorem Phase.buffered_le {sha256 : Bytes → Bytes} {met : Met} {incoming : Incoming} {phase : Phase}
    (hruns : incoming.runs phase = true) (hsound : incoming.Sound sha256 met phase)
    : phase.buffered ≤ maxPacketBytes * phase.permits.count .packets := by
  cases phase with
  | receiving upload => exact Nat.le_refl _
  | opening hash => exact Nat.le_refl _
  | creating packet challenge =>
    cases incoming with
    | createNote _ _ _ =>
      have hadmitted : Store.Admitted packet := hsound
      have hcount : (creating packet challenge).permits.count .packets = 1 := rfl
      rw [hcount, Nat.mul_one]
      exact hadmitted.length_le
    | _ => cases hruns
  | held slot payload body chunks =>
    have hearned := (Incoming.sound_held slot body chunks).mp hsound
    cases payload with
    | access response =>
      cases response with
      | packet bytes =>
        cases slot with
        | packets =>
          have hcount : (held .packets (.access (.packet bytes)) body chunks).permits.count .packets = 1 := rfl
          rw [hcount, Nat.mul_one]
          exact hearned.length_le
        | staticSlots =>
          cases incoming with
          | page => exact hearned.elim
          | _ => cases hruns
        | _ => cases incoming <;> cases hruns
      | _ => exact Nat.zero_le _
    | _ => exact Nat.zero_le _
  | _ => exact Nat.zero_le _

def Process.buffered (process : Process) : Nat := process.tasks.weigh Phase.buffered

/--
The packets that a process has in memory never take more than its packet slots allow for, however its requests
and the clients that are slow to take their answers overlap, and no permit outlives the request that took it.
-/
theorem buffers_bounded {sha256 : Bytes → Bytes} {limits : Limits} {requests : Nat → Incoming}
    {cache : Cache} {buckets : String → Option Bucket} {process : Process} {moves : List Move}
    (hbuilt : buildRouter limits cache buckets = .ok process)
    (hcache : ∃ start events answers, (Cache.empty start).run events = (cache, answers)
      ∧ ∀ event ∈ events, Store.Parses event)
    (hparses : ∀ event, .elsewhere event ∈ moves → Store.Parses event)
    : let last := process.run sha256 limits requests moves
      last.buffered ≤ limits.maxInFlight * maxPacketBytes
        ∧ ((∀ id phase, last.tasks.lookup id = some phase → ∃ answer, phase = .finished answer)
          → last.free = limits.capacity) := by
  intro last
  have hordered : last.Ordered limits requests := (Process.ordered_buildRouter hbuilt).run sha256 moves
  have hguarded : last.Guarded sha256 requests (Process.MetIn sha256 limits requests process moves) :=
    (Process.guarded_buildRouter hbuilt hcache).run hparses
  constructor
  . calc last.buffered
      _ ≤ last.tasks.weigh fun phase => maxPacketBytes * phase.permits.count .packets :=
        FiniteMap.weigh_le_of_lookup fun id phase hphase =>
          Phase.buffered_le (hordered.placed id phase hphase) (hguarded.sound id phase hphase)
      _ = maxPacketBytes * Permits.holding Phase.permits last.tasks .packets := FiniteMap.weigh_mul _ _ _
      _ ≤ maxPacketBytes * limits.maxInFlight :=
        Nat.mul_le_mul_left _ (hordered.conserved.holding_le .packets)
      _ = limits.maxInFlight * maxPacketBytes := Nat.mul_comm _ _
  . intro hfinished
    funext slot
    have hnone : Permits.holding Phase.permits last.tasks slot = 0 := by
      apply FiniteMap.weigh_eq_zero
      intro id phase hphase
      rcases hfinished id phase hphase with ⟨answer, rfl⟩
      rfl
    have hconserved := hordered.conserved slot
    omega

theorem buffers_bounded_exampleOpening
    : (exampleServing.run constantSha256 exampleLimits exampleRecipient exampleOpening).buffered
        ≤ 2 * maxPacketBytes := by
  have hbuilt : buildRouter exampleLimits exampleShelf (fun _ => none) = .ok exampleServing := rfl
  have hparses : ∀ event, .elsewhere event ∈ exampleOpening → Store.Parses event := by
    simp [exampleOpening]
  exact (buffers_bounded hbuilt reached_exampleShelf hparses).1

end Server
