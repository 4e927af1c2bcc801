import Erase.Store.Described

/-!
What the cache keeps under an id: a packet that the server has parsed, with the hashes of its header.
-/

namespace Store

open Server Server.Lua

theorem Admitted.length_le {packet : Packet} (h : Admitted packet) : packet.bytes.length ≤ maxPacketBytes := by
  have hparsed : parsePacket packet.bytes = .ok packet := h
  unfold parsePacket at hparsed
  simp only [Server.fail, Except.guard_eq_ok] at hparsed
  omega

structure Keeps (id : Bytes) (note : Note) (packet : Packet) : Prop where
  admitted : Admitted packet
  named : id = asBytes packet.header.id
  stored : note.packet = packet.bytes
  header : note.header = packet.headerBytes
  peek : note.peek = asBytes packet.header.peek
  read : note.read = asBytes packet.header.read
  revoke : note.revoke = asBytes packet.header.revoke

def Contents (ledger : Ledger) : Prop :=
  ∀ id note, ledger.notes id = some note → ∃ packet, Keeps id note packet

namespace Contents

variable {env : Environment Site} {now : Nat} {ledger ledger' : Ledger}

theorem of_notes (h : Contents ledger)
    (hnotes : ∀ id, ledger'.notes id = ledger.notes id ∨ ledger'.notes id = none) : Contents ledger' := by
  intro id note hnote
  rcases hnotes id with hsame | hnone
  . exact h id note (hsame ▸ hnote)
  . rw [hnone] at hnote
    cases hnote

theorem of_shrinks (h : Contents ledger) (hshrinks : Shrinks ledger ledger') : Contents ledger' :=
  h.of_notes hshrinks.notes

theorem update {id : Bytes} (h : Contents ledger)
    (hother : ∀ other, other ≠ id → ledger'.notes other = ledger.notes other)
    (hid : ∀ note, ledger'.notes id = some note → ∃ packet, Keeps id note packet) : Contents ledger' := by
  intro other note hnote
  by_cases hsame : other = id
  . subst hsame
    exact hid note hnote
  . rw [hother other hsame] at hnote
    exact h other note hnote

theorem of_accessed {id hash : Bytes} {operation : Operation} {reply : Option Reply} (h : Contents ledger)
    (haccessed : Accessed env ledger id hash operation reply ledger') : Contents ledger' := by
  cases haccessed with
  | expired _ _ hreleased => exact h.of_shrinks hreleased.shrinks
  | exhausted _ _ _ _ hreleased => exact h.of_shrinks hreleased.shrinks
  | deleted _ _ _ _ hreleased => exact h.of_shrinks hreleased.shrinks
  | openedLast _ _ _ _ hreleased => exact h.of_shrinks hreleased.shrinks
  | @opened note hnote _ _ _ _ =>
    apply h.update
    . exact fun other hother => Function.update_of_ne hother _ _
    . intro note' hnote'
      rcases h id note hnote with ⟨packet, hkeeps⟩
      simp only [Ledger.setNote, Function.update_self, Option.some.injEq] at hnote'
      subst hnote'
      exact ⟨packet, { hkeeps with }⟩
  | _ => exact h

theorem of_created {config : Config} {packet : Packet} {token : Bytes} {reply : Option Reply}
    (h : Contents ledger) (hpacket : Admitted packet)
    (hcreated : Created env ledger (createArgs config packet token) reply ledger') : Contents ledger' := by
  cases hcreated with
  | reused => exact h
  | unproven => exact h
  | aborted _ hreaped => exact h.of_shrinks hreaped.shrinks
  | conflict _ hreaped => exact h.of_shrinks hreaped.shrinks
  | full _ hreaped => exact h.of_shrinks hreaped.shrinks
  | rolledBack hproven hreaped =>
    have hspent := hreaped.shrinks.spent ▸ hproven.unspent
    exact (h.of_shrinks hreaped.shrinks).of_shrinks (Ledger.shrinks_rolledBack _ hspent)
  | recorded _ hreaped =>
    apply (h.of_shrinks hreaped.shrinks).update
    . exact fun other hother => Function.update_of_ne hother _ _
    . intro note hnote
      simp only [Ledger.recorded, Function.update_self] at hnote
      rw [Note.eq_of_stamped hnote]
      exact ⟨packet, hpacket, rfl, rfl, rfl, rfl, rfl, rfl⟩

theorem of_called {request : Request} {reply : Option Reply} {denied : Site → Bool} (h : Contents ledger)
    (hparses : Parses (.call denied request))
    (hcalled : Called { now, denied } ledger request reply ledger') : Contents ledger' := by
  cases hcalled with
  | issue hissued => cases hissued <;> exact h
  | inspectProof => exact h
  | create hcreated => exact h.of_created hparses hcreated
  | access haccessed => exact h.of_accessed haccessed
  | reap hswept =>
    cases hswept with
    | aborted hreaped => exact h.of_shrinks hreaped.shrinks
    | swept hreaped =>
      have hcontents := h.of_shrinks hreaped.shrinks
      exact hcontents

theorem of_transition {event : Event} {answers : List Answer} (h : Contents ledger)
    (hparses : Parses event) (htransition : Transition now ledger event answers ledger')
    : Contents ledger' := by
  cases htransition with
  | tick => exact h
  | call hcalled => exact h.of_called hparses hcalled
  | @expire key =>
    apply h.of_notes
    intro id
    rcases (faded_expire now ledger key).notes id with hsame | ⟨hnone, -⟩
    . exact .inl hsame
    . exact .inr hnone

end Contents

theorem run_contents {start : Nat} {last : Cache} {events : List Event} {answers : List Answer}
    (hrun : (Cache.empty start).run events = (last, answers)) (hparses : ∀ event ∈ events, Parses event)
    : ∃ ledger, last.keys = ledger.keyspace ∧ Contents ledger := by
  apply run_empty_invariant Parses (fun _ ledger _ => Contents ledger) hrun
  . intro id note hnote
    cases hnote
  . exact fun h hparses htransition => Contents.of_transition h hparses htransition
  . exact hparses

-- What is handed out under an id is a packet of that id, to who holds its capability.
theorem open_ok {cache : Cache} {ledger : Ledger} {denied : Site → Bool}
    (hkeys : cache.keys = ledger.keyspace) (hcontents : Contents ledger) {id hash : String} {bytes : Bytes}
    (h : cache.call denied (.access (asBytes id) (asBytes hash) .openNote) >>= packetOf = .ok bytes)
    : ∃ packet, Admitted packet ∧ bytes = packet.bytes ∧ id = packet.header.id
        ∧ hash = packet.header.read := by
  rcases run_access { now := cache.now, denied } ledger (asBytes id) (asBytes hash) .openNote
    with ⟨reply, ledger', hrun, haccessed⟩
  rw [← hkeys] at hrun
  simp only [Cache.call, Request.script, hrun, Except.bind_eq_ok] at h
  rcases h with ⟨parts, hparts, hpacket⟩
  have hreleased : ∀ outcome : Option Unit, respond (outcome.map fun _ => Reply.unavailable) ≠ .ok parts := by
    intro outcome h
    cases outcome with
    | none => cases h
    | some _ => cases h
  have hgranted : ∀ note : Note, ledger.notes (asBytes id) = some note → note.Authorizes .openNote (asBytes hash)
      → parts = [note.packet] → ∃ packet, Admitted packet ∧ bytes = packet.bytes ∧ id = packet.header.id
        ∧ hash = packet.header.read := by
    rintro note hnote hallowed rfl
    rcases hcontents _ note hnote with ⟨packet, hkeeps⟩
    cases hpacket
    have hread : asBytes packet.header.read = asBytes hash := by
      rw [← hkeeps.read]
      exact Option.some.inj hallowed.1
    exact ⟨packet, hkeeps.admitted, hkeeps.stored, asBytes_injective hkeeps.named,
      (asBytes_injective hread).symm⟩
  cases haccessed with
  | missing => cases hparts
  | expired => exact absurd hparts (hreleased _)
  | refused => cases hparts
  | exhausted => exact absurd hparts (hreleased _)
  | @openedLast note outcome _ hnote _ hallowed =>
    cases outcome with
    | none => cases hparts
    | some _ =>
      cases hparts
      exact hgranted note hnote hallowed rfl
  | @opened note hnote _ hallowed =>
    cases hparts
    exact hgranted note hnote hallowed rfl
  | undecremented => cases hparts

end Store
