import Erase.Server.Calls
import Erase.Server.Work
import Erase.Store.Accounting
import Erase.Store.NoteStep

/-!
What a server tells of its notes and challenges: a note has the header of the packet it came with, and
neither outlives that packet's lifetime nor has more views left than it asked for.
-/

namespace Store

open Server Server.Lua

-- Every packet that the server has sent to the cache is one that it has parsed.
def Parses : Event → Prop
  | .call _ (.create _ packet _) => Admitted packet
  | _ => True

-- What a note says of itself at the second `second`.
structure Tells (second : Nat) (id : Bytes) (note : Note) (value : Protocol.HeaderValue) : Prop where
  id : id = asBytes value.toServer.id
  header : note.header = value.bytes
  remaining : note.remaining ≤ value.views
  expires : note.expires ≤ second + value.ttl

def Described (now : Nat) (ledger : Ledger) : Prop :=
  ∀ id note, ledger.notes id = some note → ∃ value, Tells (now / 1000) id note value

namespace Described

variable {env : Environment Site} {now : Nat} {ledger ledger' : Ledger}

theorem of_notes (h : Described now ledger)
    (hnotes : ∀ id, ledger'.notes id = ledger.notes id ∨ ledger'.notes id = none)
    : Described now ledger' := by
  intro id note hnote
  rcases hnotes id with hsame | hnone
  . exact h id note (hsame ▸ hnote)
  . rw [hnone] at hnote
    cases hnote

theorem of_shrinks (h : Described now ledger) (hshrinks : Shrinks ledger ledger')
    : Described now ledger' :=
  h.of_notes hshrinks.notes

theorem update {id : Bytes} (h : Described now ledger)
    (hother : ∀ other, other ≠ id → ledger'.notes other = ledger.notes other)
    (hid : ∀ note, ledger'.notes id = some note → ∃ value, Tells (now / 1000) id note value)
    : Described now ledger' := by
  intro other note hnote
  by_cases hsame : other = id
  . subst hsame
    exact hid note hnote
  . rw [hother other hsame] at hnote
    exact h other note hnote

theorem elapse (h : Described now ledger) (elapsed : Nat) : Described (now + elapsed) ledger := by
  intro id note hnote
  rcases h id note hnote with ⟨value, htells⟩
  have hexpires := htells.expires
  refine ⟨value, { htells with expires := ?_ }⟩
  omega

theorem of_accessed {id hash : Bytes} {operation : Operation} {reply : Option Reply}
    (h : Described now ledger) (haccessed : Accessed env ledger id hash operation reply ledger')
    : Described now ledger' := by
  cases haccessed with
  | expired _ _ hreleased => exact h.of_shrinks hreleased.shrinks
  | exhausted _ _ _ _ hreleased => exact h.of_shrinks hreleased.shrinks
  | deleted _ _ _ _ hreleased => exact h.of_shrinks hreleased.shrinks
  | openedLast _ _ _ _ hreleased => exact h.of_shrinks hreleased.shrinks
  | @opened note hnote _ _ _ _ =>
    apply h.update
    . exact fun other hother => Function.update_of_ne hother _ _
    . intro note' hnote'
      rcases h id note hnote with ⟨value, htells⟩
      have hremaining := htells.remaining
      simp only [Ledger.setNote, Function.update_self, Option.some.injEq] at hnote'
      subst hnote'
      refine ⟨value, { htells with remaining := ?_ }⟩
      dsimp only
      omega
  | _ => exact h

theorem of_created {config : Config} {packet : Packet} {token : Bytes} {reply : Option Reply}
    {denied : Site → Bool} (h : Described now ledger) (hpacket : Admitted packet)
    (hcreated : Created { now, denied } ledger (createArgs config packet token) reply ledger')
    : Described now ledger' := by
  cases hcreated with
  | reused => exact h
  | unproven => exact h
  | aborted _ hreaped => exact h.of_shrinks hreaped.shrinks
  | conflict _ hreaped => exact h.of_shrinks hreaped.shrinks
  | full _ hreaped => exact h.of_shrinks hreaped.shrinks
  | rolledBack hproven hreaped =>
    have hspent := hreaped.shrinks.spent ▸ hproven.unspent
    exact (h.of_shrinks hreaped.shrinks).of_shrinks (Ledger.shrinks_rolledBack _ hspent)
  | recorded _ hreaped =>
    apply (h.of_shrinks hreaped.shrinks).update
    . exact fun other hother => Function.update_of_ne hother _ _
    . intro note hnote
      rcases hpacket.exists_value with ⟨value, hbytes, hheader⟩
      have hid : asBytes packet.header.id = asBytes value.toServer.id := by rw [hheader]
      have hviews : packet.header.views = value.views := by rw [hheader]; rfl
      have httl : packet.header.ttl = value.ttl := by rw [hheader]; rfl
      simp only [Ledger.recorded, Function.update_self] at hnote
      rw [Note.eq_of_stamped hnote]
      refine ⟨value, hid, hbytes, Nat.le_of_eq hviews, Nat.le_of_eq ?_⟩
      rw [← httl]
      rfl

theorem of_called {request : Request} {reply : Option Reply} {denied : Site → Bool}
    (h : Described now ledger) (hparses : Parses (.call denied request))
    (hcalled : Called { now, denied } ledger request reply ledger') : Described now ledger' := by
  cases hcalled with
  | issue hissued => cases hissued <;> exact h
  | inspectProof => exact h
  | create hcreated => exact h.of_created hparses hcreated
  | access haccessed => exact h.of_accessed haccessed
  | reap hswept =>
    cases hswept with
    | aborted hreaped => exact h.of_shrinks hreaped.shrinks
    | swept hreaped =>
      have hdescribed := h.of_shrinks hreaped.shrinks
      exact hdescribed

theorem of_transition {event : Event} {answers : List Answer} (h : Described now ledger)
    (hparses : Parses event) (htransition : Transition now ledger event answers ledger')
    : Described (now + Event.elapsed event) ledger' := by
  cases htransition with
  | tick => exact h.elapse _
  | call hcalled => exact h.of_called hparses hcalled
  | @expire key =>
    apply h.of_notes
    intro id
    rcases (faded_expire now ledger key).notes id with hsame | ⟨hnone, -⟩
    . exact .inl hsame
    . exact .inr hnone

end Described

theorem run_described {start : Nat} {last : Cache} {events : List Event} {answers : List Answer}
    (hrun : (Cache.empty start).run events = (last, answers)) (hparses : ∀ event ∈ events, Parses event)
    : ∃ ledger, last.keys = ledger.keyspace ∧ Described last.now ledger := by
  apply run_empty_invariant Parses (fun now ledger _ => Described now ledger) hrun
  . intro id note hnote
    cases hnote
  . exact fun h hparses htransition => Described.of_transition h hparses htransition
  . exact hparses

section

variable {cache : Cache} {ledger : Ledger} {denied : Site → Bool}

theorem number_eq {width index n m : Nat} {parts : List Bytes}
    (hpart : parts[index]? = some (tostring n))
    (h : number width parts index = .ok m) : m = n := by
  have hparse : parseUnsigned? width (tostring n) = if n < 2 ^ width then some n else none :=
    parseUnsigned?_print
  rw [number, hpart, Option.bind_some, hparse] at h
  by_cases hn : n < 2 ^ width
  . rw [if_pos hn] at h
    exact (Except.ok.inj h).symm
  . rw [if_neg hn] at h
    cases h

theorem issue_ok (hkeys : cache.keys = ledger.keyspace) {config : Config} {token : String}
    {challenge : Server.Challenge} (h : cache.issue denied config token = .ok challenge)
    : challenge = ⟨token, config.powBits, cache.now / 1000 + config.challengeSeconds⟩ := by
  rcases run_issue { now := cache.now, denied } ledger (asBytes token) config.powBits
    config.challengeSeconds config.maxChallenges with ⟨reply, ledger', hrun, hissued⟩
  rw [← hkeys] at hrun
  simp only [Cache.issue, Cache.call, Request.script, hrun, Except.bind_eq_ok, Server.Challenge.ofParts] at h
  rcases h with ⟨parts, hparts, expires, hexpires, hchallenge⟩
  cases hissued with
  | aborted => cases hparts
  | refused => cases hparts
  | issued =>
    cases hparts
    rw [number_eq rfl hexpires] at hchallenge
    exact (Except.ok.inj hchallenge).symm

theorem create_ok (hkeys : cache.keys = ledger.keyspace) {config : Config} {packet : Packet}
    {token : String} {created : Server.Created}
    (h : cache.create denied config packet token = .ok created)
    : created = ⟨packet.header.id, cache.now / 1000 + packet.header.ttl⟩ := by
  rcases run_create { now := cache.now, denied } ledger (createArgs config packet (asBytes token))
    with ⟨reply, ledger', hrun, hcreated⟩
  rw [← hkeys] at hrun
  simp only [Cache.create, Cache.call, Request.script, hrun, Except.bind_eq_ok, Server.Created.ofParts] at h
  rcases h with ⟨parts, hparts, expires, hexpires, hcreated'⟩
  cases hcreated with
  | recorded =>
    cases hparts
    rw [number_eq rfl hexpires] at hcreated'
    exact (Except.ok.inj hcreated').symm
  | _ => cases hparts

theorem metadata_ok (hkeys : cache.keys = ledger.keyspace) (hdescribed : Described cache.now ledger)
    {id hash : String} {metadata : Server.Metadata} (h : cache.metadata denied id hash = .ok metadata)
    : ∃ value : Protocol.HeaderValue, id = value.toServer.id
        ∧ metadata.header = encodeUrlSafe value.bytes
        ∧ (cache.now / 1000 < metadata.expiresAt ∧ metadata.expiresAt ≤ cache.now / 1000 + value.ttl)
        ∧ (1 ≤ metadata.remaining ∧ metadata.remaining ≤ value.views) := by
  rcases run_access { now := cache.now, denied } ledger (asBytes id) (asBytes hash) .metadata
    with ⟨reply, ledger', hrun, haccessed⟩
  rw [← hkeys] at hrun
  simp only [Cache.metadata, Cache.call, Request.script, hrun, Except.bind_eq_ok] at h
  rcases h with ⟨parts, hparts, hmetadata⟩
  have hreleased : ∀ outcome : Option Unit, respond (outcome.map fun _ => Reply.unavailable) ≠ .ok parts := by
    intro outcome
    cases outcome with
    | none => nofun
    | some _ => nofun
  cases haccessed with
  | missing => cases hparts
  | expired => exact absurd hparts (hreleased _)
  | refused => cases hparts
  | exhausted => exact absurd hparts (hreleased _)
  | @described note hnote hlive _ hsome =>
    cases hparts
    rcases hdescribed _ note hnote with ⟨value, htells⟩
    simp only [Server.Metadata.ofParts, List.getElem?_cons_zero, Except.bind_eq_ok] at hmetadata
    rcases hmetadata with ⟨expires, hexpires, remaining, hremaining, hmetadata⟩
    rw [number_eq rfl hexpires, number_eq rfl hremaining, htells.header] at hmetadata
    cases hmetadata
    exact ⟨value, asBytes_injective htells.id, rfl, ⟨hlive, htells.expires⟩, hsome, htells.remaining⟩

end

end Store
