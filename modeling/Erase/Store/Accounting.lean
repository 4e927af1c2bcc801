import Erase.Protocol.Packet
import Erase.Store.Transition

namespace Store

open Server Server.Lua

-- The requests of an honest server whose cache refuses no write.
def Admitted (packet : Packet) : Prop := parsePacket packet.bytes = .ok packet

def Honest (maxNotes maxBytes : Nat) : Event → Prop
  | .tick _ => True
  | .expire _ => True
  | .call denied request =>
    (∀ site, denied site = false) ∧
      match request with
      | .create config packet _ =>
        config.maxNotes = maxNotes ∧ config.maxStorageBytes = maxBytes ∧ Admitted packet
      | _ => True

theorem Admitted.exists_value {packet : Packet} (h : Admitted packet)
    : ∃ value : Protocol.HeaderValue, packet.headerBytes = value.bytes
        ∧ packet.header = value.toServer := by
  rcases Protocol.serverParsePacket_eq_ok_iff.mp h with ⟨value, ciphertext, -, heq⟩
  rw [heq]
  exact ⟨value, rfl, rfl⟩

theorem Admitted.fromSlice? {packet : Packet} (h : Admitted packet)
    : Header.fromSlice? packet.headerBytes = some packet.header := by
  rcases h.exists_value with ⟨value, hbytes, hheader⟩
  exact (Protocol.HeaderValue.header_iff.mpr ⟨value, hbytes, hheader⟩).1

theorem Admitted.length_hashes {packet : Packet} (h : Admitted packet)
    : (asBytes packet.header.peek).length = 64 ∧ (asBytes packet.header.read).length = 64
        ∧ (asBytes packet.header.revoke).length = 64 := by
  rcases h.exists_value with ⟨value, hbytes, hheader⟩
  have hvalid := (Protocol.HeaderValue.header_iff.mpr ⟨value, hbytes, hheader⟩).2.2
  simp only [Header.isInvalid, Bool.or_eq_false_iff, Bool.not_eq_false', isHash, Bool.and_eq_true,
    decide_eq_true_eq] at hvalid
  rcases hvalid with ⟨⟨⟨⟨⟨-, hpeek, -⟩, hread, -⟩, hrevoke, -⟩, -⟩, -⟩
  exact ⟨hpeek, hread, hrevoke⟩

theorem Admitted.ttl_pos {packet : Packet} (h : Admitted packet) : 1 ≤ packet.header.ttl := by
  rcases h.exists_value with ⟨value, -, hheader⟩
  rw [hheader]
  exact Nat.le_trans (by decide) value.ttl.2.1

theorem Admitted.views_pos {packet : Packet} (h : Admitted packet) : 1 ≤ packet.header.views := by
  rcases h.exists_value with ⟨value, -, hheader⟩
  rw [hheader]
  exact value.views.2.1

structure IsLive (ledger : Ledger) (id : Bytes) (note : Note) : Prop where
  index : ledger.index.lookup id = some note.expires
  native : note.expireAt = some (1000 * note.expires)
  charge : ledger.charges.lookup id = some (note.packet.length + note.header.length + 1024)
  remaining : 1 ≤ note.remaining
  views : ∃ header, Header.fromSlice? note.header = some header ∧ note.remaining ≤ header.views

structure Balanced (maxNotes maxBytes : Nat) (ledger : Ledger) : Prop where
  ids : ledger.charges.keys = ledger.index.keys
  total : ledger.total.getD 0 = FiniteMap.total ledger.charges
  note : ∀ id note, ledger.notes id = some note → IsLive ledger id note
  notes_le : FiniteMap.size ledger.charges ≤ maxNotes
  bytes_le : ledger.total.getD 0 ≤ maxBytes

namespace Balanced

variable {maxNotes maxBytes : Nat} {ledger ledger' : Ledger}

theorem charge_le_total (h : Balanced maxNotes maxBytes ledger) (id : Bytes)
    : ledger.charge id ≤ ledger.total.getD 0 := by
  rw [h.total, Ledger.charge]
  cases hcharge : ledger.charges.lookup id with
  | none => simp
  | some charge => exact FiniteMap.le_total hcharge

-- The clamp of a release is never active, so a release takes away exactly the charge of its id.
theorem total_release (h : Balanced maxNotes maxBytes ledger) (id : Bytes)
    : (ledger.release id).total.getD 0 + ledger.charge id = ledger.total.getD 0 := by
  have hle := h.charge_le_total id
  simp only [Ledger.release]
  split
  . rw [Option.getD_some]
    omega
  . omega

theorem release (h : Balanced maxNotes maxBytes ledger) (id : Bytes)
    : Balanced maxNotes maxBytes (ledger.release id) where
  ids := by
    simp only [Ledger.release, Finmap.keys_erase, h.ids]
  total := by
    have htotal := h.total_release id
    have hbefore := h.total
    have hafter : ledger.charge id + FiniteMap.total (ledger.charges.erase id)
        = FiniteMap.total ledger.charges := by
      unfold Ledger.charge
      cases hcharge : ledger.charges.lookup id with
      | none =>
        rw [FiniteMap.erase_of_notMem (Finmap.lookup_eq_none.mp hcharge)]
        simp
      | some charge => exact FiniteMap.total_erase hcharge
    simp only [Ledger.release] at htotal ⊢
    omega
  note other note hnote := by
    have hother : other ≠ id := by
      rintro rfl
      simp [Ledger.release] at hnote
    have hsame : ledger.notes other = some note := by
      simpa only [Ledger.release, Function.update_of_ne hother] using hnote
    have hlive := h.note other note hsame
    exact {
      hlive with
      index := by
        simp only [Ledger.release, Finmap.lookup_erase_ne hother]
        exact hlive.index
      charge := by
        simp only [Ledger.release, Finmap.lookup_erase_ne hother]
        exact hlive.charge }
  notes_le := (FiniteMap.size_erase_le ledger.charges id).trans h.notes_le
  bytes_le := by
    have htotal := h.total_release id
    have hle := h.bytes_le
    omega

theorem releaseAll (h : Balanced maxNotes maxBytes ledger) (ids : List Bytes)
    : Balanced maxNotes maxBytes (ledger.releaseAll ids) := by
  induction ids generalizing ledger with
  | nil => exact h
  | cons id ids ih => exact ih (h.release id)

theorem reap (h : Balanced maxNotes maxBytes ledger) (time limit : Nat)
    : Balanced maxNotes maxBytes (ledger.reap time limit) :=
  h.releaseAll _

-- Native expiry, and every step that leaves notes, index, charges and total alone.
theorem of_fewer (h : Balanced maxNotes maxBytes ledger)
    (hnotes : ∀ id, ledger'.notes id = ledger.notes id ∨ ledger'.notes id = none)
    (hindex : ledger'.index = ledger.index) (hcharges : ledger'.charges = ledger.charges)
    (htotal : ledger'.total = ledger.total) : Balanced maxNotes maxBytes ledger' where
  ids := by rw [hcharges, hindex, h.ids]
  total := by rw [htotal, hcharges, h.total]
  note id note hnote := by
    rcases hnotes id with hsame | hnone
    . have hlive := h.note id note (hsame ▸ hnote)
      exact { hlive with index := hindex ▸ hlive.index, charge := hcharges ▸ hlive.charge }
    . simp [hnone] at hnote
  notes_le := hcharges ▸ h.notes_le
  bytes_le := htotal ▸ h.bytes_le

theorem open_note (h : Balanced maxNotes maxBytes ledger) {id : Bytes} {note : Note}
    (hnote : ledger.notes id = some note) (hmore : 2 ≤ note.remaining)
    : Balanced maxNotes maxBytes
        (ledger.setNote id (some { note with remaining := note.remaining - 1 })) where
  ids := h.ids
  total := h.total
  note other note' hnote' := by
    by_cases hother : other = id
    . subst hother
      simp only [Ledger.setNote, Function.update_self, Option.some.injEq] at hnote'
      subst hnote'
      have hlive := h.note other note hnote
      rcases hlive.views with ⟨header, hheader, hviews⟩
      exact {
        hlive with
        remaining := by
          dsimp only
          omega
        views := ⟨header, hheader, by
          dsimp only
          omega⟩ }
    . simp only [Ledger.setNote, Function.update_of_ne hother] at hnote'
      exact { h.note other note' hnote' with }
  notes_le := h.notes_le
  bytes_le := h.bytes_le

theorem recorded (h : Balanced maxNotes maxBytes ledger) {env : Environment Site} {config : Config}
    {packet : Packet} {token : Bytes} {proofExpires : Nat} (hpacket : Admitted packet)
    (hnotes : config.maxNotes = maxNotes) (hbytes : config.maxStorageBytes = maxBytes)
    (hfree : Free ledger (asBytes packet.header.id))
    (hfits : Fits ledger (createArgs config packet token))
    : Balanced maxNotes maxBytes (ledger.recorded env (createArgs config packet token)
        (ledger.total.getD 0) (expiresOf env (createArgs config packet token)) proofExpires) where
  ids := by
    ext id
    have hids : id ∈ ledger.charges.keys ↔ id ∈ ledger.index.keys := by rw [h.ids]
    rw [Finmap.mem_keys, Finmap.mem_keys] at hids
    simp only [Ledger.recorded, Finmap.mem_keys, Finmap.mem_insert, hids]
  total := by
    have htotal := FiniteMap.total_insert (n := chargeOf (createArgs config packet token)) hfree.charge
    simp only [Ledger.recorded, Option.getD_some, createArgs, h.total] at htotal ⊢
    omega
  note other note hnote := by
    by_cases hother : other = asBytes packet.header.id
    . subst hother
      simp only [Ledger.recorded, createArgs, Function.update_self] at hnote
      rw [Note.eq_of_stamped hnote]
      exact {
        index := Finmap.lookup_insert _
        native := rfl
        charge := Finmap.lookup_insert _
        remaining := hpacket.views_pos
        views := ⟨packet.header, hpacket.fromSlice?, le_rfl⟩ }
    . simp only [Ledger.recorded, createArgs, Function.update_of_ne hother] at hnote
      have hlive := h.note other note hnote
      exact {
        hlive with
        index := (Finmap.lookup_insert_of_ne _ hother).trans hlive.index
        charge := (Finmap.lookup_insert_of_ne _ hother).trans hlive.charge }
  notes_le := by
    have hsize := FiniteMap.size_insert (b := chargeOf (createArgs config packet token)) hfree.charge
    have hnotes' := hfits.notes
    simp only [Ledger.recorded, createArgs] at hsize hnotes' ⊢
    omega
  bytes_le := by
    have hbytes' := hfits.bytes
    simp only [Ledger.recorded, createArgs, Option.getD_some] at hbytes' ⊢
    omega

end Balanced

theorem allowsRelease_of_undenied {env : Environment Site} (h : ∀ site, env.denied site = false)
    : AllowsRelease env :=
  fun _ => ⟨h _, h _, h _, h _⟩

namespace Balanced

variable {maxNotes maxBytes now : Nat} {ledger ledger' : Ledger} {denied : Site → Bool}

theorem of_released (h : Balanced maxNotes maxBytes ledger) (hdenied : ∀ site, denied site = false)
    {id : Bytes} {outcome : Option Unit}
    (hreleased : Released { now, denied } ledger id outcome ledger')
    : Balanced maxNotes maxBytes ledger' := by
  rw [(hreleased.exact (allowsRelease_of_undenied hdenied)).2]
  exact h.release id

theorem of_reaped (h : Balanced maxNotes maxBytes ledger) (hdenied : ∀ site, denied site = false)
    {time limit : Nat} {outcome : Option Unit}
    (hreaped : Reaped { now, denied } ledger time limit outcome ledger')
    : Balanced maxNotes maxBytes ledger' := by
  rw [(hreaped.exact (allowsRelease_of_undenied hdenied)).2]
  exact h.reap time limit

theorem of_accessed (h : Balanced maxNotes maxBytes ledger) (hdenied : ∀ site, denied site = false)
    {id hash : Bytes} {operation : Operation} {reply : Option Reply}
    (haccessed : Accessed { now, denied } ledger id hash operation reply ledger')
    : Balanced maxNotes maxBytes ledger' := by
  cases haccessed with
  | expired _ _ hreleased => exact h.of_released hdenied hreleased
  | exhausted _ _ _ _ hreleased => exact h.of_released hdenied hreleased
  | deleted _ _ _ _ hreleased => exact h.of_released hdenied hreleased
  | openedLast _ _ _ _ hreleased => exact h.of_released hdenied hreleased
  | opened hnote _ _ hmore => exact h.open_note hnote hmore
  | _ => exact h

theorem of_transition (h : Balanced maxNotes maxBytes ledger) {event : Event} {answers : List Answer}
    (hhonest : Honest maxNotes maxBytes event)
    (htransition : Transition now ledger event answers ledger')
    : Balanced maxNotes maxBytes ledger' := by
  cases htransition with
  | tick => exact h
  | @expire key =>
    have hfaded := faded_expire now ledger key
    refine h.of_fewer (fun id => ?_) hfaded.index hfaded.charges hfaded.total
    exact (hfaded.notes id).imp_right And.left
  | call hcalled =>
    rcases hhonest with ⟨hdenied, hrequest⟩
    cases hcalled with
    | issue hissued => cases hissued <;> exact h.of_fewer (fun _ => .inl rfl) rfl rfl rfl
    | inspectProof => exact h
    | access haccessed => exact h.of_accessed hdenied haccessed
    | reap hswept =>
      cases hswept with
      | aborted hreaped => exact h.of_reaped hdenied hreaped
      | swept hreaped => exact (h.of_reaped hdenied hreaped).of_fewer (fun _ => .inl rfl) rfl rfl rfl
    | create hcreated =>
      rcases hrequest with ⟨hnotes, hbytes, hpacket⟩
      cases hcreated with
      | reused => exact h
      | unproven => exact h
      | aborted _ hreaped => exact h.of_reaped hdenied hreaped
      | conflict _ hreaped => exact h.of_reaped hdenied hreaped
      | full _ hreaped => exact h.of_reaped hdenied hreaped
      | rolledBack _ _ _ _ hrefused => simp [RefusesRecord, hdenied] at hrefused
      | recorded _ hreaped hfree hfits =>
        exact (h.of_reaped hdenied hreaped).recorded hpacket hnotes hbytes hfree hfits

end Balanced

theorem balanced_empty (maxNotes maxBytes : Nat) : Balanced maxNotes maxBytes .empty where
  ids := rfl
  total := rfl
  note _ _ hnote := by cases hnote
  notes_le := Nat.zero_le _
  bytes_le := Nat.zero_le _

theorem run_balanced {maxNotes maxBytes start : Nat} {last : Cache} {events : List Event}
    {answers : List Answer} (hrun : (Cache.empty start).run events = (last, answers))
    (hhonest : ∀ event ∈ events, Honest maxNotes maxBytes event)
    : ∃ ledger, last.keys = ledger.keyspace ∧ Balanced maxNotes maxBytes ledger := by
  apply run_empty_invariant (Honest maxNotes maxBytes)
    (fun _ ledger _ => Balanced maxNotes maxBytes ledger) hrun
  . exact balanced_empty maxNotes maxBytes
  . exact fun h hhonest htransition => h.of_transition hhonest htransition
  . exact hhonest

theorem ledger_invariant {maxNotes maxBytes start : Nat} {last : Cache} {events : List Event}
    {answers : List Answer} (hrun : (Cache.empty start).run events = (last, answers))
    (hhonest : ∀ event ∈ events, Honest maxNotes maxBytes event)
    : ∃ ledger, last.keys = ledger.keyspace ∧ Balanced maxNotes maxBytes ledger
        ∧ ∀ ids id, max 0 (((ledger.releaseAll ids).total.getD 0 : Int)
              - (ledger.releaseAll ids).charge id)
            = ((ledger.releaseAll ids).total.getD 0 : Int) - (ledger.releaseAll ids).charge id := by
  rcases run_balanced hrun hhonest with ⟨ledger, hkeys, hbalanced⟩
  refine ⟨ledger, hkeys, hbalanced, fun ids id => ?_⟩
  have hle := (hbalanced.releaseAll ids).charge_le_total id
  omega

def exampleDigest (code : Nat) (h : Hex.isDigit code = true) : Protocol.HexDigest :=
  ⟨List.replicate 64 code, by simp [h]⟩

def exampleValue : Protocol.HeaderValue where
  id := ⟨List.replicate 32 0, rfl⟩
  ttl := ⟨60, by decide⟩
  views := ⟨2, by decide⟩
  peek := exampleDigest 97 rfl
  read := exampleDigest 98 rfl
  revoke := exampleDigest 99 rfl
  salt := none
  nonce := ⟨List.replicate 24 0, rfl⟩

def exampleUpload : Packet where
  bytes := Protocol.magic ++ Bytes.ofNatBE 4 exampleValue.bytes.length ++ exampleValue.bytes
    ++ List.replicate 4112 0
  headerBytes := exampleValue.bytes
  header := exampleValue.toServer

theorem admitted_exampleUpload : Admitted exampleUpload := by
  have hlength := exampleValue.length_bytes_bounds
  apply Protocol.serverParsePacket_eq_ok_iff.mpr
  refine ⟨exampleValue, List.replicate 4112 0, ?_, rfl⟩
  exact {
    layout := rfl
    header_pos := by omega
    header_le := by omega
    length_le := by
      simp only [exampleUpload, Protocol.magic, List.length_append, Bytes.length_ofNatBE,
        List.length_replicate, List.length_cons, List.length_nil]
      omega
    blocks := ⟨1, le_rfl, List.length_replicate⟩ }

def exampleUploads : List Event :=
  [.call allowAll (.issue .new [7]), .call allowAll (.create .new exampleUpload [7])]

theorem honest_exampleUploads
    : ∀ event ∈ exampleUploads, Honest Config.new.maxNotes Config.new.maxStorageBytes event := by
  simp [exampleUploads, Honest, allowAll, admitted_exampleUpload]

theorem ledger_invariant_exampleUploads
    : ∃ ledger : Ledger, ((Cache.empty 0).run exampleUploads).1.keys = ledger.keyspace
        ∧ Balanced Config.new.maxNotes Config.new.maxStorageBytes ledger := by
  rcases hrun : (Cache.empty 0).run exampleUploads with ⟨last, answers⟩
  rcases ledger_invariant hrun honest_exampleUploads with ⟨ledger, hkeys, hbalanced, -⟩
  exact ⟨ledger, hkeys, hbalanced⟩

end Store
