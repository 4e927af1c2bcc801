import Erase.Store.Accounting
import Erase.Store.NoteStep

namespace Store

open Server Server.Lua

-- What the store is for: a map from ids to notes that lapse, are consumed or are revoked.
structure Live where
  packet : Bytes
  header : Bytes
  peek : Bytes
  read : Bytes
  revoke : Bytes
  expires : Nat
  remaining : Nat
  deriving DecidableEq

abbrev Vault := Bytes → Option Live

namespace Live

def capability (live : Live) : Operation → Option Bytes
  | .metadata => some live.peek
  | .checkOpen => some live.read
  | .openNote => some live.read
  | .deleteNote => some live.revoke
  | .other => none

-- What is left of a note behind one more delivery.
def consumed (live : Live) : Option Live :=
  if live.remaining ≤ 1 then none else some { live with remaining := live.remaining - 1 }

def ofPacket (packet : Packet) (second : Nat) : Live where
  packet := packet.bytes
  header := packet.headerBytes
  peek := asBytes packet.header.peek
  read := asBytes packet.header.read
  revoke := asBytes packet.header.revoke
  expires := second + packet.header.ttl
  remaining := packet.header.views

end Live

namespace Vault

def empty : Vault := fun _ => none

-- The part of the map that has not lapsed.
def live (vault : Vault) (second : Nat) : Vault := fun id =>
  (vault id).filter fun note => second < note.expires

-- An access that holds the capability.
def grant (vault : Vault) (id : Bytes) (note : Live) : Operation → Reply × Vault
  | .metadata => (.ok [note.header, tostring note.expires, tostring note.remaining], vault)
  | .checkOpen => (.ok [], vault)
  | .openNote => (.ok [note.packet], Function.update vault id note.consumed)
  | .deleteNote => (.ok [], Function.update vault id none)
  | .other => (.capacity, vault)

def access (vault : Vault) (id hash : Bytes) (operation : Operation) : Reply × Vault :=
  match vault id with
  | none => (.unavailable, vault)
  | some note =>
    match note.capability operation with
    | none => (.capacity, vault)
    | some capability =>
      if capability = hash ∧ hash.length = 64 then vault.grant id note operation
      else (.unavailable, vault)

def next (vault : Vault) (answer : Answer) : Vault :=
  match answer.request with
  | .access id hash operation => (vault.access id hash operation).2
  | .create _ packet _ =>
    if answer.succeeded then
      Function.update vault (asBytes packet.header.id)
        (some (.ofPacket packet (answer.time / 1000)))
    else
      vault
  | _ => vault

-- The answer is one that the map gives.
def Explains (vault : Vault) (answer : Answer) : Prop :=
  match answer.request with
  | .access id hash operation => answer.reply = some (vault.access id hash operation).1
  | .create _ packet _ => answer.succeeded = true → vault (asBytes packet.header.id) = none
  | _ => True

def replay (answers : List Answer) : Vault :=
  answers.foldl (fun vault answer => (vault.live (answer.time / 1000)).next answer) empty

theorem live_eq_some_iff {vault : Vault} {second : Nat} {id : Bytes} {note : Live}
    : vault.live second id = some note ↔ vault id = some note ∧ second < note.expires := by
  simp [live, Option.filter_eq_some_iff]

theorem live_live {vault : Vault} {earlier later : Nat} (h : earlier ≤ later)
    : (vault.live earlier).live later = vault.live later := by
  funext id
  apply Option.ext
  intro note
  simp only [live_eq_some_iff]
  constructor
  . exact fun hnote => ⟨hnote.1.1, hnote.2⟩
  . exact fun hnote => ⟨⟨hnote.1, by omega⟩, hnote.2⟩

end Vault

def Note.live (note : Note) : Live where
  packet := note.packet
  header := note.header
  peek := note.peek
  read := note.read
  revoke := note.revoke
  expires := note.expires
  remaining := note.remaining

def Ledger.vault (ledger : Ledger) : Vault := fun id => (ledger.notes id).map Note.live

section

variable {ledger ledger' : Ledger} {second : Nat} {id : Bytes}

theorem vault_live_eq_some_iff {live : Live}
    : ledger.vault.live second id = some live
        ↔ ∃ note, ledger.notes id = some note ∧ note.live = live ∧ second < note.expires := by
  rw [Vault.live_eq_some_iff]
  simp only [Ledger.vault, Option.map_eq_some_iff]
  constructor
  . rintro ⟨⟨note, hnote, rfl⟩, hlive⟩
    exact ⟨note, hnote, rfl, hlive⟩
  . rintro ⟨note, hnote, rfl, hlive⟩
    exact ⟨⟨note, hnote, rfl⟩, hlive⟩

theorem vault_live_of_some {note : Note} (hnote : ledger.notes id = some note)
    (hlive : second < note.expires) : ledger.vault.live second id = some note.live :=
  vault_live_eq_some_iff.mpr ⟨note, hnote, rfl, hlive⟩

theorem vault_live_of_lapsed (h : ∀ note, ledger.notes id = some note → note.expires ≤ second)
    : ledger.vault.live second id = none := by
  rw [Option.eq_none_iff_forall_ne_some]
  intro live hlive
  rcases vault_live_eq_some_iff.mp hlive with ⟨note, hnote, -, hnot⟩
  have hlapsed := h note hnote
  omega

theorem vault_live_of_free (h : Free ledger id) : ledger.vault.live second id = none := by
  apply vault_live_of_lapsed
  intro note hnote
  rw [h.note] at hnote
  cases hnote

-- Steps that take away lapsed notes only do not change the map.
theorem vault_live_eq (h : ∀ id, ledger'.notes id = ledger.notes id
      ∨ ∃ note, ledger.notes id = some note ∧ ledger'.notes id = none ∧ note.expires ≤ second)
    : ledger'.vault.live second = ledger.vault.live second := by
  funext id
  rcases h id with hsame | ⟨note, hnote, hnone, hlapsed⟩
  . simp only [Vault.live, Ledger.vault, hsame]
  . rw [vault_live_of_lapsed (by simp [hnone])]
    apply Eq.symm
    apply vault_live_of_lapsed
    intro other hother
    rw [hnote] at hother
    cases hother
    exact hlapsed

theorem vault_live_update (note : Option Note)
    (hnote : ledger'.notes = Function.update ledger.notes id note)
    (hlive : ∀ some' ∈ note, second < some'.expires)
    : ledger'.vault.live second = Function.update (ledger.vault.live second) id (note.map Note.live) := by
  funext other
  by_cases hother : other = id
  . subst hother
    rw [Function.update_self]
    cases note with
    | none => simp [Vault.live, Ledger.vault, hnote]
    | some note => exact vault_live_of_some (by simp [hnote]) (hlive note rfl)
  . rw [Function.update_of_ne hother]
    simp only [Vault.live, Ledger.vault, hnote, Function.update_of_ne hother]

end

theorem Balanced.indexed {maxNotes maxBytes : Nat} {ledger : Ledger}
    (h : Balanced maxNotes maxBytes ledger) : Indexed ledger :=
  fun id note hnote => (h.note id note hnote).index

theorem capability_live (note : Note) (operation : Operation)
    : note.live.capability operation = note.capability operation := by
  cases operation <;> rfl

namespace Vault

variable {vault : Vault} {id hash : Bytes} {operation : Operation} {note : Note}

theorem access_missing (h : vault id = none)
    : vault.access id hash operation = (.unavailable, vault) := by
  simp only [access, h]

theorem access_unknown (h : vault id = some note.live)
    : vault.access id hash .other = (.capacity, vault) := by
  simp only [access, h, Live.capability]

theorem access_refused (h : vault id = some note.live) (hknown : operation ≠ .other)
    (hrefused : ¬note.Authorizes operation hash)
    : vault.access id hash operation = (.unavailable, vault) := by
  unfold access
  rw [h]
  dsimp only
  rw [capability_live]
  cases hcapability : note.capability operation with
  | none =>
    cases operation with
    | other => exact absurd rfl hknown
    | _ => cases hcapability
  | some capability =>
    have hnot : ¬(capability = hash ∧ hash.length = 64) := by
      rintro ⟨rfl, hlength⟩
      exact hrefused ⟨hcapability, hlength⟩
    dsimp only
    rw [if_neg hnot]

theorem access_allowed (h : vault id = some note.live) (hallowed : note.Authorizes operation hash)
    : vault.access id hash operation = vault.grant id note.live operation := by
  unfold access
  rw [h]
  dsimp only
  rw [capability_live, hallowed.1]
  dsimp only
  rw [if_pos ⟨rfl, hallowed.2⟩]

end Vault

section

variable {maxNotes maxBytes now : Nat} {ledger ledger' : Ledger} {denied : Site → Bool}

theorem vault_of_released {id : Bytes} {outcome : Option Unit} (hdenied : ∀ site, denied site = false)
    (h : Released { now, denied } ledger id outcome ledger')
    : outcome = some () ∧ ledger'.vault.live (now / 1000)
        = Function.update (ledger.vault.live (now / 1000)) id none := by
  rcases h.exact (allowsRelease_of_undenied hdenied) with ⟨houtcome, rfl⟩
  exact ⟨houtcome, vault_live_update none rfl nofun⟩

theorem vault_of_accessed (hbalanced : Balanced maxNotes maxBytes ledger)
    (hdenied : ∀ site, denied site = false) {id hash : Bytes} {operation : Operation}
    {reply : Option Reply} (h : Accessed { now, denied } ledger id hash operation reply ledger')
    : reply = some ((ledger.vault.live (now / 1000)).access id hash operation).1
        ∧ ledger'.vault.live (now / 1000)
            = ((ledger.vault.live (now / 1000)).access id hash operation).2 := by
  cases h with
  | missing habsent =>
    rw [Vault.access_missing (vault_live_of_lapsed (by simp [habsent]))]
    exact ⟨rfl, rfl⟩
  | expired hnote hexpired hreleased =>
    have hlapsed : ledger.vault.live (now / 1000) id = none := by
      apply vault_live_of_lapsed
      intro other hother
      rw [hnote] at hother
      cases hother
      exact hexpired
    rcases vault_of_released hdenied hreleased with ⟨rfl, hafter⟩
    rw [Vault.access_missing hlapsed, hafter, ← hlapsed, Function.update_eq_self]
    exact ⟨rfl, rfl⟩
  | unknown hnote hlive =>
    rw [Vault.access_unknown (vault_live_of_some hnote hlive)]
    exact ⟨rfl, rfl⟩
  | refused hnote hlive hknown hrefused =>
    rw [Vault.access_refused (vault_live_of_some hnote hlive) hknown hrefused]
    exact ⟨rfl, rfl⟩
  | exhausted hnote _ _ hexhausted =>
    have hremaining := (hbalanced.note _ _ hnote).remaining
    omega
  | checked hnote hlive hallowed =>
    rw [Vault.access_allowed (vault_live_of_some hnote hlive) hallowed]
    exact ⟨rfl, rfl⟩
  | described hnote hlive hallowed =>
    rw [Vault.access_allowed (vault_live_of_some hnote hlive) hallowed]
    exact ⟨rfl, rfl⟩
  | deleted hnote hlive hallowed _ hreleased =>
    rcases vault_of_released hdenied hreleased with ⟨rfl, hafter⟩
    rw [Vault.access_allowed (vault_live_of_some hnote hlive) hallowed]
    exact ⟨rfl, hafter⟩
  | @openedLast note _ _ hnote hlive hallowed hlast hreleased =>
    rcases vault_of_released hdenied hreleased with ⟨rfl, hafter⟩
    have hconsumed : note.live.consumed = none := if_pos (Nat.le_of_eq hlast)
    rw [Vault.access_allowed (vault_live_of_some hnote hlive) hallowed, Vault.grant, hconsumed]
    exact ⟨rfl, hafter⟩
  | @opened note hnote hlive hallowed hmore =>
    have hconsumed : note.live.consumed
        = some { note with remaining := note.remaining - 1 }.live :=
      if_neg (Nat.not_le.mpr hmore)
    rw [Vault.access_allowed (vault_live_of_some hnote hlive) hallowed]
    refine ⟨rfl, ?_⟩
    rw [Vault.grant, hconsumed]
    exact vault_live_update (some _) rfl fun _ hsome => Option.some.inj hsome ▸ hlive
  | undecremented _ _ _ _ hsite => simp [hdenied] at hsite

theorem vault_of_reaped (hbalanced : Balanced maxNotes maxBytes ledger) {limit : Nat}
    {outcome : Option Unit} (h : Reaped { now, denied } ledger (now / 1000) limit outcome ledger')
    : ledger'.vault.live (now / 1000) = ledger.vault.live (now / 1000) :=
  vault_live_eq (h.note hbalanced.indexed)

theorem vault_of_created (hbalanced : Balanced maxNotes maxBytes ledger)
    (hdenied : ∀ site, denied site = false) {config : Config} {packet : Packet} {token : Bytes}
    {reply : Option Reply} (hpacket : Admitted packet)
    (h : Created { now, denied } ledger (createArgs config packet token) reply ledger')
    : Vault.Explains (ledger.vault.live (now / 1000))
          { time := now, request := .create config packet token, reply }
        ∧ ledger'.vault.live (now / 1000)
            = (ledger.vault.live (now / 1000)).next
                { time := now, request := .create config packet token, reply } := by
  have hfailed : ∀ {reply}, Answer.succeeded
        { time := now, request := .create config packet token, reply } = false
      → Vault.Explains (ledger.vault.live (now / 1000))
          { time := now, request := .create config packet token, reply } :=
    fun h h' => absurd h' (Bool.eq_false_iff.mp h)
  cases h with
  | reused => exact ⟨hfailed rfl, rfl⟩
  | unproven => exact ⟨hfailed rfl, rfl⟩
  | aborted _ hreaped => exact ⟨hfailed rfl, vault_of_reaped hbalanced hreaped⟩
  | conflict _ hreaped => exact ⟨hfailed rfl, vault_of_reaped hbalanced hreaped⟩
  | full _ hreaped => exact ⟨hfailed rfl, vault_of_reaped hbalanced hreaped⟩
  | rolledBack _ _ _ _ hrefused => simp [RefusesRecord, hdenied] at hrefused
  | @recorded lease reaped _ hreaped hfree =>
    have hsame := vault_of_reaped hbalanced hreaped
    have httl := hpacket.ttl_pos
    generalize hargs : createArgs config packet token = args at *
    generalize henv : ({ now, denied } : Environment Site) = env at *
    have hfuture : env.now < 1000 * expiresOf env args := by
      rw [← henv, ← hargs, expiresOf, createArgs]
      dsimp only
      omega
    have hlive : now / 1000 < expiresOf env args := by
      rw [← henv] at hfuture
      dsimp only at hfuture
      rw [← henv]
      omega
    have hnotes : (reaped.recorded env args (reaped.total.getD 0) (expiresOf env args)
        lease.expires).notes = Function.update reaped.notes args.id (some {
          noteOf args (expiresOf env args) with expireAt := some (1000 * expiresOf env args) }) := by
      simp only [Ledger.recorded, Note.stamped, if_neg (Nat.not_le.mpr hfuture)]
    refine ⟨fun _ => ?_, ?_⟩
    . rw [← hsame]
      rw [← hargs] at hfree
      exact vault_live_of_free hfree
    . rw [vault_live_update _ hnotes fun _ hsome => Option.some.inj hsome ▸ hlive, hsame, ← hargs,
        ← henv]
      rfl

theorem vault_of_called (hbalanced : Balanced maxNotes maxBytes ledger) {request : Request}
    (hhonest : Honest maxNotes maxBytes (.call denied request)) {reply : Option Reply}
    (h : Called { now, denied } ledger request reply ledger')
    : Vault.Explains (ledger.vault.live (now / 1000)) { time := now, request, reply }
        ∧ ledger'.vault.live (now / 1000)
            = (ledger.vault.live (now / 1000)).next { time := now, request, reply } := by
  rcases hhonest with ⟨hdenied, hrequest⟩
  cases h with
  | issue hissued => cases hissued <;> exact ⟨trivial, rfl⟩
  | inspectProof => exact ⟨trivial, rfl⟩
  | create hcreated => exact vault_of_created hbalanced hdenied hrequest.2.2 hcreated
  | access haccessed => exact vault_of_accessed hbalanced hdenied haccessed
  | reap hswept =>
    cases hswept with
    | aborted hreaped => exact ⟨trivial, vault_of_reaped hbalanced hreaped⟩
    | swept hreaped =>
      have hsame := vault_of_reaped hbalanced hreaped
      exact ⟨trivial, hsame⟩

theorem vault_of_expire (hbalanced : Balanced maxNotes maxBytes ledger) (key : Key)
    : (ledger.expire now key).vault.live (now / 1000) = ledger.vault.live (now / 1000) := by
  apply vault_live_eq
  intro id
  rcases (faded_expire now ledger key).notes id with hsame | ⟨hnone, note, deadline, hnote, hnative, hle⟩
  . exact .inl hsame
  . have hdeadline := (hbalanced.note id note hnote).native
    rw [hnative] at hdeadline
    cases hdeadline
    exact .inr ⟨note, hnote, hnone, by omega⟩

end

inductive Explained : List Answer → Prop where
  | nil : Explained []
  | snoc {answers answer} (h : Explained answers)
      (hexplains : ((Vault.replay answers).live (answer.time / 1000)).Explains answer)
    : Explained (answers ++ [answer])

-- The live notes of the cache are the map that its answers describe, and explain each of them.
structure Refines (maxNotes maxBytes now : Nat) (ledger : Ledger) (answers : List Answer) : Prop where
  balanced : Balanced maxNotes maxBytes ledger
  vault : ledger.vault.live (now / 1000) = (Vault.replay answers).live (now / 1000)
  explained : Explained answers

theorem refines_of_transition {maxNotes maxBytes now : Nat} {ledger ledger' : Ledger}
    {answers new : List Answer} {event : Event} (h : Refines maxNotes maxBytes now ledger answers)
    (hhonest : Honest maxNotes maxBytes event) (htransition : Transition now ledger event new ledger')
    : Refines maxNotes maxBytes (now + Event.elapsed event) ledger' (answers ++ new) := by
  have hbalanced := h.balanced.of_transition hhonest htransition
  cases htransition with
  | @tick elapsed =>
    have hle : now / 1000 ≤ (now + elapsed) / 1000 := by omega
    rw [List.append_nil]
    refine ⟨hbalanced, ?_, h.explained⟩
    rw [Event.elapsed, ← Vault.live_live hle, h.vault, Vault.live_live hle]
  | @expire key =>
    rw [List.append_nil]
    exact ⟨hbalanced, (vault_of_expire h.balanced key).trans h.vault, h.explained⟩
  | @call denied request reply ledger' hcalled =>
    rcases vault_of_called h.balanced hhonest hcalled with ⟨hexplains, hnext⟩
    rw [h.vault] at hexplains hnext
    refine ⟨hbalanced, ?_, .snoc h.explained hexplains⟩
    rw [Vault.replay, List.foldl_append, List.foldl_cons, List.foldl_nil, ← Vault.replay]
    dsimp only
    rw [← hnext]
    exact (Vault.live_live le_rfl).symm

end Store
