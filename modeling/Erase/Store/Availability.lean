import Erase.Server.Calls
import Erase.Store.Described
import Erase.Store.Retention

/-!
What a server answers to those who hold the capabilities of a note that it has stored.
-/

namespace Store

open Server Server.Lua

section

variable {maxNotes maxBytes : Nat} {cache created last : Cache} {packet : Packet}
variable {events : List Event} {answers : List Answer}

-- A note of this packet has been created, while the cache has had no other limits.
structure Deposited (maxNotes maxBytes : Nat) (cache : Cache) (packet : Packet) (created : Cache) : Prop where
  before : ∃ start before earlier, (Cache.empty start).run before = (cache, earlier)
    ∧ ∀ event ∈ before, Honest maxNotes maxBytes event
  call : ∃ denied config token answer,
    cache.step (.call denied (.create config packet token)) = (created, [answer])
      ∧ Honest maxNotes maxBytes (.call denied (.create config packet token))
      ∧ answer.creates (asBytes packet.header.id) = true

-- What happens to the cache leaves the note as it is, but for some of its views.
structure Keeping (maxNotes maxBytes : Nat) (packet : Packet) (second : Nat) (created : Cache)
    (events : List Event) (last : Cache) (answers : List Answer) : Prop where
  run : created.run events = (last, answers)
  honest : ∀ event ∈ events, Honest maxNotes maxBytes event
  kept : ∀ answer ∈ answers, answer.deletes (asBytes packet.header.id) = false
  views : answers.countP (fun answer => answer.opens (asBytes packet.header.id)) < packet.header.views
  alive : last.now / 1000 < second + packet.header.ttl

theorem run_append (cache : Cache) (first second : List Event)
    : cache.run (first ++ second) = (((cache.run first).1.run second).1,
        (cache.run first).2 ++ ((cache.run first).1.run second).2) := by
  induction first generalizing cache with
  | nil => rfl
  | cons event first ih => simp only [List.cons_append, Cache.run, ih, List.append_assoc]

theorem now_le_run (cache : Cache) (events : List Event) : cache.now ≤ (cache.run events).1.now := by
  induction events generalizing cache with
  | nil => exact Nat.le_refl _
  | cons event events ih =>
    have hrest := ih (cache.step event).1
    have hstep : cache.now ≤ (cache.step event).1.now := by
      cases event with
      | tick elapsed => exact Nat.le_add_right _ _
      | expire key => exact Nat.le_refl _
      | call denied request => exact Nat.le_refl _
    simp only [Cache.run]
    omega

-- What holds at the end has held on the way.
theorem Keeping.of_append {second : Nat} {first later : List Event}
    (h : Keeping maxNotes maxBytes packet second created (first ++ later) last answers)
    : Keeping maxNotes maxBytes packet second created first (created.run first).1 (created.run first).2 := by
  have hrun := h.run
  rw [run_append, Prod.mk.injEq] at hrun
  rcases hrun with ⟨rfl, rfl⟩
  have hviews := h.views
  have halive := h.alive
  have hnow := now_le_run (created.run first).1 later
  rw [List.countP_append] at hviews
  refine ⟨rfl, fun event hevent => ?_, fun answer hanswer => ?_, by omega, by omega⟩
  . exact h.honest event (List.mem_append_left _ hevent)
  . exact h.kept answer (List.mem_append_left _ hanswer)

theorem Deposited.now (h : Deposited maxNotes maxBytes cache packet created) : created.now = cache.now := by
  rcases h.call with ⟨denied, config, token, answer, hcreate, -, -⟩
  have hstep := congrArg (fun result => result.1.now) hcreate
  exact hstep.symm

-- The clock is a number that the replies carry exactly, so all the times of the note are.
theorem Keeping.dated (hdeposited : Deposited maxNotes maxBytes cache packet created)
    (hkeeping : Keeping maxNotes maxBytes packet (cache.now / 1000) created events last answers)
    (hclock : last.now * 1000 < 2 ^ 63) : cache.now / 1000 + 604800 < 2 ^ 53 := by
  have hcreated := hdeposited.now
  have hrun := now_le_run created events
  rw [hkeeping.run] at hrun
  dsimp only at hrun
  omega

theorem exists_note (hdeposited : Deposited maxNotes maxBytes cache packet created)
    (hkeeping : Keeping maxNotes maxBytes packet (cache.now / 1000) created events last answers)
    : ∃ ledger note, last.keys = ledger.keyspace ∧ Balanced maxNotes maxBytes ledger
        ∧ ledger.vault.live (last.now / 1000) (asBytes packet.header.id) = some note
        ∧ note = {
          Live.ofPacket packet (cache.now / 1000) with
          remaining := packet.header.views
            - answers.countP (fun answer => answer.opens (asBytes packet.header.id)) } := by
  rcases hdeposited.before with ⟨start, before, earlier, hbefore, hhonest⟩
  rcases hdeposited.call with ⟨denied, config, token, answer, hcreate, hcall, hcreated⟩
  rcases run_balanced hbefore hhonest with ⟨ledger, hkeys, hbalanced⟩
  rcases step_call hkeys hcreate with ⟨ledger', rfl, htime, hrequest, hcalled⟩
  have hbalanced' := hbalanced.of_transition hcall (.call hcalled)
  have hretained : Retained packet (cache.now / 1000) cache.now ledger' [] := by
    intro _ _ _
    rcases Answer.reply_of_creates hcreated with ⟨parts, hreply⟩
    rcases vault_of_called hbalanced hcall hcalled with ⟨-, hnext⟩
    simp only [Vault.next, Answer.succeeded, hreply, if_true] at hnext
    rw [hnext, Function.update_self]
    rfl
  rcases run_invariant (Honest maxNotes maxBytes)
    (fun now ledger answers => Balanced maxNotes maxBytes ledger
      ∧ Retained packet (cache.now / 1000) now ledger answers)
    hkeeping.run rfl ⟨hbalanced', hretained⟩ (by
      rintro now ledger answers event new ledger' ⟨hbalanced, hretained⟩ hhonest htransition
      exact ⟨hbalanced.of_transition hhonest htransition,
        retained_of_transition hbalanced hretained hhonest htransition⟩) hkeeping.honest
    with ⟨final, hkeys, hbalanced, hretained⟩
  exact ⟨final, _, hkeys, hbalanced, hretained hkeeping.kept hkeeping.views hkeeping.alive, rfl⟩

-- An answer as the server reads it.
theorem call_of_answers {request : Request} {reply : Reply} (h : Answers cache request reply)
    : cache.call allowAll request = respond (some reply) := by
  have hstep := h allowAll fun _ => rfl
  rw [Cache.step_call_eq] at hstep
  simp only [List.cons.injEq, Answer.mk.injEq, and_true, true_and] at hstep
  rw [Cache.call, hstep]

theorem number_tostring {width index n : Nat} {parts : List Bytes} (hpart : parts[index]? = some (tostring n))
    (hn : n < 2 ^ width) : number width parts index = .ok n := by
  have hparse : parseUnsigned? width (tostring n) = if n < 2 ^ width then some n else none :=
    parseUnsigned?_print
  rw [number, hpart, Option.bind_some, hparse, if_pos hn]

-- What the server says of the note, and to whom.
structure Available (cache : Cache) (packet : Packet) (second opened : Nat) : Prop where
  metadata : cache.metadata allowAll packet.header.id packet.header.peek
    = .ok ⟨encodeUrlSafe packet.headerBytes, second + packet.header.ttl, packet.header.views - opened⟩
  checkOpen : cache.call allowAll
    (.access (asBytes packet.header.id) (asBytes packet.header.read) .checkOpen) = .ok []
  openNote : cache.call allowAll
    (.access (asBytes packet.header.id) (asBytes packet.header.read) .openNote) = .ok [packet.bytes]
  deleteNote : cache.call allowAll
    (.access (asBytes packet.header.id) (asBytes packet.header.revoke) .deleteNote) = .ok []

theorem available_of_keeping (hdeposited : Deposited maxNotes maxBytes cache packet created)
    (hkeeping : Keeping maxNotes maxBytes packet (cache.now / 1000) created events last answers)
    (hdated : cache.now / 1000 + packet.header.ttl < 2 ^ 53)
    : Available last packet (cache.now / 1000)
        (answers.countP fun answer => answer.opens (asBytes packet.header.id)) := by
  rcases exists_note hdeposited hkeeping with ⟨ledger, note, hkeys, hbalanced, hnote, rfl⟩
  rcases hdeposited.call with ⟨denied, config, token, answer, -, hcall, -⟩
  have hpacket : Admitted packet := hcall.2.2.2
  rcases hpacket.length_hashes with ⟨hpeek, hread, hrevoke⟩
  have hviews : packet.header.views ≤ 100 := by
    rcases hpacket.exists_value with ⟨value, -, hheader⟩
    rw [hheader]
    exact value.views.2.2
  constructor
  . have hanswers : last.call allowAll
        (.access (asBytes packet.header.id) (asBytes packet.header.peek) .metadata)
          = .ok [packet.headerBytes, tostring (cache.now / 1000 + packet.header.ttl),
            tostring (packet.header.views
              - answers.countP fun answer => answer.opens (asBytes packet.header.id))] :=
      call_of_answers (answers_granted hkeys hbalanced hnote rfl hpeek)
    rw [Cache.metadata, hanswers, Except.ok_bind, Metadata.ofParts]
    dsimp only [List.getElem?_cons_zero]
    rw [number_tostring rfl (by omega), Except.ok_bind, number_tostring rfl (by omega), Except.ok_bind]
    rfl
  . exact call_of_answers (answers_granted hkeys hbalanced hnote rfl hread)
  . exact call_of_answers (answers_granted hkeys hbalanced hnote rfl hread)
  . exact call_of_answers (answers_granted hkeys hbalanced hnote rfl hrevoke)

-- A good proof is enough for a packet that there is room for.
theorem reply_of_proven {env : Environment Site} {ledger ledger' : Ledger} {args : CreateArgs} {lease : Lease}
    {reply : Option Reply} (hallowed : ∀ site, env.denied site = false)
    (hproven : Proven env ledger args.challenge lease) (hfree : Free (ledger.reap (env.now / 1000) 128) args.id)
    (hfits : Fits (ledger.reap (env.now / 1000) 128) args) (hcreated : Created env ledger args reply ledger')
    : reply = some (.ok [tostring (expiresOf env args)]) := by
  have hreaping : AllowsRelease env := allowsRelease_of_undenied hallowed
  cases hcreated with
  | reused hspent => exact absurd hproven.unspent hspent
  | unproven _ hinvalid => exact absurd hproven (hinvalid lease)
  | aborted _ hreaped => cases (hreaped.exact hreaping).1
  | conflict _ hreaped htaken =>
    rw [(hreaped.exact hreaping).2] at htaken
    exact absurd hfree htaken
  | full _ hreaped _ hfull =>
    rw [(hreaped.exact hreaping).2] at hfull
    exact absurd hfits hfull
  | rolledBack _ _ _ _ hrefused => simp [RefusesRecord, hallowed] at hrefused
  | recorded => rfl

-- A server that has handed out one challenge, and has no notes.
structure Leased (ledger : Ledger) (token : Bytes) (lease : Lease) : Prop where
  unspent : ledger.spent token = none
  leased : ledger.leases token = some lease
  notes : ∀ id, ledger.notes id = none
  index : ledger.index = ∅
  charges : ledger.charges = ∅
  total : ledger.total = none

theorem exists_leased
    : ∃ ledger, exampleLeasedCache = { now := 0, keys := ledger.keyspace } ∧ Leased ledger [7] ⟨420, 18, 420000⟩ := by
  have hanswered : ((Cache.empty 0).run [exampleIssue]).2.map Answer.reply ≠ [some Reply.capacity] := by
    decide +kernel
  have hkeys : (Cache.empty 0).keys = Ledger.empty.keyspace := Ledger.keyspace_empty.symm
  rcases step_call hkeys ((Cache.empty 0).step_call_eq allowAll (.issue .new [7]))
    with ⟨ledger, hledger, -, -, hcalled⟩
  refine ⟨ledger, hledger, ?_⟩
  cases hcalled with
  | issue hissued =>
    generalize hreply : Answer.reply _ = reply at hissued
    cases hissued with
    | aborted hsite => cases hsite
    | refused =>
      apply absurd _ hanswered
      exact congrArg (fun reply => [reply]) hreply
    | issued =>
      refine ⟨rfl, ?_, fun _ => rfl, rfl, rfl, rfl⟩
      simp only [Ledger.setChallenges, Ledger.setLease, Function.update_self]
      rfl

-- It takes in any packet in return.
theorem exists_deposited (hpacket : Admitted packet)
    (hlength : packet.bytes.length + packet.headerBytes.length ≤ 2 ^ 27)
    : ∃ cache created, cache.now = 0
        ∧ Deposited Config.new.maxNotes Config.new.maxStorageBytes cache packet created := by
  rcases exists_leased with ⟨ledger, hleased, hleasing⟩
  have hreap : ledger.reap 0 128 = ledger := by
    rw [Ledger.reap, hleasing.index]
    rfl
  have hproven : Proven { now := 0, denied := allowAll } ledger [7] ⟨420, 18, 420000⟩ :=
    ⟨hleasing.unspent, hleasing.leased, by decide⟩
  have hfree : Free (ledger.reap 0 128) (asBytes packet.header.id) := by
    rw [hreap]
    refine ⟨hleasing.notes _, ?_⟩
    rw [hleasing.charges]
    exact Finmap.notMem_empty
  have hfits : Fits (ledger.reap 0 128) (createArgs .new packet [7]) := by
    rw [hreap]
    refine ⟨?_, ?_⟩
    . rw [hleasing.charges]
      change 0 < 2048
      omega
    . rw [hleasing.total]
      change 0 + (packet.bytes.length + packet.headerBytes.length + 1024) ≤ 256 * 1024 * 1024
      omega
  have hbefore : (Cache.empty 0).run [exampleIssue]
      = (exampleLeasedCache, ((Cache.empty 0).run [exampleIssue]).2) := rfl
  generalize exampleLeasedCache = cache at hleased hbefore
  subst hleased
  have hstep := Cache.step_call_eq { now := 0, keys := ledger.keyspace } allowAll (.create .new packet [7])
  rcases step_call rfl hstep with ⟨ledger', -, -, -, hcalled⟩
  have hcreates : ∀ answer : Answer, answer.request = .create .new packet [7]
      → Called { now := 0, denied := allowAll } ledger (.create .new packet [7]) answer.reply ledger'
      → answer.creates (asBytes packet.header.id) = true := by
    rintro answer hrequest hcalled
    cases hcalled with
    | create hcreated =>
      have hreply := reply_of_proven (fun _ => rfl) hproven hfree hfits hcreated
      simp [Answer.creates, hrequest, Answer.succeeded, hreply]
  refine ⟨_, _, rfl, ⟨⟨0, _, _, hbefore, ?_⟩, allowAll, .new, [7], _, hstep, ?_, ?_⟩⟩
  . simp [exampleIssue, Honest, allowAll]
  . exact ⟨fun _ => rfl, rfl, rfl, hpacket⟩
  . exact hcreates _ rfl hcalled

end

end Store
