import Erase.Store.Vault

namespace Store

open Server Server.Lua

namespace Vault

variable {vault : Vault} {id : Bytes} {note : Live} {answer : Answer}

theorem access_cases (hnote : vault id = some note) (hash : Bytes) (operation : Operation)
    : vault.access id hash operation = (.unavailable, vault)
        ∨ vault.access id hash operation = (.capacity, vault)
        ∨ vault.access id hash operation = vault.grant id note operation := by
  unfold access
  rw [hnote]
  dsimp only
  split
  . exact .inr (.inl rfl)
  . split
    . exact .inr (.inr rfl)
    . exact .inl rfl

theorem access_frame {other hash : Bytes} {operation : Operation} (h : id ≠ other)
    : (vault.access other hash operation).2 id = vault id := by
  cases hnote : vault other with
  | none => simp only [access, hnote]
  | some note =>
    rcases access_cases hnote hash operation with heq | heq | heq
    . rw [heq]
    . rw [heq]
    . rw [heq]
      cases operation with
      | openNote => exact Function.update_of_ne h _ _
      | deleteNote => exact Function.update_of_ne h _ _
      | _ => rfl

-- An explained answer that deletes nothing keeps a note of the map or consumes one view of it.
theorem next_of_explains (hnote : vault id = some note) (hexplains : vault.Explains answer)
    (hdeletes : answer.deletes id = false)
    : answer.opens id = false ∧ vault.next answer id = some note
        ∨ answer.opens id = true ∧ vault.next answer id = note.consumed := by
  rcases answer with ⟨time, request, reply⟩
  cases request with
  | create config packet token =>
    refine .inl ⟨rfl, ?_⟩
    unfold next
    dsimp only
    split
    . next hsucceeded =>
      have hother : id ≠ asBytes packet.header.id := by
        rintro rfl
        simp [hexplains hsucceeded] at hnote
      rw [Function.update_of_ne hother, hnote]
    . exact hnote
  | access other hash operation =>
    by_cases hother : id = other
    case neg =>
      refine .inl ⟨(Answer.quiet_of_operation rfl (.inl (Ne.symm hother))).1, ?_⟩
      exact (access_frame hother).trans hnote
    subst hother
    simp only [Explains] at hexplains
    rcases access_cases hnote hash operation with heq | heq | heq
    . rw [heq] at hexplains
      refine .inl ⟨?_, ?_⟩
      . exact (Answer.quiet_of_failed (by simp [Answer.succeeded, hexplains]) id).1
      . simp only [next, heq, hnote]
    . rw [heq] at hexplains
      refine .inl ⟨?_, ?_⟩
      . exact (Answer.quiet_of_failed (by simp [Answer.succeeded, hexplains]) id).1
      . simp only [next, heq, hnote]
    . cases operation with
      | openNote =>
        refine .inr ⟨?_, ?_⟩
        . simp [Answer.opens, Answer.accesses, Answer.succeeded, hexplains, heq, grant]
        . simp only [next, heq, grant, Function.update_self]
      | deleteNote =>
        simp [Answer.deletes, Answer.accesses, Answer.succeeded, hexplains, heq, grant] at hdeletes
      | _ =>
        refine .inl ⟨by simp [Answer.opens, Answer.accesses], ?_⟩
        simp only [next, heq, grant, hnote]
  | _ => exact .inl ⟨rfl, hnote⟩

end Vault

-- A note that has views left and has not lapsed, as long as nobody deleted it.
def Retained (packet : Packet) (second now : Nat) (ledger : Ledger) (answers : List Answer) : Prop :=
  (∀ answer ∈ answers, answer.deletes (asBytes packet.header.id) = false)
    → answers.countP (fun answer => answer.opens (asBytes packet.header.id)) < packet.header.views
    → now / 1000 < second + packet.header.ttl
    → ledger.vault.live (now / 1000) (asBytes packet.header.id) = some {
        Live.ofPacket packet second with
        remaining := packet.header.views
          - answers.countP (fun answer => answer.opens (asBytes packet.header.id)) }

theorem retained_of_transition {maxNotes maxBytes second now : Nat} {packet : Packet}
    {ledger ledger' : Ledger} {answers new : List Answer} {event : Event}
    (hbalanced : Balanced maxNotes maxBytes ledger) (h : Retained packet second now ledger answers)
    (hhonest : Honest maxNotes maxBytes event) (htransition : Transition now ledger event new ledger')
    : Retained packet second (now + Event.elapsed event) ledger' (answers ++ new) := by
  cases htransition with
  | @tick elapsed =>
    rw [List.append_nil]
    intro hdeletes hviews hlive
    have hle : now / 1000 ≤ (now + elapsed) / 1000 := by omega
    simp only [Event.elapsed] at hlive ⊢
    rw [← Vault.live_live hle, Vault.live_eq_some_iff]
    exact ⟨h hdeletes hviews (by omega), hlive⟩
  | @expire key =>
    rw [List.append_nil]
    intro hdeletes hviews hlive
    simp only [Event.elapsed, Nat.add_zero] at hlive ⊢
    rw [vault_of_expire hbalanced]
    exact h hdeletes hviews hlive
  | @call denied request reply ledger' hcalled =>
    intro hdeletes hviews hlive
    rcases vault_of_called hbalanced hhonest hcalled with ⟨hexplains, hnext⟩
    rw [List.forall_mem_append] at hdeletes
    have hdeletes' := hdeletes.2 _ List.mem_cons_self
    rw [List.countP_append, List.countP_singleton] at hviews ⊢
    have hbefore := h hdeletes.1 (by omega) hlive
    rcases Vault.next_of_explains hbefore hexplains hdeletes' with ⟨hopens, hkept⟩ | ⟨hopens, hconsumed⟩
    . rw [hopens] at hviews ⊢
      exact (congrFun hnext _).trans hkept
    . rw [hopens] at hviews ⊢
      refine (congrFun hnext _).trans (hconsumed.trans ?_)
      simp only [if_true] at hviews ⊢
      have hmore : ¬packet.header.views
          - answers.countP (fun answer => answer.opens (asBytes packet.header.id)) ≤ 1 := by omega
      rw [Live.consumed, if_neg hmore, Nat.sub_sub]

-- The reply of a call whose writes the cache does not refuse.
def Answers (cache : Cache) (request : Request) (reply : Reply) : Prop :=
  ∀ denied : Site → Bool, (∀ site, denied site = false)
    → (cache.step (.call denied request)).2 = [{ time := cache.now, request, reply := some reply }]

theorem answers_access {maxNotes maxBytes : Nat} {cache : Cache} {ledger : Ledger}
    (hkeys : cache.keys = ledger.keyspace) (hbalanced : Balanced maxNotes maxBytes ledger)
    (id hash : Bytes) (operation : Operation)
    : Answers cache (.access id hash operation)
        ((ledger.vault.live (cache.now / 1000)).access id hash operation).1 := by
  intro denied hdenied
  rcases run_access { now := cache.now, denied } ledger id hash operation
    with ⟨reply, ledger', hrun, haccessed⟩
  rcases vault_of_accessed hbalanced hdenied haccessed with ⟨rfl, -⟩
  simp only [Cache.step, Request.script, hkeys, hrun]

theorem answers_granted {maxNotes maxBytes : Nat} {cache : Cache} {ledger : Ledger}
    (hkeys : cache.keys = ledger.keyspace) (hbalanced : Balanced maxNotes maxBytes ledger)
    {id hash : Bytes} {note : Live} {operation : Operation}
    (hnote : ledger.vault.live (cache.now / 1000) id = some note)
    (hcapability : note.capability operation = some hash) (hlength : hash.length = 64)
    : Answers cache (.access id hash operation)
        ((ledger.vault.live (cache.now / 1000)).grant id note operation).1 := by
  have hanswers := answers_access hkeys hbalanced id hash operation
  simp only [Vault.access, hnote, hcapability, hlength, and_self, if_true] at hanswers
  exact hanswers

theorem answers_create {maxNotes maxBytes : Nat} {cache : Cache} {ledger : Ledger}
    (hkeys : cache.keys = ledger.keyspace) (hbalanced : Balanced maxNotes maxBytes ledger)
    {config : Config} {packet : Packet} {token : Bytes}
    (hnote : ledger.vault.live (cache.now / 1000) (asBytes packet.header.id) ≠ none)
    : ∃ reply ∈ [Reply.proofReused, .proofInvalid, .idConflict],
        Answers cache (.create config packet token) reply := by
  rcases run_create { now := cache.now, denied := allowAll } ledger (createArgs config packet token)
    with ⟨reply, ledger', hrun, hcreated⟩
  have hallowed : AllowsRelease { now := cache.now, denied := allowAll } :=
    allowsRelease_of_undenied fun _ => rfl
  have hanswers : ∀ reply', reply = some reply' → Answers cache (.create config packet token) reply' := by
    rintro reply' rfl denied hdenied
    have hdenied : denied = allowAll := funext hdenied
    simp only [Cache.step, Request.script, hkeys, hdenied, hrun]
  have htaken : ∀ reaped outcome,
      Reaped { now := cache.now, denied := allowAll } ledger (cache.now / 1000) 128 outcome reaped
        → ¬Free reaped (asBytes packet.header.id) := by
    intro reaped outcome hreaped hfree
    rw [← vault_of_reaped hbalanced hreaped] at hnote
    exact hnote (vault_live_of_free hfree)
  cases hcreated with
  | reused => exact ⟨.proofReused, by simp, hanswers _ rfl⟩
  | unproven => exact ⟨.proofInvalid, by simp, hanswers _ rfl⟩
  | aborted _ hreaped => cases (hreaped.exact hallowed).1
  | conflict => exact ⟨.idConflict, by simp, hanswers _ rfl⟩
  | full _ hreaped hfree => exact absurd hfree (htaken _ _ hreaped)
  | rolledBack _ hreaped hfree => exact absurd hfree (htaken _ _ hreaped)
  | recorded _ hreaped hfree => exact absurd hfree (htaken _ _ hreaped)

theorem run_refines {maxNotes maxBytes start : Nat} {last : Cache} {events : List Event}
    {answers : List Answer} (hrun : (Cache.empty start).run events = (last, answers))
    (hhonest : ∀ event ∈ events, Honest maxNotes maxBytes event)
    : ∃ ledger, last.keys = ledger.keyspace ∧ Refines maxNotes maxBytes last.now ledger answers := by
  apply run_empty_invariant (Honest maxNotes maxBytes) (Refines maxNotes maxBytes) hrun
  . exact ⟨balanced_empty maxNotes maxBytes, rfl, .nil⟩
  . exact fun h hhonest htransition => refines_of_transition h hhonest htransition
  . exact hhonest

theorem no_premature_loss {maxNotes maxBytes start : Nat} {before after : List Event}
    {cache created last : Cache} {earlier answers : List Answer} {answer : Answer}
    {denied : Site → Bool} {config : Config} {packet : Packet} {token : Bytes}
    (hbefore : (Cache.empty start).run before = (cache, earlier))
    (hcreate : cache.step (.call denied (.create config packet token)) = (created, [answer]))
    (hafter : created.run after = (last, answers))
    (hhonest : ∀ event ∈ before ++ .call denied (.create config packet token) :: after,
      Honest maxNotes maxBytes event)
    (hcreated : answer.creates (asBytes packet.header.id) = true)
    (hdeletes : ∀ answer ∈ answers, answer.deletes (asBytes packet.header.id) = false)
    (hviews : answers.countP (fun answer => answer.opens (asBytes packet.header.id))
      < packet.header.views)
    (hlive : last.now / 1000 < cache.now / 1000 + packet.header.ttl)
    : Answers last (.access (asBytes packet.header.id) (asBytes packet.header.peek) .metadata)
          (.ok [packet.headerBytes, tostring (cache.now / 1000 + packet.header.ttl),
            tostring (packet.header.views
              - answers.countP (fun answer => answer.opens (asBytes packet.header.id)))])
        ∧ Answers last (.access (asBytes packet.header.id) (asBytes packet.header.read) .checkOpen)
            (.ok [])
        ∧ Answers last (.access (asBytes packet.header.id) (asBytes packet.header.read) .openNote)
            (.ok [packet.bytes])
        ∧ Answers last (.access (asBytes packet.header.id) (asBytes packet.header.revoke) .deleteNote)
            (.ok [])
        ∧ (∀ config' packet' token', packet'.header.id = packet.header.id
            → ∃ reply ∈ [Reply.proofReused, .proofInvalid, .idConflict],
                Answers last (.create config' packet' token') reply)
        ∧ ∀ events cache answers, (∀ event ∈ events, Honest maxNotes maxBytes event)
            → (Cache.empty start).run events = (cache, answers)
            → ∃ ledger, cache.keys = ledger.keyspace
                ∧ Refines maxNotes maxBytes cache.now ledger answers := by
  rw [List.forall_mem_append, List.forall_mem_cons] at hhonest
  rcases hhonest with ⟨hbefore', hcreate', hafter'⟩
  have hpacket : Admitted packet := hcreate'.2.2.2
  rcases run_balanced hbefore hbefore' with ⟨ledger, hkeys, hbalanced⟩
  rcases step_call hkeys hcreate with ⟨ledger', rfl, htime, hrequest, hcalled⟩
  have hbalanced' := hbalanced.of_transition hcreate' (.call hcalled)
  have hretained : Retained packet (cache.now / 1000) cache.now ledger' [] := by
    intro _ _ _
    rcases Answer.reply_of_creates hcreated with ⟨parts, hreply⟩
    rcases vault_of_called hbalanced hcreate' hcalled with ⟨-, hnext⟩
    simp only [Vault.next, Answer.succeeded, hreply, if_true] at hnext
    rw [hnext, Function.update_self]
    rfl
  have hlast := run_invariant (Honest maxNotes maxBytes)
    (fun now ledger answers => Balanced maxNotes maxBytes ledger
      ∧ Retained packet (cache.now / 1000) now ledger answers)
    hafter rfl ⟨hbalanced', hretained⟩ (by
      rintro now ledger answers event new ledger' ⟨hbalanced, hretained⟩ hhonest htransition
      exact ⟨hbalanced.of_transition hhonest htransition,
        retained_of_transition hbalanced hretained hhonest htransition⟩) hafter'
  rcases hlast with ⟨final, hkeys, hbalanced, hretained⟩
  have hnote := hretained hdeletes hviews hlive
  rcases hpacket.length_hashes with ⟨hpeek, hread, hrevoke⟩
  refine ⟨answers_granted hkeys hbalanced hnote rfl hpeek,
    answers_granted hkeys hbalanced hnote rfl hread,
    answers_granted hkeys hbalanced hnote rfl hread,
    answers_granted hkeys hbalanced hnote rfl hrevoke, fun config' packet' token' hid => ?_, ?_⟩
  . apply answers_create hkeys hbalanced
    rw [hid, hnote]
    exact Option.some_ne_none _
  . exact fun _ _ _ hhonest hrun => run_refines hrun hhonest

def exampleIssue : Event := .call allowAll (.issue .new [7])

def exampleCreate : Event := .call allowAll (.create .new exampleUpload [7])

def exampleRead : Request :=
  .access (asBytes exampleUpload.header.id) (asBytes exampleUpload.header.read) .openNote

def exampleReads : List Event := [.call allowAll exampleRead, .tick 59000]

def exampleLeasedCache : Cache := ((Cache.empty 0).run [exampleIssue]).1

def exampleStored : Cache := (exampleLeasedCache.step exampleCreate).1

-- One of the two views is consumed, and the other one still answers.
theorem no_premature_loss_exampleUpload
    : Answers (exampleStored.run exampleReads).1 exampleRead (.ok [exampleUpload.bytes]) := by
  have hhonest : ∀ event ∈ [exampleIssue] ++ exampleCreate :: exampleReads,
      Honest Config.new.maxNotes Config.new.maxStorageBytes event := by
    simp [exampleIssue, exampleCreate, exampleReads, exampleRead, Honest, allowAll,
      admitted_exampleUpload]
  have hbefore : (Cache.empty 0).run [exampleIssue]
      = (exampleLeasedCache, ((Cache.empty 0).run [exampleIssue]).2) :=
    Prod.mk.eta.symm
  have hcreate := exampleLeasedCache.step_call_eq allowAll (.create .new exampleUpload [7])
  have hafter : exampleStored.run exampleReads
      = ((exampleStored.run exampleReads).1, (exampleStored.run exampleReads).2) :=
    Prod.mk.eta.symm
  have hloss := no_premature_loss hbefore hcreate hafter hhonest
    (by decide +kernel) (by decide +kernel) (by decide +kernel) (by decide +kernel)
  exact hloss.2.2.1

end Store
