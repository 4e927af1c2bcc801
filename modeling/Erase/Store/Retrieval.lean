import Erase.Store.NoteStep

namespace Store

open Server Server.Lua

-- The request is no consumption: it only asks, or the cache answered with a refusal or an error.
def Spares (answer : Answer) : Prop :=
  answer.succeeded = false
    ∨ ∃ id hash, answer.request = .access id hash .metadata
        ∨ answer.request = .access id hash .checkOpen

def Delivers (packet : Packet) (second : Nat) (answer : Answer) : Prop :=
  answer.request
      = .access (asBytes packet.header.id) (asBytes packet.header.read) .openNote
    ∧ answer.reply = some (.ok [packet.bytes])
    ∧ answer.time / 1000 < second + packet.header.ttl

-- The successes of one incarnation and what remains of it add up to its views.
structure Tracked (packet : Packet) (second : Nat) (ledger : Ledger) (answers : List Answer)
    : Prop where
  counted : ∀ note, ledger.notes (asBytes packet.header.id) = some note
    → note.packet = packet.bytes ∧ note.read = asBytes packet.header.read
      ∧ note.expires = second + packet.header.ttl
      ∧ note.remaining + answers.countP (fun answer => answer.opens (asBytes packet.header.id))
          = packet.header.views
  bounded : answers.countP (fun answer => answer.opens (asBytes packet.header.id))
    ≤ packet.header.views
  delivered : ∀ answer ∈ answers, answer.opens (asBytes packet.header.id) = true
    → Delivers packet second answer
  ordered : answers.Pairwise fun earlier later =>
    earlier.deletes (asBytes packet.header.id) = true
      → later.opens (asBytes packet.header.id) = false
  closed : ∀ answer ∈ answers, answer.deletes (asBytes packet.header.id) = true
    → ledger.notes (asBytes packet.header.id) = none

namespace Tracked

variable {packet : Packet} {second now : Nat} {ledger ledger' : Ledger} {answers : List Answer}
  {answer : Answer}

theorem of_faded (h : Tracked packet second ledger answers) (hfaded : Faded now ledger ledger')
    : Tracked packet second ledger' answers := by
  rcases hfaded.notes (asBytes packet.header.id) with hsame | ⟨hnone, -⟩
  . exact {
      h with
      counted := fun note hnote => h.counted note (hsame ▸ hnote)
      closed := fun answer hmem hdeletes => hsame.trans (h.closed answer hmem hdeletes) }
  . exact {
      h with
      counted := fun note hnote => by simp [hnone] at hnote
      closed := fun _ _ _ => hnone }

-- Once the note is gone nothing is delivered any more, which keeps deletions behind deliveries.
theorem extend (h : Tracked packet second ledger answers)
    (hcounted : ∀ note, ledger'.notes (asBytes packet.header.id) = some note
      → note.packet = packet.bytes ∧ note.read = asBytes packet.header.read
        ∧ note.expires = second + packet.header.ttl
        ∧ note.remaining
            + (answers ++ [answer]).countP (fun answer => answer.opens (asBytes packet.header.id))
            = packet.header.views)
    (hbounded : (answers ++ [answer]).countP (fun answer => answer.opens (asBytes packet.header.id))
      ≤ packet.header.views)
    (hdelivered : answer.opens (asBytes packet.header.id) = true
      → Delivers packet second answer ∧ ledger.notes (asBytes packet.header.id) ≠ none)
    (hdeleted : answer.deletes (asBytes packet.header.id) = true
      → ledger'.notes (asBytes packet.header.id) = none)
    (hgone : ledger.notes (asBytes packet.header.id) = none
      → ledger'.notes (asBytes packet.header.id) = none)
    : Tracked packet second ledger' (answers ++ [answer]) where
  counted := hcounted
  bounded := hbounded
  delivered other hmem hopens := by
    rcases List.mem_append.mp hmem with hmem | hmem
    . exact h.delivered other hmem hopens
    . rw [List.mem_singleton] at hmem
      subst hmem
      exact (hdelivered hopens).1
  ordered := by
    rw [List.pairwise_append]
    refine ⟨h.ordered, List.pairwise_singleton _ _, fun earlier hearlier later hlater hdeletes => ?_⟩
    rw [List.mem_singleton] at hlater
    subst hlater
    rw [← Bool.not_eq_true]
    intro hopens
    exact (hdelivered hopens).2 (h.closed earlier hearlier hdeletes)
  closed other hmem hdeletes := by
    rcases List.mem_append.mp hmem with hmem | hmem
    . exact hgone (h.closed other hmem hdeletes)
    . rw [List.mem_singleton] at hmem
      subst hmem
      exact hdeleted hdeletes

theorem of_quiet (h : Tracked packet second ledger answers)
    (hquiet : answer.Quiet (asBytes packet.header.id))
    (hafter : ledger'.notes (asBytes packet.header.id) = ledger.notes (asBytes packet.header.id)
      ∨ ledger'.notes (asBytes packet.header.id) = none)
    : Tracked packet second ledger' (answers ++ [answer]) := by
  have hcount : (answers ++ [answer]).countP (fun answer => answer.opens (asBytes packet.header.id))
      = answers.countP (fun answer => answer.opens (asBytes packet.header.id)) := by
    simp [List.countP_append, hquiet.1]
  apply h.extend
  . intro note hnote
    rw [hcount]
    rcases hafter with hsame | hnone
    . exact h.counted note (hsame ▸ hnote)
    . simp [hnone] at hnote
  . rw [hcount]
    exact h.bounded
  . simp [hquiet.1]
  . simp [hquiet.2]
  . intro hnone
    rcases hafter with hsame | hnone'
    . exact hsame.trans hnone
    . exact hnone'

theorem of_noteStep (h : Tracked packet second ledger answers)
    (hstep : NoteStep now ledger ledger' (asBytes packet.header.id) answer)
    (hcreates : answer.creates (asBytes packet.header.id) = false) (htime : answer.time = now)
    : Tracked packet second ledger' (answers ++ [answer]) := by
  cases hstep with
  | created hanswer => simp [hcreates] at hanswer
  | kept hquiet hafter => exact h.of_quiet hquiet (.inl hafter)
  | dropped hquiet _ hafter => exact h.of_quiet hquiet (.inr hafter)
  | deleted hanswer hafter =>
    have hopens := Answer.opens_of_deletes hanswer
    apply h.extend
    . simp [hafter]
    . simpa [List.countP_append, hopens] using h.bounded
    . simp [hopens]
    . exact fun _ => hafter
    . exact fun _ => hafter
  | @opened note hash hrequest hnote hlive hallowed hreply hafter =>
    rcases h.counted note hnote with ⟨hpacket, hread, hexpires, hremaining⟩
    have hopens : answer.opens (asBytes packet.header.id) = true := by
      simp [Answer.opens, Answer.accesses, Answer.succeeded, hrequest, hreply]
    have hdeletes : answer.deletes (asBytes packet.header.id) = false := by
      simp [Answer.deletes, Answer.accesses, hrequest]
    have hcount : (answers ++ [answer]).countP (fun answer => answer.opens (asBytes packet.header.id))
        = answers.countP (fun answer => answer.opens (asBytes packet.header.id)) + 1 := by
      simp [List.countP_append, hopens]
    apply h.extend
    . intro note' hnote'
      rcases hafter with ⟨-, hnone⟩ | ⟨hmore, hsome⟩
      . simp [hnone] at hnote'
      . rw [hsome] at hnote'
        cases hnote'
        refine ⟨hpacket, hread, hexpires, ?_⟩
        rw [hcount]
        dsimp only
        omega
    . rw [hcount]
      omega
    . intro _
      refine ⟨⟨?_, ?_, ?_⟩, by simp [hnote]⟩
      . have hhash : some note.read = some hash := hallowed.1
        rw [hrequest, ← hread, Option.some.inj hhash]
      . rw [hreply, hpacket]
      . rw [htime, ← hexpires]
        exact hlive
    . simp [hdeletes]
    . simp [hnote]

theorem of_transition {event : Event} {new : List Answer} (hindexed : Indexed ledger)
    (h : Tracked packet second ledger answers) (htransition : Transition now ledger event new ledger')
    (hcreates : ∀ answer ∈ new, answer.creates (asBytes packet.header.id) = false)
    : Tracked packet second ledger' (answers ++ new) := by
  cases htransition with
  | tick => rwa [List.append_nil]
  | expire =>
    rw [List.append_nil]
    exact h.of_faded (faded_expire now ledger _)
  | call hcalled =>
    have hstep := noteStep_of_called hindexed hcalled (asBytes packet.header.id)
    exact h.of_noteStep hstep (hcreates _ List.mem_cons_self) rfl

end Tracked

theorem tracked_of_created {now : Nat} {denied : Site → Bool} {ledger ledger' : Ledger}
    {config : Config} {packet : Packet} {token : Bytes} {parts : List Bytes}
    (h : Created { now, denied } ledger (createArgs config packet token) (some (.ok parts)) ledger')
    : Tracked packet (now / 1000) ledger' [] := by
  cases h with
  | recorded _ hreaped =>
    constructor
    . intro note hnote
      simp only [Ledger.recorded, createArgs, Function.update_self] at hnote
      rw [Note.eq_of_stamped hnote]
      exact ⟨rfl, rfl, rfl, rfl⟩
    . simp
    . simp
    . simp
    . simp

theorem run_indexed {start : Nat} {last : Cache} {events : List Event} {answers : List Answer}
    (hrun : (Cache.empty start).run events = (last, answers))
    : ∃ ledger, last.keys = ledger.keyspace ∧ Indexed ledger := by
  apply run_empty_invariant (fun _ => True) (fun _ ledger _ => Indexed ledger) hrun
  . intro id note hnote
    cases hnote
  . exact fun h _ htransition => Indexed.of_transition h htransition
  . exact fun _ _ => trivial

theorem quiet_of_spares {answer : Answer} (h : Spares answer) (id : Bytes)
    : answer.creates id = false ∧ answer.Quiet id := by
  rcases h with hfailed | ⟨other, hash, hrequest⟩
  . refine ⟨?_, Answer.quiet_of_failed hfailed id⟩
    unfold Answer.creates
    split <;> simp [hfailed]
  . rcases hrequest with hrequest | hrequest
    . refine ⟨?_, Answer.quiet_of_operation hrequest (.inr (by decide))⟩
      simp [Answer.creates, hrequest]
    . refine ⟨?_, Answer.quiet_of_operation hrequest (.inr (by decide))⟩
      simp [Answer.creates, hrequest]

-- What a request that spares the notes leaves of each of them.
def KeepsRemaining (cache next : Cache) (answer : Answer) : Prop :=
  ∃ ledger ledger' : Ledger, cache.keys = ledger.keyspace ∧ next.keys = ledger'.keyspace
    ∧ ∀ id note, ledger.notes id = some note
      → ledger'.notes id = some note
        ∨ ledger'.notes id = none
          ∧ (note.expires ≤ cache.now / 1000 ∨ note.remaining = 0 ∨ answer.reply = none)

theorem keepsRemaining_of_spares {cache next : Cache} {ledger : Ledger} {denied : Site → Bool}
    {request : Request} {answer : Answer} (hkeys : cache.keys = ledger.keyspace)
    (hindexed : Indexed ledger) (hstep : cache.step (.call denied request) = (next, [answer]))
    (hspares : Spares answer) : KeepsRemaining cache next answer := by
  rcases step_call hkeys hstep with ⟨ledger', rfl, htime, hrequest, hcalled⟩
  refine ⟨ledger, ledger', hkeys, rfl, fun id note hnote => ?_⟩
  have hanswer : answer = { time := cache.now, request, reply := answer.reply } := by
    rcases answer with ⟨time, request', reply⟩
    simp only at htime hrequest
    rw [htime, hrequest]
  have hnoteStep := noteStep_of_called hindexed hcalled id
  rw [← hanswer] at hnoteStep
  rcases quiet_of_spares hspares id with ⟨hcreates, hquiet⟩
  cases hnoteStep with
  | created hcreated => simp [hcreates] at hcreated
  | opened hopened _ _ _ hreply =>
    have hopens := hquiet.1
    simp [Answer.opens, Answer.accesses, Answer.succeeded, hopened, hreply] at hopens
  | deleted hdeletes => simp [hquiet.2] at hdeletes
  | kept _ hafter => exact .inl (hafter.trans hnote)
  | dropped _ hnote' hafter hreason =>
    rw [hnote] at hnote'
    cases hnote'
    exact .inr ⟨hafter, hreason⟩

theorem delivers_at_most_views {start : Nat} {before after : List Event}
    {cache created last : Cache} {earlier answers : List Answer} {answer : Answer}
    {denied : Site → Bool} {config : Config} {packet : Packet} {token : Bytes}
    (hbefore : (Cache.empty start).run before = (cache, earlier))
    (hcreate : cache.step (.call denied (.create config packet token)) = (created, [answer]))
    (hcreated : answer.creates (asBytes packet.header.id) = true)
    (hafter : created.run after = (last, answers))
    (hlast : ∀ answer ∈ answers, answer.creates (asBytes packet.header.id) = false)
    : answers.countP (fun answer => answer.opens (asBytes packet.header.id)) ≤ packet.header.views
      ∧ (∀ answer ∈ answers, answer.opens (asBytes packet.header.id) = true
          → Delivers packet (cache.now / 1000) answer)
      ∧ answers.Pairwise (fun earlier later =>
          earlier.deletes (asBytes packet.header.id) = true
            → later.opens (asBytes packet.header.id) = false)
      ∧ ∀ events cache answers denied request next answer,
          (Cache.empty start).run events = (cache, answers)
            → cache.step (.call denied request) = (next, [answer]) → Spares answer
            → KeepsRemaining cache next answer := by
  have hspares : ∀ events cache answers denied request next answer,
      (Cache.empty start).run events = (cache, answers)
        → cache.step (.call denied request) = (next, [answer]) → Spares answer
        → KeepsRemaining cache next answer := by
    intro events cache answers denied request next answer hrun hstep hspares
    rcases run_indexed hrun with ⟨ledger, hkeys, hindexed⟩
    exact keepsRemaining_of_spares hkeys hindexed hstep hspares
  rcases run_indexed hbefore with ⟨ledger, hkeys, hindexed⟩
  rcases step_call hkeys hcreate with ⟨ledger', rfl, -, hrequest, hcalled⟩
  have hindexed' := hindexed.of_called hcalled
  have htracked : Tracked packet (cache.now / 1000) ledger' [] := by
    rcases Answer.reply_of_creates hcreated with ⟨parts, hreply⟩
    rw [hreply] at hcalled
    cases hcalled with
    | create h => exact tracked_of_created h
  have htrack := run_invariant (fun _ => True)
    (fun _ ledger answers => Indexed ledger
      ∧ ((∀ answer ∈ answers, answer.creates (asBytes packet.header.id) = false)
        → Tracked packet (cache.now / 1000) ledger answers))
    hafter rfl ⟨hindexed', fun _ => htracked⟩ (by
      rintro now ledger answers event new ledger' ⟨hindexed, htracked⟩ - htransition
      refine ⟨hindexed.of_transition htransition, fun hcreates => ?_⟩
      rw [List.forall_mem_append] at hcreates
      exact (htracked hcreates.1).of_transition hindexed htransition hcreates.2) (fun _ _ => trivial)
  rcases htrack with ⟨ledger'', -, -, htracked⟩
  have htracked := htracked hlast
  exact ⟨htracked.bounded, htracked.delivered, htracked.ordered, hspares⟩

def exampleHash (digit : Char) : String := String.ofList (List.replicate 64 digit)

def exampleHeader : Header where
  version := 1
  id := "id"
  ttl := 60
  views := 1
  peek := exampleHash 'a'
  read := exampleHash 'b'
  revoke := exampleHash 'c'
  kdf := "none"
  salt := ""
  nonce := ""

def examplePacket : Packet where
  bytes := [1, 2, 3]
  headerBytes := [2]
  header := exampleHeader

def exampleIssued : Cache := ((Cache.empty 0).run [.call allowAll (.issue .new [7])]).1

def exampleCreated : Cache :=
  (exampleIssued.step (.call allowAll (.create .new examplePacket [7]))).1

def exampleOpens : List Event :=
  List.replicate 2 (.call allowAll (.access (asBytes "id") (asBytes (exampleHash 'b')) .openNote))

theorem delivers_at_most_views_example
    : (exampleCreated.run exampleOpens).2.countP (fun answer => answer.opens (asBytes "id")) ≤ 1 := by
  have hcreate : exampleIssued.step (.call allowAll (.create .new examplePacket [7]))
      = (exampleCreated, [{
          time := 0, request := .create .new examplePacket [7],
          reply := some (.ok [Decimal.print 60]) }]) :=
    Prod.ext rfl (by decide)
  have hlast : ∀ answer ∈ (exampleCreated.run exampleOpens).2,
      answer.creates (asBytes examplePacket.header.id) = false := by
    decide
  exact (delivers_at_most_views rfl hcreate (by decide) rfl hlast).1

end Store
