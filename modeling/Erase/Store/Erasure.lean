import Erase.Store.Reaping

/-!
How long an expired note stays on record: a few reapings erase it, whatever else happens in between.
-/

namespace Store

open Server Server.Lua Valkey Script

namespace Ledger

section

variable {ledger ledger' : Ledger} {time limit : Nat}

theorem length_expiredIds_le
    (h : ∀ id, ∀ score ≤ time, ledger'.index.lookup id = some score → ledger.index.lookup id = some score)
    : (ledger'.expiredIds time).length ≤ (ledger.expiredIds time).length := by
  apply (List.subperm_of_subset nodup_expiredIds _).length_le
  intro id hmem
  rcases mem_expiredIds.mp hmem with ⟨score, hle, hscore⟩
  exact mem_expiredIds.mpr ⟨score, hle, h id score hle hscore⟩

theorem length_expiredIds_of_index (h : ledger'.index = ledger.index)
    : (ledger'.expiredIds time).length ≤ (ledger.expiredIds time).length := by
  apply length_expiredIds_le
  intro id score _ hscore
  rw [← h]
  exact hscore

theorem length_expiredIds_releaseAll (ids : List Bytes)
    : ((ledger.releaseAll ids).expiredIds time).length ≤ (ledger.expiredIds time).length := by
  rw [(expiredIds_releaseAll ids).length_eq]
  exact List.length_filter_le _ _

-- A reaping takes the notes that expired first, so it meets those of an earlier second before any others.
theorem length_expiredIds_reap {early : Nat} (h : early ≤ time)
    : ((ledger.reap time limit).expiredIds early).length ≤ (ledger.expiredIds early).length - limit := by
  rcases SortedSet.ranked_prefix ledger.index h with ⟨later, hlater⟩
  have hexpired : ledger.expiredIds time = ledger.expiredIds early ++ later := hlater.symm
  rw [reap_eq, (expiredIds_releaseAll _).length_eq, hexpired]
  apply List.length_filter_le_sub
  intro id hmem
  rw [List.take_append]
  simp [hmem]

-- A note that is recorded expires later than the clock.
theorem length_expiredIds_recorded {env : Environment Site} {args : CreateArgs} {previous expires proofExpires : Nat}
    (h : time < expires)
    : ((ledger.recorded env args previous expires proofExpires).expiredIds time).length
        ≤ (ledger.expiredIds time).length := by
  apply length_expiredIds_le
  intro id score hle hscore
  have hlookup := FiniteMap.lookup_insert_ite ledger.index args.id id expires
  rw [recorded, hlookup] at hscore
  split at hscore
  . cases hscore
    omega
  . exact hscore

theorem length_expiredIds_le_size : (ledger.expiredIds time).length ≤ FiniteMap.size ledger.index := by
  rw [length_expiredIds, expired]
  exact Multiset.card_le_card (Multiset.filter_le _ _)

end

end Ledger

def reaps (answers : List Answer) : Nat := answers.countP fun answer => answer.request = .reap

section

variable {maxNotes maxBytes second now : Nat} {ledger ledger' : Ledger}

theorem length_expiredIds_accessed {denied : Site → Bool} {id hash : Bytes} {operation : Operation}
    {reply : Option Reply} (hdenied : ∀ site, denied site = false)
    (haccessed : Accessed { now, denied } ledger id hash operation reply ledger')
    : (ledger'.expiredIds second).length ≤ (ledger.expiredIds second).length := by
  have hreleased : ∀ {outcome : Option Unit}, Released { now, denied } ledger id outcome ledger'
      → (ledger'.expiredIds second).length ≤ (ledger.expiredIds second).length := by
    intro outcome hreleased
    rw [(hreleased.exact (allowsRelease_of_undenied hdenied)).2]
    exact Ledger.length_expiredIds_releaseAll [id]
  cases haccessed with
  | expired _ _ h => exact hreleased h
  | exhausted _ _ _ _ h => exact hreleased h
  | deleted _ _ _ _ h => exact hreleased h
  | openedLast _ _ _ _ h => exact hreleased h
  | _ => exact Nat.le_refl _

theorem length_expiredIds_created {env : Environment Site} {config : Config} {packet : Packet} {token : Bytes}
    {reply : Option Reply} (hdenied : ∀ site, env.denied site = false) (hpacket : Admitted packet)
    (hsecond : second ≤ env.now / 1000)
    (hcreated : Created env ledger (createArgs config packet token) reply ledger')
    : (ledger'.expiredIds second).length ≤ (ledger.expiredIds second).length := by
  have hreaped : ∀ {outcome : Option Unit} {reaped : Ledger},
      Reaped env ledger (env.now / 1000) 128 outcome reaped
      → (reaped.expiredIds second).length ≤ (ledger.expiredIds second).length := by
    intro outcome reaped hreaped
    rw [(hreaped.exact (allowsRelease_of_undenied hdenied)).2]
    exact Ledger.length_expiredIds_releaseAll _
  cases hcreated with
  | reused => exact Nat.le_refl _
  | unproven => exact Nat.le_refl _
  | aborted _ h => exact hreaped h
  | conflict _ h => exact hreaped h
  | full _ h => exact hreaped h
  | rolledBack _ _ _ _ hrefused => simp [RefusesRecord, hdenied] at hrefused
  | recorded _ h =>
    have httl := hpacket.ttl_pos
    have hexpires : second < expiresOf env (createArgs config packet token) := by
      rw [expiresOf, createArgs]
      dsimp only
      omega
    exact (Ledger.length_expiredIds_recorded hexpires).trans (hreaped h)

-- Nothing but time adds to the notes that have expired by a second, and a reaping takes up to 128 of them.
theorem length_expiredIds_of_transition {event : Event} {answers : List Answer} (hsecond : second ≤ now / 1000)
    (hhonest : Honest maxNotes maxBytes event) (htransition : Transition now ledger event answers ledger')
    : (ledger'.expiredIds second).length ≤ (ledger.expiredIds second).length - 128 * reaps answers := by
  cases htransition with
  | tick => exact Nat.le_refl _
  | @expire key => exact Ledger.length_expiredIds_of_index (faded_expire now ledger key).index
  | call hcalled =>
    rcases hhonest with ⟨hdenied, hrequest⟩
    cases hcalled with
    | issue hissued => cases hissued <;> exact Nat.le_refl _
    | inspectProof => exact Nat.le_refl _
    | access haccessed => exact length_expiredIds_accessed hdenied haccessed
    | create hcreated => exact length_expiredIds_created hdenied hrequest.2.2 hsecond hcreated
    | reap hswept =>
      have hreaped : ((ledger.reap (now / 1000) 128).expiredIds second).length
          ≤ (ledger.expiredIds second).length - 128 :=
        Ledger.length_expiredIds_reap hsecond
      cases hswept with
      | aborted hreaped' =>
        rw [(hreaped'.exact (allowsRelease_of_undenied hdenied)).2]
        exact hreaped
      | swept hreaped' =>
        rw [(hreaped'.exact (allowsRelease_of_undenied hdenied)).2]
        exact hreaped

/--
While the cache refuses no write, a note that has expired is off the record after a few reapings, with its
charge, whatever else the server is asked for and however its notes expire in the cache: one reaping for every
128 notes that it may hold.
-/
theorem expired_are_erased {start : Nat} {before after : List Event} {cache last : Cache}
    {earlier answers : List Answer} (hbefore : (Cache.empty start).run before = (cache, earlier))
    (hafter : cache.run after = (last, answers))
    (hhonest : ∀ event ∈ before ++ after, Honest maxNotes maxBytes event)
    (hreaps : maxNotes ≤ 128 * reaps answers)
    : ∃ ledger, last.keys = ledger.keyspace ∧ Balanced maxNotes maxBytes ledger
        ∧ (∀ id score, ledger.index.lookup id = some score → cache.now / 1000 < score)
        ∧ (∀ id note, ledger.notes id = some note → cache.now / 1000 < note.expires)
        ∧ ∀ id ∈ ledger.charges, ∃ score, ledger.index.lookup id = some score ∧ cache.now / 1000 < score := by
  rw [List.forall_mem_append] at hhonest
  rcases run_balanced hbefore hhonest.1 with ⟨first, hkeys, hfirst⟩
  have hsize : FiniteMap.size first.index ≤ maxNotes := by
    have hcard : FiniteMap.size first.charges = FiniteMap.size first.index := by
      rw [← FiniteMap.card_keys, ← FiniteMap.card_keys, hfirst.ids]
    rw [← hcard]
    exact hfirst.notes_le
  have hrun := run_invariant (Honest maxNotes maxBytes)
    (fun now ledger answers => Balanced maxNotes maxBytes ledger ∧ cache.now ≤ now
      ∧ (ledger.expiredIds (cache.now / 1000)).length
        ≤ (first.expiredIds (cache.now / 1000)).length - 128 * reaps answers)
    hafter hkeys ⟨hfirst, Nat.le_refl _, Nat.le_refl _⟩ (by
      rintro now ledger answers event new ledger' ⟨hbalanced, hnow, hleft⟩ hhonest htransition
      have hless := length_expiredIds_of_transition (Nat.div_le_div_right hnow) hhonest htransition
      refine ⟨hbalanced.of_transition hhonest htransition, hnow.trans (Nat.le_add_right _ _), ?_⟩
      have hcount : reaps (answers ++ new) = reaps answers + reaps new := List.countP_append ..
      omega) hhonest.2
  rcases hrun with ⟨ledger, hlast, hbalanced, -, hleft⟩
  have hnone : ledger.expiredIds (cache.now / 1000) = [] := by
    have hinitial : (first.expiredIds (cache.now / 1000)).length ≤ FiniteMap.size first.index :=
      Ledger.length_expiredIds_le_size
    rw [← List.length_eq_zero_iff]
    omega
  have hindex : ∀ id score, ledger.index.lookup id = some score → cache.now / 1000 < score := by
    intro id score hscore
    by_contra hle
    have hmem := Ledger.mem_expiredIds.mpr ⟨score, Nat.not_lt.mp hle, hscore⟩
    rw [hnone] at hmem
    cases hmem
  refine ⟨ledger, hlast, hbalanced, hindex, ?_, ?_⟩
  . intro id note hnote
    exact hindex id note.expires (hbalanced.note id note hnote).index
  . intro id hcharged
    rw [← Finmap.mem_keys, hbalanced.ids, Finmap.mem_keys] at hcharged
    rcases Finmap.mem_iff.mp hcharged with ⟨score, hscore⟩
    exact ⟨score, hscore, hindex id score hscore⟩

end

-- The note of the example expires after a minute, and one second of reapings is more than enough.
def exampleMinute : List Event := exampleUploads ++ [.tick 60000]

def exampleReaps : List Event := List.replicate 16 (.call allowAll .reap)

theorem expired_are_erased_exampleReaps
    : ∃ ledger : Ledger, (((Cache.empty 0).run exampleMinute).1.run exampleReaps).1.keys = ledger.keyspace
        ∧ ∀ id ∈ ledger.charges, ∃ score, ledger.index.lookup id = some score ∧ 60 < score := by
  have hhonest : ∀ event ∈ exampleMinute ++ exampleReaps,
      Honest Config.new.maxNotes Config.new.maxStorageBytes event := by
    rw [exampleMinute, List.forall_mem_append, List.forall_mem_append]
    refine ⟨⟨honest_exampleUploads, by simp [Honest]⟩, ?_⟩
    intro event hevent
    rw [List.eq_of_mem_replicate hevent]
    exact ⟨fun _ => rfl, trivial⟩
  have hnow : ((Cache.empty 0).run exampleMinute).1.now / 1000 = 60 := by decide +kernel
  have hreaps : Config.new.maxNotes ≤ 128 * reaps (((Cache.empty 0).run exampleMinute).1.run exampleReaps).2 := by
    decide +kernel
  rcases expired_are_erased Prod.mk.eta.symm Prod.mk.eta.symm
    hhonest hreaps with ⟨ledger, hkeys, -, -, -, hcharges⟩
  rw [hnow] at hcharges
  exact ⟨ledger, hkeys, hcharges⟩

end Store
