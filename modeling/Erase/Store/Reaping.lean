import Erase.Store.Commutation

namespace Store

open Server Server.Lua Valkey Script

namespace Ledger

def expired (ledger : Ledger) (time : Nat) : FiniteMap Bytes Nat :=
  ledger.index.filterValues fun score => score ≤ time

def expiredIds (ledger : Ledger) (time : Nat) : List Bytes := SortedSet.ranked (ledger.expired time)

-- What every complete clean-up leaves.
def purge (ledger : Ledger) (time : Nat) : Ledger := ledger.releaseAll (ledger.expiredIds time)

section

variable {ledger : Ledger} {time limit : Nat} {id : Bytes} {ids : List Bytes}

theorem reap_eq : ledger.reap time limit = ledger.releaseAll ((ledger.expiredIds time).take limit) :=
  rfl

theorem nodup_expiredIds : (ledger.expiredIds time).Nodup := SortedSet.nodup_ranked _

theorem length_expiredIds
    : (ledger.expiredIds time).length = FiniteMap.size (ledger.expired time) :=
  SortedSet.length_ranked _

theorem mem_expiredIds
    : id ∈ ledger.expiredIds time ↔ ∃ score ≤ time, ledger.index.lookup id = some score := by
  rw [expiredIds, SortedSet.mem_ranked, Finmap.mem_iff]
  constructor
  . rintro ⟨score, hscore⟩
    rw [expired, FiniteMap.lookup_filterValues, Option.filter_eq_some_iff] at hscore
    exact ⟨score, of_decide_eq_true hscore.2, hscore.1⟩
  . rintro ⟨score, hle, hscore⟩
    refine ⟨score, ?_⟩
    rw [expired, FiniteMap.lookup_filterValues, Option.filter_eq_some_iff]
    exact ⟨hscore, decide_eq_true hle⟩

theorem releaseAll_cons : ledger.releaseAll (id :: ids) = (ledger.release id).releaseAll ids := rfl

theorem notes_releaseAll (ids : List Bytes)
    : (ledger.releaseAll ids).notes id = if id ∈ ids then none else ledger.notes id := by
  induction ids generalizing ledger with
  | nil => rfl
  | cons first ids ih =>
    rw [releaseAll_cons, ih, release]
    dsimp only
    rw [Function.update_apply]
    by_cases hfirst : id = first <;> by_cases hids : id ∈ ids <;> simp [hfirst, hids]

theorem index_releaseAll (ids : List Bytes)
    : (ledger.releaseAll ids).index.lookup id = if id ∈ ids then none else ledger.index.lookup id := by
  induction ids generalizing ledger with
  | nil => rfl
  | cons first ids ih =>
    rw [releaseAll_cons, ih, release, FiniteMap.lookup_erase_ite]
    by_cases hfirst : id = first <;> by_cases hids : id ∈ ids <;> simp [hfirst, hids]

theorem charges_releaseAll (ids : List Bytes)
    : (ledger.releaseAll ids).charges.lookup id
        = if id ∈ ids then none else ledger.charges.lookup id := by
  induction ids generalizing ledger with
  | nil => rfl
  | cons first ids ih =>
    rw [releaseAll_cons, ih, release, FiniteMap.lookup_erase_ite]
    by_cases hfirst : id = first <;> by_cases hids : id ∈ ids <;> simp [hfirst, hids]

theorem releaseAll_perm {ids' : List Bytes} (h : ids.Perm ids')
    : ledger.releaseAll ids = ledger.releaseAll ids' := by
  have hcommutes : RightCommutative Ledger.release := by
    constructor
    intro ledger id other
    by_cases hother : other = id
    . rw [hother]
    . exact release_release hother
  exact h.foldl_eq ledger

theorem expiredIds_releaseAll (ids : List Bytes)
    : ((ledger.releaseAll ids).expiredIds time).Perm
        ((ledger.expiredIds time).filter fun id => id ∉ ids) := by
  rw [List.perm_ext_iff_of_nodup nodup_expiredIds (nodup_expiredIds.filter _)]
  intro id
  rw [mem_expiredIds, List.mem_filter, mem_expiredIds, index_releaseAll]
  by_cases hids : id ∈ ids <;> simp [hids]

-- Releasing ids that a clean-up would release anyway does not change where it ends.
theorem purge_releaseAll (hnodup : ids.Nodup) (hids : ∀ id ∈ ids, id ∈ ledger.expiredIds time)
    : (ledger.releaseAll ids).purge time = ledger.purge time := by
  have hperm : (ids ++ (ledger.expiredIds time).filter fun id => id ∉ ids).Perm
      (ledger.expiredIds time) := by
    rw [List.perm_ext_iff_of_nodup _ nodup_expiredIds]
    . intro id
      rw [List.mem_append, List.mem_filter, decide_eq_true_eq]
      by_cases hmem : id ∈ ids
      . simp [hmem, hids id hmem]
      . simp [hmem]
    . rw [List.nodup_append]
      refine ⟨hnodup, nodup_expiredIds.filter _, ?_⟩
      rintro id hmem other hother rfl
      exact (of_decide_eq_true (List.mem_filter.mp hother).2) hmem
  rw [purge, releaseAll_perm (expiredIds_releaseAll ids), purge, ← releaseAll_perm hperm]
  exact (List.foldl_append ..).symm

theorem charge_releaseAll {first : Bytes} (hfirst : first ∉ ids)
    : (ids.map (ledger.release first).charge) = ids.map ledger.charge := by
  apply List.map_congr_left
  intro id hid
  exact charge_release fun heq => hfirst (heq ▸ hid)

end

end Ledger

section

variable {maxNotes maxBytes : Nat} {ledger : Ledger}

theorem Balanced.total_releaseAll {ids : List Bytes} (h : Balanced maxNotes maxBytes ledger)
    (hnodup : ids.Nodup)
    : (ledger.releaseAll ids).total.getD 0 + (ids.map ledger.charge).sum = ledger.total.getD 0 := by
  induction ids generalizing ledger with
  | nil => rfl
  | cons id ids ih =>
    rw [List.nodup_cons] at hnodup
    have hrest := ih (h.release id) hnodup.2
    have hfirst := h.total_release id
    rw [Ledger.charge_releaseAll hnodup.1] at hrest
    rw [Ledger.releaseAll_cons, List.map_cons, List.sum_cons]
    omega

-- What one bounded reaping takes away, and what it leaves alone.
structure ReapedExactly (maxNotes maxBytes : Nat) (ledger : Ledger) (time limit : Nat)
    (ids : List Bytes) (ledger' : Ledger) : Prop where
  count : ids.length = min limit (FiniteMap.size (ledger.expired time))
  nodup : ids.Nodup
  expired : ∀ id ∈ ids, ∃ score ≤ time, ledger.index.lookup id = some score
  notes : ∀ id, ledger'.notes id = if id ∈ ids then none else ledger.notes id
  index : ∀ id, ledger'.index.lookup id = if id ∈ ids then none else ledger.index.lookup id
  charges : ∀ id, ledger'.charges.lookup id = if id ∈ ids then none else ledger.charges.lookup id
  charged : ∀ id ∈ ids, id ∈ ledger.charges
  total : ledger'.total.getD 0 + (ids.map ledger.charge).sum = ledger.total.getD 0
  unexpired : ∀ id score, ledger.index.lookup id = some score → time < score → id ∉ ids
  balanced : Balanced maxNotes maxBytes ledger'

theorem reapedExactly (h : Balanced maxNotes maxBytes ledger) (time limit : Nat)
    : ReapedExactly maxNotes maxBytes ledger time limit ((ledger.expiredIds time).take limit)
        (ledger.reap time limit) := by
  have hexpired : ∀ id ∈ (ledger.expiredIds time).take limit,
      ∃ score ≤ time, ledger.index.lookup id = some score :=
    fun id hmem => Ledger.mem_expiredIds.mp (List.mem_of_mem_take hmem)
  have hnodup : ((ledger.expiredIds time).take limit).Nodup :=
    Ledger.nodup_expiredIds.sublist (List.take_sublist _ _)
  exact {
    count := by rw [List.length_take, Ledger.length_expiredIds]
    nodup := hnodup
    expired := hexpired
    notes := fun _ => Ledger.notes_releaseAll _
    index := fun _ => Ledger.index_releaseAll _
    charges := fun _ => Ledger.charges_releaseAll _
    charged := by
      intro id hmem
      rcases hexpired id hmem with ⟨score, -, hscore⟩
      rw [← Finmap.mem_keys, h.ids, Finmap.mem_keys]
      exact Finmap.mem_of_lookup_eq_some hscore
    total := h.total_releaseAll hnodup
    unexpired := by
      intro id score hscore hlive hmem
      rcases hexpired id hmem with ⟨score', hle, hscore'⟩
      cases hscore.symm.trans hscore'
      omega
    balanced := h.reap time limit
  }

end

-- What may remove expired notes at one time: reapings, accesses and native expiry.
inductive Cleanup where
  | reap (limit : Nat)
  | access (command : Access)
  | expire (id : Bytes)

namespace Cleanup

def step (now : Nat) (keys : Keyspace Key) : Cleanup → Keyspace Key
  | reap limit =>
    ((reapNotes .notes .charges .bytes (now / 1000) limit).run { now, denied := allowAll } keys).2
  | access command =>
    ((Lua.access command.id command.hash command.operation).run { now, denied := allowAll } keys).2
  | expire id => keys.expire now (.note id)

def run (now : Nat) (keys : Keyspace Key) (cleanups : List Cleanup) : Keyspace Key :=
  cleanups.foldl (fun keys cleanup => cleanup.step now keys) keys

def limit : Cleanup → Nat
  | reap limit => limit
  | access _ => 0
  | expire _ => 0

-- An access of the cleanup meets no unexpired note.
def Stale (ledger : Ledger) (time : Nat) : Cleanup → Prop
  | access command => ∀ score, ledger.index.lookup command.id = some score → score ≤ time
  | _ => True

end Cleanup

theorem run_reapNotes_allowed (env : Environment Site) (hdenied : ∀ site, env.denied site = false)
    (ledger : Ledger) (time limit : Nat)
    : (reapNotes .notes .charges .bytes time limit).run env ledger.keyspace
        = (some (), (ledger.reap time limit).keyspace) := by
  rcases run_reapNotes env ledger time limit with ⟨outcome, ledger', hrun, hreaped⟩
  rcases hreaped.exact (allowsRelease_of_undenied hdenied) with ⟨rfl, rfl⟩
  exact hrun

-- What a clean-up from `ledger` to `ledger'` has done so far.
structure Cleaned (maxNotes maxBytes : Nat) (ledger : Ledger) (time limit : Nat) (ledger' : Ledger)
    : Prop where
  balanced : Balanced maxNotes maxBytes ledger'
  purge : ledger'.purge time = ledger.purge time
  left : (ledger'.expiredIds time).length ≤ (ledger.expiredIds time).length - limit
  index : ∀ id score, ledger'.index.lookup id = some score → ledger.index.lookup id = some score

namespace Cleaned

variable {maxNotes maxBytes time : Nat} {ledger : Ledger}

theorem refl (h : Balanced maxNotes maxBytes ledger)
    : Cleaned maxNotes maxBytes ledger time 0 ledger where
  balanced := h
  purge := rfl
  left := le_rfl
  index _ _ hscore := hscore

theorem releaseAll (h : Balanced maxNotes maxBytes ledger) {ids : List Bytes} (hnodup : ids.Nodup)
    (hids : ∀ id ∈ ids, id ∈ ledger.expiredIds time)
    : Cleaned maxNotes maxBytes ledger time ids.length (ledger.releaseAll ids) where
  balanced := h.releaseAll ids
  purge := Ledger.purge_releaseAll hnodup hids
  left := by
    have hsplit : ((ledger.expiredIds time).filter fun id => id ∈ ids).length
        + ((ledger.expiredIds time).filter fun id => id ∉ ids).length
          = (ledger.expiredIds time).length := by
      simpa using (List.length_eq_length_filter_add (l := ledger.expiredIds time)
        fun id => decide (id ∈ ids)).symm
    have hsub : ids.length ≤ ((ledger.expiredIds time).filter fun id => id ∈ ids).length := by
      apply (List.subperm_of_subset hnodup _).length_le
      intro id hmem
      simp [hids id hmem, hmem]
    rw [(Ledger.expiredIds_releaseAll ids).length_eq]
    omega
  index id score hscore := by
    rw [Ledger.index_releaseAll] at hscore
    split at hscore
    . cases hscore
    . exact hscore

theorem reap (h : Balanced maxNotes maxBytes ledger) (limit : Nat)
    : Cleaned maxNotes maxBytes ledger time limit (ledger.reap time limit) := by
  have hcleaned := releaseAll h (Ledger.nodup_expiredIds.sublist (List.take_sublist limit _))
    fun id hmem => List.mem_of_mem_take (l := ledger.expiredIds time) hmem
  have hleft := hcleaned.left
  rw [List.length_take] at hleft
  exact { hcleaned with left := by rw [Ledger.reap_eq]; omega }

theorem forget (h : Balanced maxNotes maxBytes ledger) {id : Bytes}
    (hexpired : id ∈ ledger.expiredIds time)
    : Cleaned maxNotes maxBytes ledger time 0 (ledger.setNote id none) where
  balanced := h.of_fewer (fun other => by
    by_cases hother : other = id
    . exact .inr (by simp [Ledger.setNote, hother])
    . exact .inl (Function.update_of_ne hother _ _)) rfl rfl rfl
  purge := by
    have hperm := List.perm_cons_erase hexpired
    have hforgotten : (ledger.setNote id none).release id = ledger.release id := by
      have hnotes : Function.update (Function.update ledger.notes id none) id none
          = Function.update ledger.notes id none :=
        Function.update_idem _ _ _
      exact Ledger.mk.injEq .. ▸ ⟨hnotes, rfl, rfl, rfl, rfl, rfl, rfl⟩
    have hids : (ledger.setNote id none).expiredIds time = ledger.expiredIds time := rfl
    rw [Ledger.purge, Ledger.purge, hids, Ledger.releaseAll_perm hperm, Ledger.releaseAll_perm hperm,
      Ledger.releaseAll_cons, Ledger.releaseAll_cons, hforgotten]
  left := le_rfl
  index _ _ hscore := hscore

theorem mono {ledger' : Ledger} {limit limit' : Nat} (hle : limit' ≤ limit)
    (h : Cleaned maxNotes maxBytes ledger time limit ledger')
    : Cleaned maxNotes maxBytes ledger time limit' ledger' := by
  have hleft := h.left
  exact { h with left := by omega }

theorem trans {ledger' ledger'' : Ledger} {limit limit' : Nat}
    (h : Cleaned maxNotes maxBytes ledger time limit ledger')
    (h' : Cleaned maxNotes maxBytes ledger' time limit' ledger'')
    : Cleaned maxNotes maxBytes ledger time (limit + limit') ledger'' where
  balanced := h'.balanced
  purge := h'.purge.trans h.purge
  left := by
    have hleft := h.left
    have hleft' := h'.left
    omega
  index id score hscore := h.index id score (h'.index id score hscore)

end Cleaned

-- The note of an id in the index expires at its score.
theorem Balanced.mem_expiredIds {maxNotes maxBytes time : Nat} {ledger : Ledger} {id : Bytes}
    {note : Note} (h : Balanced maxNotes maxBytes ledger) (hnote : ledger.notes id = some note)
    (hexpired : note.expires ≤ time) : id ∈ ledger.expiredIds time :=
  Ledger.mem_expiredIds.mpr ⟨note.expires, hexpired, (h.note id note hnote).index⟩

theorem Cleanup.step_cleaned {maxNotes maxBytes : Nat} {ledger : Ledger}
    (h : Balanced maxNotes maxBytes ledger) (now : Nat) (cleanup : Cleanup)
    (hstale : cleanup.Stale ledger (now / 1000))
    : ∃ ledger', cleanup.step now ledger.keyspace = ledger'.keyspace
        ∧ Cleaned maxNotes maxBytes ledger (now / 1000) cleanup.limit ledger' := by
  cases cleanup with
  | reap limit =>
    refine ⟨_, ?_, .reap h limit⟩
    rw [Cleanup.step, run_reapNotes_allowed _ fun _ => rfl]
  | access command =>
    rcases run_access { now, denied := allowAll } ledger command.id command.hash command.operation
      with ⟨reply, ledger', hrun, haccessed⟩
    refine ⟨ledger', by rw [Cleanup.step, hrun], ?_⟩
    rw [(haccessed.eq_judge fun _ => rfl).2]
    cases hnote : ledger.notes command.id with
    | none => exact .refl h
    | some note =>
      have hexpired := hstale note.expires (h.note _ _ hnote).index
      simp only [judge, hexpired, if_true]
      have hmem : ∀ id ∈ [command.id], id ∈ ledger.expiredIds (now / 1000) := by
        simpa using h.mem_expiredIds hnote hexpired
      exact (Cleaned.releaseAll h (List.nodup_singleton _) hmem).mono (Nat.zero_le _)
  | expire id =>
    refine ⟨ledger.expire now (.note id), ledger.keyspace_expire now (.note id), ?_⟩
    rw [Ledger.expire]
    split
    . next hpast =>
      rcases Entry.isPast_iff.mp hpast with ⟨deadline, hdeadline, hle⟩
      rcases Option.bind_eq_some_iff.mp hdeadline with ⟨note, hnote, hnative⟩
      rw [(h.note id note hnote).native] at hnative
      cases hnative
      exact .forget h (h.mem_expiredIds hnote (by omega))
    . exact .refl h

theorem Cleanup.run_cleaned {maxNotes maxBytes : Nat} {ledger : Ledger}
    (h : Balanced maxNotes maxBytes ledger) (now : Nat) {cleanups : List Cleanup}
    (hstale : ∀ cleanup ∈ cleanups, cleanup.Stale ledger (now / 1000))
    : ∃ ledger', Cleanup.run now ledger.keyspace cleanups = ledger'.keyspace
        ∧ Cleaned maxNotes maxBytes ledger (now / 1000) (cleanups.map Cleanup.limit).sum ledger' := by
  induction cleanups generalizing ledger with
  | nil => exact ⟨ledger, rfl, .refl h⟩
  | cons cleanup cleanups ih =>
    rcases cleanup.step_cleaned h now (hstale cleanup List.mem_cons_self) with ⟨next, hstep, hnext⟩
    have hrest : ∀ other ∈ cleanups, other.Stale next (now / 1000) := by
      intro other hmem
      have hother := hstale other (List.mem_cons_of_mem _ hmem)
      cases other with
      | access command => exact fun score hscore => hother score (hnext.index _ _ hscore)
      | reap limit => trivial
      | expire id => trivial
    rcases ih hnext.balanced hrest with ⟨last, hrun, hlast⟩
    refine ⟨last, ?_, hnext.trans hlast⟩
    rw [Cleanup.run, List.foldl_cons, hstep]
    exact hrun

-- A clean-up that has reaped enough ends at the purged ledger, whatever it was interleaved with.
theorem Cleanup.run_purges {maxNotes maxBytes : Nat} {ledger : Ledger}
    (h : Balanced maxNotes maxBytes ledger) (now : Nat) {cleanups : List Cleanup}
    (hstale : ∀ cleanup ∈ cleanups, cleanup.Stale ledger (now / 1000))
    (hlimit : FiniteMap.size (ledger.expired (now / 1000)) ≤ (cleanups.map Cleanup.limit).sum)
    : Cleanup.run now ledger.keyspace cleanups = (ledger.purge (now / 1000)).keyspace := by
  rcases Cleanup.run_cleaned h now hstale with ⟨last, hrun, hcleaned⟩
  have hleft := hcleaned.left
  rw [← Ledger.length_expiredIds] at hlimit
  rw [Nat.sub_eq_zero_of_le hlimit, Nat.le_zero, List.length_eq_zero_iff] at hleft
  rw [hrun, ← hcleaned.purge, Ledger.purge, hleft]
  rfl

theorem reaping_exact_and_confluent {maxNotes maxBytes : Nat} {ledger : Ledger}
    (h : Balanced maxNotes maxBytes ledger)
    : (∀ now time limit, (reapNotes .notes .charges .bytes time limit).run
            { now, denied := allowAll } ledger.keyspace = (some (), (ledger.reap time limit).keyspace)
          ∧ ReapedExactly maxNotes maxBytes ledger time limit ((ledger.expiredIds time).take limit)
            (ledger.reap time limit))
      ∧ (∀ now limit, 1 ≤ limit →
        Cleanup.run now ledger.keyspace
            (List.replicate ((FiniteMap.size (ledger.expired (now / 1000)) + limit - 1) / limit)
              (.reap limit))
          = (ledger.purge (now / 1000)).keyspace)
      ∧ (∀ time, Balanced maxNotes maxBytes (ledger.purge time)
          ∧ (∀ limit, (ledger.purge time).reap time limit = ledger.purge time)
          ∧ (∀ id score, (ledger.purge time).index.lookup id = some score → time < score)
          ∧ (ledger.purge time).total.getD 0 = FiniteMap.total (ledger.purge time).charges)
      ∧ ∀ (now : Nat) (cleanups : List Cleanup),
        (∀ cleanup ∈ cleanups, cleanup.Stale ledger (now / 1000))
        → FiniteMap.size (ledger.expired (now / 1000)) ≤ (cleanups.map Cleanup.limit).sum
        → Cleanup.run now ledger.keyspace cleanups = (ledger.purge (now / 1000)).keyspace := by
  refine ⟨fun now time limit => ⟨run_reapNotes_allowed _ (fun _ => rfl) _ _ _,
    reapedExactly h time limit⟩, fun now limit hpos => ?_, fun time => ?_,
    fun now cleanups hstale hlimit => Cleanup.run_purges h now hstale hlimit⟩
  . apply Cleanup.run_purges h now
    . intro cleanup hmem
      rw [List.eq_of_mem_replicate hmem]
      trivial
    . have hceil := Nat.lt_div_mul_add
        (a := FiniteMap.size (ledger.expired (now / 1000)) + limit - 1) hpos
      have hsum : ∀ n, ((List.replicate n (Cleanup.reap limit)).map Cleanup.limit).sum = n * limit := by
        simp [Cleanup.limit]
      rw [hsum]
      omega
  . have hbalanced : Balanced maxNotes maxBytes (ledger.purge time) := h.releaseAll _
    have hnone : (ledger.purge time).expiredIds time = [] := by
      have hperm : ((ledger.purge time).expiredIds time).Perm
          ((ledger.expiredIds time).filter fun id => id ∉ ledger.expiredIds time) :=
        Ledger.expiredIds_releaseAll _
      rw [List.filter_eq_nil_iff.mpr (by simp)] at hperm
      exact hperm.eq_nil
    refine ⟨hbalanced, fun limit => ?_, fun id score hscore => ?_, hbalanced.total⟩
    . rw [Ledger.reap_eq, hnone, List.take_nil]
      rfl
    . by_contra hle
      have hmem := Ledger.mem_expiredIds.mpr ⟨score, Nat.not_lt.mp hle, hscore⟩
      rw [hnone] at hmem
      cases hmem

theorem reaping_exact_and_confluent_exampleUploads
    : ∃ ledger : Ledger, ((Cache.empty 0).run exampleUploads).1.keys = ledger.keyspace
        ∧ Cleanup.run 60000 ledger.keyspace
            (List.replicate ((FiniteMap.size (ledger.expired 60) + 128 - 1) / 128) (.reap 128))
          = (ledger.purge 60).keyspace := by
  rcases run_balanced Prod.mk.eta.symm honest_exampleUploads with ⟨ledger, hkeys, hbalanced⟩
  exact ⟨ledger, hkeys, (reaping_exact_and_confluent hbalanced).2.1 60000 128 (by decide)⟩

end Store
