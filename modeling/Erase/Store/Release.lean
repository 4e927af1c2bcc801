import Erase.Store.Ledger

namespace Store

open Server Server.Lua Valkey Script

def Ledger.charge (ledger : Ledger) (id : Bytes) : Nat := (ledger.charges.lookup id).getD 0

def Ledger.release (ledger : Ledger) (id : Bytes) : Ledger :=
  { ledger with
    notes := Function.update ledger.notes id none
    index := ledger.index.erase id
    charges := ledger.charges.erase id
    total := if ledger.charge id > 0 then some (ledger.total.getD 0 - ledger.charge id)
      else ledger.total }

def Ledger.releaseAll (ledger : Ledger) (ids : List Bytes) : Ledger := ids.foldl Ledger.release ledger

def Ledger.reap (ledger : Ledger) (time limit : Nat) : Ledger :=
  ledger.releaseAll (SortedSet.upTo ledger.index time limit)

-- No write of `releaseNote` is refused.
def AllowsRelease (env : Environment Site) : Prop :=
  ∀ id, env.denied (.releaseNote id) = false ∧ env.denied (.releaseIndex id) = false
    ∧ env.denied (.releaseCharge id) = false ∧ env.denied (.releaseTotal id) = false

-- What any prefix of a release can do.
structure Shrinks (ledger ledger' : Ledger) : Prop where
  notes : ∀ id, ledger'.notes id = ledger.notes id ∨ ledger'.notes id = none
  index : ∀ id, ledger'.notes id ≠ none → ledger'.index.lookup id = ledger.index.lookup id
  leases : ledger'.leases = ledger.leases
  spent : ledger'.spent = ledger.spent
  challenges : ledger'.challenges = ledger.challenges

namespace Shrinks

variable {ledger ledger' ledger'' : Ledger}

theorem refl (ledger : Ledger) : Shrinks ledger ledger where
  notes _ := .inl rfl
  index _ _ := rfl
  leases := rfl
  spent := rfl
  challenges := rfl

theorem trans (h : Shrinks ledger ledger') (h' : Shrinks ledger' ledger'')
    : Shrinks ledger ledger'' where
  notes id := by
    rcases h'.notes id with heq | hnone
    . rw [heq]
      exact h.notes id
    . exact .inr hnone
  index id hkept := by
    have hsame := (h'.notes id).resolve_right hkept
    rw [h'.index id hkept, h.index id (hsame ▸ hkept)]
  leases := h'.leases.trans h.leases
  spent := h'.spent.trans h.spent
  challenges := h'.challenges.trans h.challenges

theorem of_drop {id : Bytes} (hnotes : ledger'.notes = Function.update ledger.notes id none)
    (hindex : ledger'.index = ledger.index ∨ ledger'.index = ledger.index.erase id)
    (hleases : ledger'.leases = ledger.leases) (hspent : ledger'.spent = ledger.spent)
    (hchallenges : ledger'.challenges = ledger.challenges) : Shrinks ledger ledger' where
  notes other := by
    rw [hnotes]
    by_cases h : other = id
    . exact .inr (by simp [h])
    . exact .inl (Function.update_of_ne h _ _)
  index other hkept := by
    have hne : other ≠ id := by
      rintro rfl
      simp [hnotes] at hkept
    rcases hindex with heq | heq
    . rw [heq]
    . rw [heq, Finmap.lookup_erase_ne hne]
  leases := hleases
  spent := hspent
  challenges := hchallenges

end Shrinks

structure Released (env : Environment Site) (ledger : Ledger) (id : Bytes) (outcome : Option Unit)
    (ledger' : Ledger) : Prop where
  shrinks : Shrinks ledger ledger'
  frame : ∀ other, other ≠ id → ledger'.notes other = ledger.notes other
  gone : outcome = some () → ledger'.notes id = none
  exact : AllowsRelease env → outcome = some () ∧ ledger' = ledger.release id

structure Reaped (env : Environment Site) (ledger : Ledger) (time limit : Nat)
    (outcome : Option Unit) (ledger' : Ledger) : Prop where
  shrinks : Shrinks ledger ledger'
  frame : ∀ id, id ∉ SortedSet.upTo ledger.index time limit → ledger'.notes id = ledger.notes id
  exact : AllowsRelease env → outcome = some () ∧ ledger' = ledger.reap time limit

theorem tonumber_getD (value : Option Nat)
    : tonumber ((value.map tostring).getD zero) = some (value.getD 0) := by
  cases value with
  | none => decide
  | some n => exact Decimal.parse?_print n

theorem run_releaseNote (env : Environment Site) (ledger : Ledger) (id : Bytes)
    : ∃ outcome ledger', (releaseNote (.note id) id .notes .charges .bytes).run env ledger.keyspace
          = (outcome, ledger'.keyspace)
        ∧ Released env ledger id outcome ledger' := by
  have htonumber : tonumber (((ledger.charges.lookup id).map tostring).getD zero)
      = some (ledger.charge id) :=
    tonumber_getD _
  unfold releaseNote
  rw [bind_of_some _ (run_call (hget_charges ledger)), bind_of_some _ (run_call (get_bytes ledger)),
    htonumber, tonumber_getD]
  have hframe : ∀ other, other ≠ id → (ledger.setNote id none).notes other = ledger.notes other :=
    fun other h => Function.update_of_ne h _ _
  have hgone : (ledger.setNote id none).notes id = none := Function.update_self _ _ _
  cases hsite : env.denied (.releaseNote id) with
  | true =>
    rw [bind_of_none _ (run_call_denied hsite)]
    exact ⟨none, ledger, rfl, .refl ledger, fun _ _ => rfl, nofun, fun h => by
      simp [(h id).1] at hsite⟩
  | false =>
  rw [bind_of_some _ (run_call_allowed hsite (del_note ledger))]
  cases hsite : env.denied (.releaseIndex id) with
  | true =>
    rw [bind_of_none _ (run_call_denied hsite)]
    exact ⟨none, _, rfl, .of_drop rfl (.inl rfl) rfl rfl rfl, hframe, nofun, fun h => by
      simp [(h id).2.1] at hsite⟩
  | false =>
  rw [bind_of_some _ (run_call_allowed hsite (zrem_notes _))]
  cases hsite : env.denied (.releaseCharge id) with
  | true =>
    rw [bind_of_none _ (run_call_denied hsite)]
    exact ⟨none, _, rfl, .of_drop rfl (.inr rfl) rfl rfl rfl, hframe, nofun, fun h => by
      simp [(h id).2.2.1] at hsite⟩
  | false =>
  rw [bind_of_some _ (run_call_allowed hsite (hdel_charges _)), bind_of_some _ (run_nonNil_some _)]
  by_cases hcharge : ledger.charge id > 0
  . rw [if_pos hcharge, bind_of_some _ (run_nonNil_some _)]
    cases hsite : env.denied (.releaseTotal id) with
    | true =>
      rw [run_call_denied hsite]
      exact ⟨none, _, rfl, .of_drop rfl (.inr rfl) rfl rfl rfl, hframe, nofun, fun h => by
        simp [(h id).2.2.2] at hsite⟩
    | false =>
    rw [run_call_allowed hsite (set_bytes _ _)]
    refine ⟨some (), _, rfl, .of_drop rfl (.inr rfl) rfl rfl rfl, hframe, fun _ => hgone, fun _ => ⟨rfl, ?_⟩⟩
    have hleft : (max 0 ((ledger.total.getD 0 : Int) - (ledger.charge id : Int))).toNat
        = ledger.total.getD 0 - ledger.charge id := by omega
    simp only [Ledger.release, if_pos hcharge, ← hleft]
    rfl
  . rw [if_neg hcharge]
    refine ⟨some (), _, rfl, .of_drop rfl (.inr rfl) rfl rfl rfl, hframe, fun _ => hgone, fun _ => ⟨rfl, ?_⟩⟩
    simp only [Ledger.release, if_neg hcharge]
    rfl

theorem run_releaseAll (env : Environment Site) (ids : List Bytes) (ledger : Ledger)
    : ∃ outcome ledger',
        (ids.forM fun id => releaseNote (.note id) id .notes .charges .bytes).run env
            ledger.keyspace = (outcome, ledger'.keyspace)
        ∧ Shrinks ledger ledger'
        ∧ (∀ id, id ∉ ids → ledger'.notes id = ledger.notes id)
        ∧ (AllowsRelease env → outcome = some () ∧ ledger' = ledger.releaseAll ids) := by
  induction ids generalizing ledger with
  | nil => exact ⟨some (), ledger, rfl, .refl ledger, fun _ _ => rfl, fun _ => ⟨rfl, rfl⟩⟩
  | cons id ids ih =>
    rcases run_releaseNote env ledger id with ⟨outcome, ledger', hrun, hreleased⟩
    rw [List.forM_eq_forM, List.forM_cons]
    cases outcome with
    | none =>
      rw [bind_of_none _ hrun]
      refine ⟨none, ledger', rfl, hreleased.shrinks, fun other hother => ?_, fun h => ?_⟩
      . exact hreleased.frame other (List.ne_of_not_mem_cons hother)
      . exact nomatch (hreleased.exact h).1
    | some _ =>
      rw [bind_of_some _ hrun]
      rcases ih ledger' with ⟨outcome, ledger'', hrun', hshrinks, hframe, hexact⟩
      refine ⟨outcome, ledger'', hrun', hreleased.shrinks.trans hshrinks, fun other hother => ?_,
        fun h => ?_⟩
      . rw [hframe other (List.not_mem_of_not_mem_cons hother),
          hreleased.frame other (List.ne_of_not_mem_cons hother)]
      . rw [Ledger.releaseAll, List.foldl_cons, ← (hreleased.exact h).2]
        exact hexact h

theorem run_reapNotes (env : Environment Site) (ledger : Ledger) (time limit : Nat)
    : ∃ outcome ledger', (reapNotes .notes .charges .bytes time limit).run env ledger.keyspace
          = (outcome, ledger'.keyspace)
        ∧ Reaped env ledger time limit outcome ledger' := by
  rcases run_releaseAll env (SortedSet.upTo ledger.index time limit) ledger
    with ⟨outcome, ledger', hrun, hshrinks, hframe, hexact⟩
  rw [reapNotes, bind_of_some _ (run_call (zrangebyscore_notes ledger time limit))]
  exact ⟨outcome, ledger', hrun, hshrinks, hframe, hexact⟩

end Store
