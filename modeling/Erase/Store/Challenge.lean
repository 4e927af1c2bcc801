import Erase.Store.Create

namespace Store

open Server Server.Lua Valkey Script

def Ledger.swept (ledger : Ledger) (time : Nat) : Ledger :=
  ledger.setChallenges (ledger.challenges.filterValues fun score => !(score ≤ time : Bool))

inductive Inspected (env : Environment Site) (ledger : Ledger) (token : Bytes) : Reply → Prop where
  | reused (hspent : ledger.spent token ≠ none) : Inspected env ledger token .proofReused
  | unproven (hunspent : ledger.spent token = none)
      (hinvalid : ∀ lease, ¬Proven env ledger token lease)
    : Inspected env ledger token .proofInvalid
  | proven {lease} (hproven : Proven env ledger token lease)
    : Inspected env ledger token (.ok [tostring lease.bits])

theorem run_inspectProof (env : Environment Site) (ledger : Ledger) (token : Bytes)
    : ∃ reply, (inspectProof token).run env ledger.keyspace = (some reply, ledger.keyspace)
        ∧ Inspected env ledger token reply := by
  unfold inspectProof
  rw [bind_of_some _ (run_call (isPresent_spent ledger))]
  cases hspent : ledger.spent token with
  | some deadline =>
    rw [if_pos (by simp)]
    exact ⟨_, rfl, .reused (by simp [hspent])⟩
  | none =>
  rw [if_neg (by simp), bind_of_some _ (run_call (get_challenge ledger))]
  cases hlease : ledger.leases token with
  | none =>
    refine ⟨_, rfl, .unproven hspent fun lease hproven => ?_⟩
    rw [hproven.leased] at hlease
    cases hlease
  | some lease =>
  have hexpires : tonumber (tostring lease.expires) = some lease.expires := Decimal.parse?_print _
  rw [Option.map_some]
  dsimp only
  rw [lease.matchLease_value]
  dsimp only
  rw [hexpires, bind_of_some _ (run_nonNil_some _), bind_of_some _ run_nowSeconds]
  by_cases hlive : lease.expires ≤ env.now / 1000
  . rw [if_pos hlive]
    refine ⟨_, rfl, .unproven hspent fun lease' hproven => ?_⟩
    have hsame : lease = lease' := Option.some.inj (hlease.symm.trans hproven.leased)
    have hlive' := hproven.live
    rw [← hsame] at hlive'
    omega
  . rw [if_neg hlive]
    exact ⟨_, rfl, .proven ⟨hspent, hlease, Nat.not_le.mp hlive⟩⟩

-- Every way an issue script ends. A lease that could not be indexed is deleted again.
inductive Issued (env : Environment Site) (ledger : Ledger) (token : Bytes)
    (bits lifetime cap : Nat) : Option Reply → Ledger → Prop where
  | aborted (hsite : env.denied .sweep = true) : Issued env ledger token bits lifetime cap none ledger
  | refused : Issued env ledger token bits lifetime cap (some .capacity) (ledger.swept (env.now / 1000))
  | issued (hroom : FiniteMap.size (ledger.swept (env.now / 1000)).challenges < cap)
      (hnew : ledger.leases token = none) (hlifetime : lifetime ≠ 0)
    : Issued env ledger token bits lifetime cap
        (some (.ok [tostring (env.now / 1000 + lifetime)]))
        (((ledger.swept (env.now / 1000)).setLease token (some {
            expires := env.now / 1000 + lifetime, bits, expireAt := env.now + 1000 * lifetime
          })).setChallenges ((ledger.swept (env.now / 1000)).challenges.insert token
            (env.now / 1000 + lifetime)))

theorem run_issue (env : Environment Site) (ledger : Ledger) (token : Bytes)
    (bits lifetime cap : Nat)
    : ∃ reply ledger', (issue token bits lifetime cap).run env ledger.keyspace
          = (reply, ledger'.keyspace)
        ∧ Issued env ledger token bits lifetime cap reply ledger' := by
  unfold issue
  rw [bind_of_some _ (isType_challenges ledger), if_neg (by decide), bind_of_some _ run_nowSeconds]
  cases hsweep : env.denied .sweep with
  | true =>
    rw [bind_of_none _ (run_call_denied hsweep)]
    exact ⟨none, ledger, rfl, .aborted hsweep⟩
  | false =>
  rw [bind_of_some _ (run_call_allowed hsweep (zremrangebyscore_challenges ledger _)),
    ← Ledger.swept]
  have hkept : (ledger.swept (env.now / 1000)).leases token = ledger.leases token := rfl
  generalize hswept : ledger.swept (env.now / 1000) = swept at *
  rw [bind_of_some _ (run_call (zcard_challenges swept))]
  by_cases hfull : FiniteMap.size swept.challenges ≥ cap
  . rw [if_pos hfull]
    exact ⟨_, _, rfl, hswept ▸ .refused⟩
  rw [if_neg hfull]
  cases hlease : env.denied .issueLease with
  | true =>
    rw [bind_of_some _ (run_pcall_denied hlease), if_pos (by simp)]
    exact ⟨_, _, rfl, hswept ▸ .refused⟩
  | false =>
  by_cases hlifetime : lifetime = 0
  . have hzero : ∀ value, setNewEx (.challenge token) value lifetime env swept.keyspace = none :=
      fun value => if_pos hlifetime
    rw [bind_of_some _ (run_pcall_failed hlease (hzero _)), if_pos (by simp)]
    exact ⟨_, _, rfl, hswept ▸ .refused⟩
  cases hold : swept.leases token with
  | some old =>
    rw [bind_of_some _ (run_pcall_allowed hlease (setNewEx_challenge_taken swept hold hlifetime)),
      if_pos (by simp)]
    exact ⟨_, _, rfl, hswept ▸ .refused⟩
  | none =>
  rw [bind_of_some _ (run_pcall_allowed hlease (setNewEx_challenge swept hold hlifetime)),
    if_neg (not_not.mpr rfl)]
  cases hindex : env.denied .issueIndex with
  | true =>
    rw [bind_of_some _ (run_pcall_denied hindex), if_pos rfl,
      bind_of_some _ (run_call (del_challenge _))]
    have hundone : ∀ lease, (swept.setLease token lease).setLease token none = swept := fun lease => by
      have hself : Function.update swept.leases token none = swept.leases := by
        rw [← hold, Function.update_eq_self]
      simp [Ledger.setLease, hself]
    rw [hundone]
    exact ⟨_, _, rfl, hswept ▸ .refused⟩
  | false =>
    rw [bind_of_some _ (run_pcall_allowed hindex (zadd_challenges _ _)), if_neg (by simp)]
    refine ⟨_, _, rfl, ?_⟩
    subst hswept
    exact .issued (Nat.not_le.mp hfull) hold hlifetime

-- Every way a reap script ends.
inductive Swept (env : Environment Site) (ledger : Ledger) : Option Reply → Ledger → Prop where
  | aborted {outcome reaped} (hreaped : Reaped env ledger (env.now / 1000) 128 outcome reaped)
      (hrefused : ¬AllowsRelease env ∨ env.denied .sweep = true)
    : Swept env ledger none reaped
  | swept {reaped} (hreaped : Reaped env ledger (env.now / 1000) 128 (some ()) reaped)
      (hsite : env.denied .sweep = false)
    : Swept env ledger (some (.ok [])) (reaped.swept (env.now / 1000))

theorem run_reap (env : Environment Site) (ledger : Ledger)
    : ∃ reply ledger', reap.run env ledger.keyspace = (reply, ledger'.keyspace)
        ∧ Swept env ledger reply ledger' := by
  unfold reap
  rw [bind_of_some _ (ledgerTypes_keyspace ledger), bind_of_some _ (isType_challenges ledger),
    if_neg (by decide), bind_of_some _ run_nowSeconds]
  rcases run_reapNotes env ledger (env.now / 1000) 128 with ⟨outcome, reaped, hrun, hreaped⟩
  cases outcome with
  | none =>
    rw [bind_of_none _ hrun]
    exact ⟨none, reaped, rfl, .aborted hreaped (.inl fun h => nomatch (hreaped.exact h).1)⟩
  | some _ =>
  rw [bind_of_some _ hrun]
  cases hsweep : env.denied .sweep with
  | true =>
    rw [bind_of_none _ (run_call_denied hsweep)]
    exact ⟨none, reaped, rfl, .aborted hreaped (.inr hsweep)⟩
  | false =>
    rw [bind_of_some _ (run_call_allowed hsweep (zremrangebyscore_challenges reaped _))]
    exact ⟨_, _, rfl, .swept hreaped hsweep⟩

end Store
