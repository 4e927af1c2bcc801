import Erase.Store.Accounting

namespace Store

open Server Server.Lua

-- The same logical state. A missing total counts as zero.
structure Unchanged (ledger ledger' : Ledger) : Prop where
  notes : ledger'.notes = ledger.notes
  index : ledger'.index = ledger.index
  charges : ledger'.charges = ledger.charges
  total : ledger'.total.getD 0 = ledger.total.getD 0
  leases : ledger'.leases = ledger.leases
  spent : ledger'.spent = ledger.spent
  challenges : ledger'.challenges = ledger.challenges

theorem Unchanged.refl (ledger : Ledger) : Unchanged ledger ledger where
  notes := rfl
  index := rfl
  charges := rfl
  total := rfl
  leases := rfl
  spent := rfl
  challenges := rfl

-- All the effects of a creation, over the ledger that reaping left.
structure Creates (env : Environment Site) (args : CreateArgs) (lease : Lease)
    (ledger ledger' : Ledger) : Prop where
  note : 1 ≤ args.ttl → ledger'.notes args.id = some {
    noteOf args (expiresOf env args) with expireAt := some (1000 * expiresOf env args) }
  charge : ledger'.charges.lookup args.id = some (chargeOf args)
  index : ledger'.index.lookup args.id = some (expiresOf env args)
  total : ledger'.total = some (ledger.total.getD 0 + chargeOf args)
  spent : ledger'.spent args.challenge = some (1000 * lease.expires)
  lease : ledger'.leases args.challenge = none

theorem creates_recorded (env : Environment Site) (ledger : Ledger) (args : CreateArgs)
    (lease : Lease)
    : Creates env args lease ledger (ledger.recorded env args (ledger.total.getD 0)
        (expiresOf env args) lease.expires) where
  note httl := by
    have hfuture : ¬1000 * expiresOf env args ≤ env.now := by
      unfold expiresOf
      omega
    simp only [Ledger.recorded, Function.update_self, Note.stamped, if_neg hfuture]
  charge := Finmap.lookup_insert _
  index := Finmap.lookup_insert _
  total := rfl
  spent := Function.update_self _ _ _
  lease := Function.update_self _ _ _

theorem unchanged_rolledBack {maxNotes maxBytes : Nat} {ledger : Ledger} {args : CreateArgs}
    (hbalanced : Balanced maxNotes maxBytes ledger) (hfree : Free ledger args.id)
    (hunspent : ledger.spent args.challenge = none)
    : Unchanged ledger (ledger.rolledBack args (ledger.total.getD 0)) where
  notes := by
    simp only [Ledger.rolledBack, ← hfree.note, Function.update_eq_self]
  index := by
    have hindex : args.id ∉ ledger.index := by
      rw [← Finmap.mem_keys, ← hbalanced.ids, Finmap.mem_keys]
      exact hfree.charge
    exact FiniteMap.erase_of_notMem hindex
  charges := FiniteMap.erase_of_notMem hfree.charge
  total := rfl
  leases := rfl
  spent := by
    simp only [Ledger.rolledBack, ← hunspent, Function.update_eq_self]
  challenges := rfl

-- The guarded writes of the creation itself may be refused, the reaping before it may not.
theorem create_all_or_nothing {maxNotes maxBytes : Nat} {env : Environment Site} {ledger : Ledger}
    (hbalanced : Balanced maxNotes maxBytes ledger) (hallowed : AllowsRelease env)
    (args : CreateArgs)
    : ∃ reply ledger' reaped, (create args).run env ledger.keyspace = (some reply, ledger'.keyspace)
        ∧ (reaped = ledger ∨ reaped = ledger.reap (env.now / 1000) 128)
        ∧ ((∀ parts, reply ≠ .ok parts)
            → Unchanged reaped ledger' ∧ ledger'.leases = ledger.leases
              ∧ ∀ lease, Proven env ledger args.challenge lease
                  → Proven env ledger' args.challenge lease)
        ∧ (∀ parts, reply = .ok parts
            → ∃ lease, Proven env ledger args.challenge lease
              ∧ Creates env args lease reaped ledger') := by
  rcases run_create env ledger args with ⟨reply, ledger', hrun, hcreated⟩
  rw [hrun]
  cases hcreated with
  | reused =>
    exact ⟨_, _, ledger, rfl, .inl rfl, fun _ => ⟨.refl _, rfl, fun _ h => h⟩, nofun⟩
  | unproven =>
    exact ⟨_, _, ledger, rfl, .inl rfl, fun _ => ⟨.refl _, rfl, fun _ h => h⟩, nofun⟩
  | aborted _ hreaped => cases (hreaped.exact hallowed).1
  | conflict _ hreaped =>
    exact ⟨_, _, ledger', rfl, .inr (hreaped.exact hallowed).2, fun _ => ⟨.refl _,
      hreaped.shrinks.leases, fun _ h => h.congr hreaped.shrinks.leases hreaped.shrinks.spent⟩, nofun⟩
  | full _ hreaped =>
    exact ⟨_, _, ledger', rfl, .inr (hreaped.exact hallowed).2, fun _ => ⟨.refl _,
      hreaped.shrinks.leases, fun _ h => h.congr hreaped.shrinks.leases hreaped.shrinks.spent⟩, nofun⟩
  | @rolledBack lease reaped hproven hreaped hfree =>
    have hreap := (hreaped.exact hallowed).2
    have hunspent := hreaped.shrinks.spent ▸ hproven.unspent
    have hunchanged := unchanged_rolledBack (hreap ▸ hbalanced.reap _ _) hfree hunspent
    have hleases := hunchanged.leases.trans hreaped.shrinks.leases
    have hspent := hunchanged.spent.trans hreaped.shrinks.spent
    exact ⟨_, _, reaped, rfl, .inr hreap,
      fun _ => ⟨hunchanged, hleases, fun _ h => h.congr hleases hspent⟩, nofun⟩
  | @recorded lease reaped hproven hreaped =>
    refine ⟨_, _, reaped, rfl, .inr (hreaped.exact hallowed).2, fun h => absurd rfl (h _),
      fun _ _ => ?_⟩
    exact ⟨lease, hproven, creates_recorded env reaped args lease⟩

def exampleLeased : Ledger :=
  Ledger.empty.setLease [7] (some { expires := 420, bits := 18, expireAt := 420000 })

-- A note that is due as soon as it is written. `Store::create` always asks for at least a minute.
def exampleExpired : CreateArgs where
  id := [1]
  packet := [2]
  header := [3]
  peek := [4]
  read := [5]
  revoke := [6]
  ttl := 0
  views := 1
  maxNotes := 1
  maxBytes := 4096
  challenge := [7]

theorem balanced_exampleLeased (maxNotes maxBytes : Nat) : Balanced maxNotes maxBytes exampleLeased :=
  (balanced_empty maxNotes maxBytes).of_fewer (fun _ => .inl rfl) rfl rfl rfl

-- EXPIREAT answers 1 for a deadline that is not in the future, and deletes the key.
theorem creates_no_note_exampleExpired
    : Balanced 1 4096 exampleLeased ∧ AllowsRelease ⟨0, allowAll⟩ ∧ ¬RefusesRecord ⟨0, allowAll⟩
        ∧ ∃ ledger' : Ledger, (create exampleExpired).run ⟨0, allowAll⟩ exampleLeased.keyspace
            = (some (.ok [tostring 0]), ledger'.keyspace)
          ∧ ledger'.notes exampleExpired.id = none
          ∧ ledger'.charges.lookup exampleExpired.id = some (chargeOf exampleExpired)
          ∧ ledger'.index.lookup exampleExpired.id = some 0
          ∧ ledger'.total = some (chargeOf exampleExpired)
          ∧ ledger'.spent exampleExpired.challenge ≠ none
          ∧ ledger'.leases exampleExpired.challenge = none := by
  have hallowed : AllowsRelease ⟨0, allowAll⟩ := fun _ => ⟨rfl, rfl, rfl, rfl⟩
  have hrefused : ¬RefusesRecord ⟨0, allowAll⟩ := by simp [RefusesRecord, allowAll]
  have hproven : Proven ⟨0, allowAll⟩ exampleLeased [7]
      { expires := 420, bits := 18, expireAt := 420000 } :=
    { unspent := rfl, leased := rfl, live := by decide }
  refine ⟨balanced_exampleLeased 1 4096, hallowed, hrefused, ?_⟩
  rcases run_create ⟨0, allowAll⟩ exampleLeased exampleExpired with ⟨reply, ledger', hrun, hcreated⟩
  have hreap : exampleLeased.reap 0 128 = exampleLeased := rfl
  cases hcreated with
  | reused hspent => exact absurd rfl hspent
  | unproven _ hinvalid => exact absurd hproven (hinvalid _)
  | aborted _ hreaped => cases (hreaped.exact hallowed).1
  | conflict _ hreaped htaken =>
    rw [(hreaped.exact hallowed).2] at htaken
    exact absurd ⟨rfl, by decide⟩ htaken
  | full _ hreaped _ hfull =>
    rw [(hreaped.exact hallowed).2] at hfull
    exact absurd ⟨by decide, by decide⟩ hfull
  | rolledBack _ _ _ _ hrefuses => exact absurd hrefuses hrefused
  | @recorded lease reaped _ hreaped =>
    have hsame := (hreaped.exact hallowed).2
    rw [Nat.zero_div, hreap] at hsame
    cases hsame
    have hcreates := creates_recorded ⟨0, allowAll⟩ exampleLeased exampleExpired lease
    refine ⟨_, hrun, ?_, hcreates.charge, hcreates.index, hcreates.total, ?_, hcreates.lease⟩
    . simp [Ledger.recorded, Note.stamped, expiresOf, exampleExpired]
    . rw [hcreates.spent]
      exact Option.some_ne_none _

def refuseExpiry : Environment Site where
  now := 0
  denied site := site = .expiry

theorem create_all_or_nothing_refuseExpiry
    : ∃ reply, ∃ ledger' : Ledger, (create (createArgs .new exampleUpload [7])).run refuseExpiry
          exampleLeased.keyspace = (some reply, ledger'.keyspace)
        ∧ ((∀ parts, reply ≠ .ok parts) → ledger'.leases [7] = exampleLeased.leases [7]) := by
  have hallowed : AllowsRelease refuseExpiry := fun _ => by simp [refuseExpiry]
  rcases create_all_or_nothing (balanced_exampleLeased 0 0) hallowed (createArgs .new exampleUpload [7])
    with ⟨reply, ledger', _, hrun, -, hrefused, -⟩
  exact ⟨reply, ledger', hrun, fun h => congrFun (hrefused h).2.1 [7]⟩

end Store
