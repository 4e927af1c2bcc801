import Erase.Store.Release

namespace Store

open Server Server.Lua Valkey Script

def noteOf (args : CreateArgs) (expires : Nat) : Note where
  packet := args.packet
  header := args.header
  peek := args.peek
  read := args.read
  revoke := args.revoke
  expires := expires
  remaining := args.views
  expireAt := none

theorem pairs_noteOf (args : CreateArgs) (expires : Nat)
    : (noteOf args expires).pairs = args.pairs expires :=
  rfl

def chargeOf (args : CreateArgs) : Nat := args.packet.length + args.header.length + 1024

namespace Ledger

def rolledBack (ledger : Ledger) (args : CreateArgs) (previous : Nat) : Ledger :=
  { ledger with
    notes := Function.update ledger.notes args.id none
    index := ledger.index.erase args.id
    charges := ledger.charges.erase args.id
    total := some previous
    spent := Function.update ledger.spent args.challenge none }

def recorded (ledger : Ledger) (env : Environment Site) (args : CreateArgs)
    (previous expires proofExpires : Nat) : Ledger where
  notes := Function.update ledger.notes args.id
    ((noteOf args expires).stamped env.now (1000 * expires))
  index := ledger.index.insert args.id expires
  charges := ledger.charges.insert args.id (chargeOf args)
  total := some (previous + chargeOf args)
  leases := Function.update ledger.leases args.challenge none
  spent := Function.update ledger.spent args.challenge (some (1000 * proofExpires))
  challenges :=
    if env.denied .challengeIndex then ledger.challenges else ledger.challenges.erase args.challenge

theorem shrinks_rolledBack {ledger : Ledger} {args : CreateArgs} (previous : Nat)
    (hspent : ledger.spent args.challenge = none)
    : Shrinks ledger (ledger.rolledBack args previous) := by
  apply Shrinks.of_drop
  . rfl
  . exact .inr rfl
  . rfl
  . simp only [rolledBack, ← hspent, Function.update_eq_self]
  . rfl

end Ledger

-- One of the guarded writes of `record` is refused.
def RefusesRecord (env : Environment Site) : Prop :=
  env.denied .record = true ∨ env.denied .expiry = true ∨ env.denied .charge = true
    ∨ env.denied .index = true ∨ env.denied .total = true ∨ env.denied .spent = true
    ∨ env.denied .lease = true

section

variable {env : Environment Site} {ledger : Ledger} {args : CreateArgs}

theorem run_rollback (env : Environment Site) (ledger : Ledger) (args : CreateArgs) (previous : Nat)
    : (rollback args previous).run env ledger.keyspace
        = (some .capacity, (ledger.rolledBack args previous).keyspace) := by
  unfold rollback
  rw [bind_of_some _ (run_pcall (del_note ledger)), bind_of_some _ (run_pcall (zrem_notes _)),
    bind_of_some _ (run_pcall (hdel_charges _)), bind_of_some _ (run_pcall (set_bytes _ _)),
    bind_of_some _ (run_pcall (del_spent _))]
  rfl

theorem run_record {lease : Lease} {previous expires proofExpires : Nat}
    (hnote : ledger.notes args.id = none) (hlease : ledger.leases args.challenge = some lease)
    (hspent : ledger.spent args.challenge = none) (hfuture : env.now < 1000 * proofExpires)
    : ∃ reply ledger',
        (record args previous (chargeOf args) expires proofExpires).run env ledger.keyspace
            = (some reply, ledger'.keyspace)
        ∧ (RefusesRecord env ∧ reply = .capacity ∧ ledger' = ledger.rolledBack args previous
          ∨ ¬RefusesRecord env ∧ reply = .ok [tostring expires]
            ∧ ledger' = ledger.recorded env args previous expires proofExpires) := by
  have hset : Valkey.hset (.note args.id) (args.pairs expires) env ledger.keyspace
      = some ((), (ledger.setNote args.id (some (noteOf args expires))).keyspace) := by
    rw [← pairs_noteOf]
    exact hset_note ledger hnote rfl
  unfold record
  cases hrecord : env.denied .record with
  | true =>
    rw [bind_of_some _ (run_pcall_denied hrecord), if_pos rfl, run_rollback]
    exact ⟨_, _, rfl, .inl ⟨.inl hrecord, rfl, rfl⟩⟩
  | false =>
  rw [bind_of_some _ (run_pcall_allowed hrecord hset), if_neg (by simp)]
  have hnew : (ledger.setNote args.id (some (noteOf args expires))).notes args.id
      = some (noteOf args expires) :=
    Function.update_self _ _ _
  cases hexpiry : env.denied .expiry with
  | true =>
    rw [bind_of_some _ (run_pcall_denied hexpiry), if_pos (by simp), run_rollback]
    refine ⟨_, _, rfl, .inl ⟨.inr (.inl hexpiry), rfl, ?_⟩⟩
    simp [Ledger.rolledBack, Ledger.setNote]
  | false =>
  rw [bind_of_some _ (run_pcall_allowed hexpiry (expireat_note _ hnew _)),
    if_neg (not_not.mpr rfl)]
  cases hcharge : env.denied .charge with
  | true =>
    rw [bind_of_some _ (run_pcall_denied hcharge), if_pos rfl, run_rollback]
    refine ⟨_, _, rfl, .inl ⟨.inr (.inr (.inl hcharge)), rfl, ?_⟩⟩
    simp [Ledger.rolledBack, Ledger.setNote]
  | false =>
  rw [bind_of_some _ (run_pcall_allowed hcharge (hset_charges _ _)), if_neg (by simp)]
  cases hindex : env.denied .index with
  | true =>
    rw [bind_of_some _ (run_pcall_denied hindex), if_pos rfl, run_rollback]
    refine ⟨_, _, rfl, .inl ⟨.inr (.inr (.inr (.inl hindex))), rfl, ?_⟩⟩
    simp [Ledger.rolledBack, Ledger.setNote, Ledger.setCharges]
  | false =>
  rw [bind_of_some _ (run_pcall_allowed hindex (zadd_notes _ _)), if_neg (by simp)]
  cases htotal : env.denied .total with
  | true =>
    rw [bind_of_some _ (run_pcall_denied htotal), if_pos rfl, run_rollback]
    refine ⟨_, _, rfl, .inl ⟨.inr (.inr (.inr (.inr (.inl htotal)))), rfl, ?_⟩⟩
    simp [Ledger.rolledBack, Ledger.setNote, Ledger.setCharges, Ledger.setIndex]
  | false =>
  rw [bind_of_some _ (run_pcall_allowed htotal (set_bytes _ _)), if_neg (by simp)]
  generalize hcounted : Ledger.setTotal _ _ = counted
  have hspent' : counted.spent args.challenge = none := by rw [← hcounted]; exact hspent
  have hlease' : counted.leases args.challenge = some lease := by rw [← hcounted]; exact hlease
  cases hmarker : env.denied .spent with
  | true =>
    rw [bind_of_some _ (run_pcall_denied hmarker), if_pos (by simp), run_rollback]
    refine ⟨_, _, rfl, .inl ⟨.inr (.inr (.inr (.inr (.inr (.inl hmarker))))), rfl, ?_⟩⟩
    rw [← hcounted]
    simp [Ledger.rolledBack, Ledger.setNote, Ledger.setCharges, Ledger.setIndex, Ledger.setTotal]
  | false =>
  rw [bind_of_some _ (run_pcall_allowed hmarker (setNewExat_spent counted hspent' hfuture)),
    if_neg (not_not.mpr rfl)]
  cases hdel : env.denied .lease with
  | true =>
    rw [bind_of_some _ (run_pcall_denied hdel), if_pos (by simp), run_rollback]
    refine ⟨_, _, rfl, .inl ⟨.inr (.inr (.inr (.inr (.inr (.inr hdel))))), rfl, ?_⟩⟩
    rw [← hcounted]
    simp [Ledger.rolledBack, Ledger.setNote, Ledger.setCharges, Ledger.setIndex, Ledger.setTotal,
      Ledger.setSpent]
  | false =>
  rw [bind_of_some _ (run_pcall_allowed hdel (del_challenge _)), if_neg (by simp [hlease'])]
  have hallowed : ¬RefusesRecord env := by
    simp [RefusesRecord, hrecord, hexpiry, hcharge, hindex, htotal, hmarker, hdel]
  cases hsweep : env.denied .challengeIndex with
  | true =>
    rw [bind_of_some _ (run_pcall_denied hsweep)]
    refine ⟨_, _, rfl, .inr ⟨hallowed, rfl, ?_⟩⟩
    rw [← hcounted]
    simp [Ledger.recorded, Ledger.setNote, Ledger.setCharges, Ledger.setIndex, Ledger.setTotal,
      Ledger.setSpent, Ledger.setLease, hsweep]
  | false =>
    rw [bind_of_some _ (run_pcall_allowed hsweep (zrem_challenges _))]
    refine ⟨_, _, rfl, .inr ⟨hallowed, rfl, ?_⟩⟩
    rw [← hcounted]
    simp [Ledger.recorded, Ledger.setNote, Ledger.setCharges, Ledger.setIndex, Ledger.setTotal,
      Ledger.setSpent, Ledger.setLease, Ledger.setChallenges, hsweep]

end

-- The proof of work of a request is still good.
structure Proven (env : Environment Site) (ledger : Ledger) (token : Bytes) (lease : Lease)
    : Prop where
  unspent : ledger.spent token = none
  leased : ledger.leases token = some lease
  live : env.now / 1000 < lease.expires

theorem Proven.congr {env : Environment Site} {ledger ledger' : Ledger} {token : Bytes} {lease : Lease}
    (h : Proven env ledger token lease) (hleases : ledger'.leases = ledger.leases)
    (hspent : ledger'.spent = ledger.spent) : Proven env ledger' token lease where
  unspent := hspent ▸ h.unspent
  leased := hleases ▸ h.leased
  live := h.live

structure Free (ledger : Ledger) (id : Bytes) : Prop where
  note : ledger.notes id = none
  charge : id ∉ ledger.charges

structure Fits (ledger : Ledger) (args : CreateArgs) : Prop where
  notes : FiniteMap.size ledger.charges < args.maxNotes
  bytes : ledger.total.getD 0 + chargeOf args ≤ args.maxBytes

def expiresOf (env : Environment Site) (args : CreateArgs) : Nat := env.now / 1000 + args.ttl

-- Every way a create script ends, with what it answers and what it leaves behind.
inductive Created (env : Environment Site) (ledger : Ledger) (args : CreateArgs)
    : Option Reply → Ledger → Prop where
  | reused (hspent : ledger.spent args.challenge ≠ none)
    : Created env ledger args (some .proofReused) ledger
  | unproven (hunspent : ledger.spent args.challenge = none)
      (hinvalid : ∀ lease, ¬Proven env ledger args.challenge lease)
    : Created env ledger args (some .proofInvalid) ledger
  | aborted {lease reaped} (hproven : Proven env ledger args.challenge lease)
      (hreaped : Reaped env ledger (env.now / 1000) 128 none reaped)
    : Created env ledger args none reaped
  | conflict {lease reaped} (hproven : Proven env ledger args.challenge lease)
      (hreaped : Reaped env ledger (env.now / 1000) 128 (some ()) reaped)
      (htaken : ¬Free reaped args.id)
    : Created env ledger args (some .idConflict) reaped
  | full {lease reaped} (hproven : Proven env ledger args.challenge lease)
      (hreaped : Reaped env ledger (env.now / 1000) 128 (some ()) reaped)
      (hfree : Free reaped args.id) (hfull : ¬Fits reaped args)
    : Created env ledger args (some .capacity) reaped
  | rolledBack {lease reaped} (hproven : Proven env ledger args.challenge lease)
      (hreaped : Reaped env ledger (env.now / 1000) 128 (some ()) reaped)
      (hfree : Free reaped args.id) (hfits : Fits reaped args) (hrefused : RefusesRecord env)
    : Created env ledger args (some .capacity) (reaped.rolledBack args (reaped.total.getD 0))
  | recorded {lease reaped} (hproven : Proven env ledger args.challenge lease)
      (hreaped : Reaped env ledger (env.now / 1000) 128 (some ()) reaped)
      (hfree : Free reaped args.id) (hfits : Fits reaped args) (hallowed : ¬RefusesRecord env)
    : Created env ledger args (some (.ok [tostring (expiresOf env args)]))
        (reaped.recorded env args (reaped.total.getD 0) (expiresOf env args) lease.expires)

-- `create` with a continuation in place of `record`.
def createThen (args : CreateArgs) (next : Nat → Nat → Nat → Lua Reply) : Lua Reply := do
  if ¬(← ledgerTypes .notes .charges .bytes) ∨ ¬(← isType .challenges .zset) then return .capacity
  if ← call (isPresent (.spent args.challenge)) then return .proofReused
  let some lease ← call (Valkey.get (.challenge args.challenge)) | return .proofInvalid
  let time ← nowSeconds
  let some proofExpires := (matchLease lease).bind fun (expires, _) => tonumber expires
    | return .proofInvalid
  if proofExpires ≤ time then return .proofInvalid
  reapNotes .notes .charges .bytes time 128
  if ← call (isPresent (.note args.id)) then return .idConflict
  if ← call (hexists .charges args.id) then return .idConflict
  let previous := tonumber ((← call (Valkey.get .bytes)).getD zero)
  let charge := args.packet.length + args.header.length + 1024
  if (← call (hlen .charges)) ≥ args.maxNotes then return .capacity
  let previous ← nonNil previous
  if previous + charge > args.maxBytes then return .capacity
  next previous (time + args.ttl) proofExpires

theorem create_eq (args : CreateArgs)
    : create args = createThen args fun previous expires proofExpires =>
        record args previous (chargeOf args) expires proofExpires :=
  rfl

-- The checks see only the length of the packet.
theorem createThen_packet {args : CreateArgs} {packet : Bytes} (h : packet.length = args.packet.length)
    : createThen { args with packet } = createThen args := by
  funext next
  unfold createThen
  rw [h]

-- How the checks of a create script end: with a reply of their own, or with a note that can be recorded.
inductive Checked (env : Environment Site) (ledger : Ledger) (args : CreateArgs) : Prop where
  | refused {reply : Option Reply} {ledger' : Ledger} (hcreated : Created env ledger args reply ledger')
      (hrun : ∀ next, (createThen args next).run env ledger.keyspace = (reply, ledger'.keyspace))
    : Checked env ledger args
  | passed {lease : Lease} {reaped : Ledger} (hproven : Proven env ledger args.challenge lease)
      (hreaped : Reaped env ledger (env.now / 1000) 128 (some ()) reaped)
      (hfree : Free reaped args.id) (hfits : Fits reaped args)
      (hrun : ∀ next, (createThen args next).run env ledger.keyspace
        = (next (reaped.total.getD 0) (expiresOf env args) lease.expires).run env reaped.keyspace)
    : Checked env ledger args

theorem run_createThen (env : Environment Site) (ledger : Ledger) (args : CreateArgs)
    : Checked env ledger args := by
  -- The run is followed for every continuation at once.
  suffices hchecked : (∃ reply ledger', Created env ledger args reply ledger'
      ∧ ∀ next, (createThen args next).run env ledger.keyspace = (reply, ledger'.keyspace))
      ∨ ∃ lease reaped, (Proven env ledger args.challenge lease
        ∧ Reaped env ledger (env.now / 1000) 128 (some ()) reaped ∧ Free reaped args.id ∧ Fits reaped args)
        ∧ ∀ next, (createThen args next).run env ledger.keyspace
          = (next (reaped.total.getD 0) (expiresOf env args) lease.expires).run env reaped.keyspace by
    rcases hchecked with ⟨reply, ledger', hcreated, hrun⟩ | ⟨lease, reaped, ⟨hproven, hreaped, hfree, hfits⟩, hrun⟩
    . exact .refused hcreated hrun
    . exact .passed hproven hreaped hfree hfits hrun
  simp only [createThen, bind_of_some _ (ledgerTypes_keyspace ledger),
    bind_of_some _ (isType_challenges ledger), bind_of_some _ (run_call (isPresent_spent ledger)),
    not_true_eq_false, or_false, if_false]
  cases hspent : ledger.spent args.challenge with
  | some deadline => exact .inl ⟨_, ledger, .reused (by simp [hspent]), fun _ => rfl⟩
  | none =>
  simp only [Option.isSome_none, Bool.false_eq_true, if_false,
    bind_of_some _ (run_call (get_challenge ledger))]
  cases hlease : ledger.leases args.challenge with
  | none =>
    refine .inl ⟨_, ledger, .unproven hspent fun lease hproven => ?_, fun _ => rfl⟩
    rw [hproven.leased] at hlease
    cases hlease
  | some lease =>
  have hexpires : tonumber (tostring lease.expires) = some lease.expires := Decimal.parse?_print _
  simp only [Option.map_some, bind_of_some _ run_nowSeconds, lease.matchLease_value, Option.bind_some,
    hexpires]
  by_cases hlive : lease.expires ≤ env.now / 1000
  . simp only [if_pos hlive]
    refine .inl ⟨_, ledger, .unproven hspent fun lease' hproven => ?_, fun _ => rfl⟩
    have hsame : lease = lease' := Option.some.inj (hlease.symm.trans hproven.leased)
    have hlive' := hproven.live
    rw [← hsame] at hlive'
    omega
  have hproven : Proven env ledger args.challenge lease := ⟨hspent, hlease, Nat.not_le.mp hlive⟩
  simp only [if_neg hlive]
  rcases run_reapNotes env ledger (env.now / 1000) 128 with ⟨outcome, reaped, hrun, hreaped⟩
  cases outcome with
  | none =>
    simp only [bind_of_none _ hrun]
    exact .inl ⟨none, reaped, .aborted hproven hreaped, fun _ => rfl⟩
  | some _ =>
  simp only [bind_of_some _ hrun, bind_of_some _ (run_call (isPresent_note reaped))]
  by_cases hnote : (reaped.notes args.id).isSome = true
  . simp only [if_pos hnote]
    refine .inl ⟨_, reaped, .conflict hproven hreaped fun hfree => ?_, fun _ => rfl⟩
    simp [hfree.note] at hnote
  simp only [if_neg hnote, bind_of_some _ (run_call (hexists_charges reaped)), decide_eq_true_eq]
  by_cases hcharge : args.id ∈ reaped.charges
  . simp only [if_pos hcharge]
    exact .inl ⟨_, reaped, .conflict hproven hreaped fun hfree => hfree.charge hcharge, fun _ => rfl⟩
  have hfree : Free reaped args.id := ⟨by simpa using hnote, hcharge⟩
  simp only [if_neg hcharge, bind_of_some _ (run_call (get_bytes reaped)),
    bind_of_some _ (run_call (hlen_charges reaped)), tonumber_getD]
  by_cases hnotes : FiniteMap.size reaped.charges ≥ args.maxNotes
  . simp only [if_pos hnotes]
    refine .inl ⟨_, reaped, .full hproven hreaped hfree fun hfits => ?_, fun _ => rfl⟩
    exact Nat.not_lt.mpr hnotes hfits.notes
  simp only [if_neg hnotes, bind_of_some _ (run_nonNil_some _)]
  by_cases hbytes : reaped.total.getD 0 + (args.packet.length + args.header.length + 1024) > args.maxBytes
  . simp only [if_pos hbytes]
    refine .inl ⟨_, reaped, .full hproven hreaped hfree fun hfits => ?_, fun _ => rfl⟩
    exact Nat.not_lt.mpr hfits.bytes hbytes
  simp only [if_neg hbytes]
  have hfits : Fits reaped args := ⟨Nat.not_le.mp hnotes, Nat.not_lt.mp hbytes⟩
  exact .inr ⟨lease, reaped, ⟨hproven, hreaped, hfree, hfits⟩, fun _ => rfl⟩

theorem Proven.reaped {env : Environment Site} {ledger reaped : Ledger} {token : Bytes} {lease : Lease}
    {time limit : Nat} {outcome : Option Unit} (h : Proven env ledger token lease)
    (hreaped : Reaped env ledger time limit outcome reaped) : Proven env reaped token lease :=
  h.congr hreaped.shrinks.leases hreaped.shrinks.spent

theorem Proven.future {env : Environment Site} {ledger : Ledger} {token : Bytes} {lease : Lease}
    (h : Proven env ledger token lease) : env.now < 1000 * lease.expires := by
  have hlive := h.live
  omega

theorem run_create (env : Environment Site) (ledger : Ledger) (args : CreateArgs)
    : ∃ reply ledger', (create args).run env ledger.keyspace = (reply, ledger'.keyspace)
        ∧ Created env ledger args reply ledger' := by
  rw [create_eq]
  cases run_createThen env ledger args with
  | refused hcreated hrun => exact ⟨_, _, hrun _, hcreated⟩
  | passed hproven hreaped hfree hfits hrun =>
    rw [hrun]
    have hkept := hproven.reaped hreaped
    rcases run_record hfree.note hkept.leased hkept.unspent hproven.future
      with ⟨reply, ledger', hrecord, ⟨hrefused, rfl, rfl⟩ | ⟨hallowed, rfl, rfl⟩⟩
    . exact ⟨_, _, hrecord, .rolledBack hproven hreaped hfree hfits hrefused⟩
    . exact ⟨_, _, hrecord, .recorded hproven hreaped hfree hfits hallowed⟩

-- All of a ledger but the packet stored under `id`.
def Ledger.redacted (ledger : Ledger) (id : Bytes) : Ledger :=
  { ledger with
    notes := Function.update ledger.notes id ((ledger.notes id).map fun note => { note with packet := [] }) }

theorem redacted_recorded {ledger : Ledger} {env : Environment Site} {args : CreateArgs}
    {packet : Bytes}
    (h : packet.length = args.packet.length) (previous expires proofExpires : Nat)
    : (ledger.recorded env { args with packet } previous expires proofExpires).redacted args.id
        = (ledger.recorded env args previous expires proofExpires).redacted args.id := by
  have hcharge : chargeOf { args with packet } = chargeOf args := by
    unfold chargeOf
    rw [h]
  have hnote : (noteOf { args with packet } expires).stamped env.now (1000 * expires)
      = ((noteOf args expires).stamped env.now (1000 * expires)).map fun note => { note with packet } := by
    unfold Note.stamped
    split <;> rfl
  unfold Ledger.redacted Ledger.recorded
  simp only [hcharge, hnote, Function.update_self, Function.update_idem, Option.map_map, Function.comp_def]

theorem run_record_packet {env : Environment Site} {ledger : Ledger} {args : CreateArgs}
    {packet : Bytes}
    (h : packet.length = args.packet.length) {lease : Lease} {proofExpires : Nat}
    (hnote : ledger.notes args.id = none) (hlease : ledger.leases args.challenge = some lease)
    (hspent : ledger.spent args.challenge = none) (hfuture : env.now < 1000 * proofExpires)
    (previous expires : Nat)
    : ∃ reply, ∃ left right : Ledger,
        (record args previous (chargeOf args) expires proofExpires).run env ledger.keyspace
            = (reply, left.keyspace)
        ∧ (record { args with packet } previous (chargeOf { args with packet }) expires proofExpires).run env
            ledger.keyspace = (reply, right.keyspace)
        ∧ left.redacted args.id = right.redacted args.id := by
  have hleft : ∃ reply, ∃ ledger' : Ledger,
      (record args previous (chargeOf args) expires proofExpires).run env ledger.keyspace
          = (some reply, ledger'.keyspace) ∧ _ :=
    run_record hnote hlease hspent hfuture
  have hright : ∃ reply, ∃ ledger' : Ledger,
      (record { args with packet } previous (chargeOf { args with packet }) expires proofExpires).run env
          ledger.keyspace = (some reply, ledger'.keyspace) ∧ _ :=
    run_record hnote hlease hspent hfuture
  rcases hleft with ⟨reply, left, hleft, ⟨hrefused, rfl, rfl⟩ | ⟨hallowed, rfl, rfl⟩⟩
  . rcases hright with ⟨reply, right, hright, ⟨-, rfl, rfl⟩ | ⟨hallowed, -, -⟩⟩
    . exact ⟨_, _, _, hleft, hright, rfl⟩
    . exact absurd hrefused hallowed
  . rcases hright with ⟨reply, right, hright, ⟨hrefused, -, -⟩ | ⟨-, rfl, rfl⟩⟩
    . exact absurd hrefused hallowed
    . exact ⟨_, _, _, hleft, hright, (redacted_recorded h _ _ _).symm⟩

-- A create script stores any other packet of the same length in the same way.
theorem run_create_packet (env : Environment Site) (ledger : Ledger) (args : CreateArgs)
    {packet : Bytes}
    (h : packet.length = args.packet.length)
    : ∃ reply, ∃ left right : Ledger, (create args).run env ledger.keyspace = (reply, left.keyspace)
        ∧ (create { args with packet }).run env ledger.keyspace = (reply, right.keyspace)
        ∧ left.redacted args.id = right.redacted args.id := by
  rw [create_eq, create_eq, createThen_packet h]
  cases run_createThen env ledger args with
  | refused hcreated hrun => exact ⟨_, _, _, hrun _, hrun _, rfl⟩
  | passed hproven hreaped hfree hfits hrun =>
    rw [hrun, hrun]
    have hkept := hproven.reaped hreaped
    exact run_record_packet h hfree.note hkept.leased hkept.unspent hproven.future _ _

end Store
