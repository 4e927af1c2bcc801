import Erase.Server.Lua

namespace Store

open Server Server.Lua Valkey

structure Note where
  packet : Bytes
  header : Bytes
  peek : Bytes
  read : Bytes
  revoke : Bytes
  expires : Nat
  remaining : Nat
  expireAt : Option Nat
  deriving DecidableEq

structure Lease where
  expires : Nat
  bits : Nat
  expireAt : Nat
  deriving DecidableEq

-- The logical content of the keyspace. The scripts never leave it, whatever the cache refuses.
structure Ledger where
  notes : Bytes → Option Note
  index : FiniteMap Bytes Nat
  charges : FiniteMap Bytes Nat
  total : Option Nat
  leases : Bytes → Option Lease
  spent : Bytes → Option Nat
  challenges : FiniteMap Bytes Nat

namespace Note

def pairs (note : Note) : List (Bytes × Bytes) :=
  [(Field.packet, note.packet), (Field.header, note.header), (Field.peek, note.peek),
    (Field.read, note.read), (Field.revoke, note.revoke),
    (Field.expires, tostring note.expires), (Field.remaining, tostring note.remaining)]

def fields (note : Note) : FiniteMap Bytes Bytes :=
  note.pairs.foldl (fun fields (field, value) => fields.insert field value) ∅

def entry (note : Note) : Entry := { value := .hash note.fields, expireAt := note.expireAt }

-- A deadline that is not in the future deletes the note at once.
def stamped (note : Note) (now deadline : Nat) : Option Note :=
  if deadline ≤ now then none else some { note with expireAt := some deadline }

section

variable (note : Note)

theorem eq_of_stamped {note note' : Note} {now deadline : Nat}
    (h : note.stamped now deadline = some note')
    : note' = { note with expireAt := some deadline } := by
  unfold stamped at h
  split at h
  . cases h
  . exact (Option.some.inj h).symm

theorem stamped_entry (now deadline : Nat)
    : Entry.stamped now deadline note.entry.value = (note.stamped now deadline).map Note.entry := by
  unfold Entry.stamped stamped
  split <;> rfl

@[simp]
theorem lookup_packet : note.fields.lookup Field.packet = some note.packet := by
  simp +decide [fields, pairs]

@[simp]
theorem lookup_header : note.fields.lookup Field.header = some note.header := by
  simp +decide [fields, pairs]

@[simp]
theorem lookup_peek : note.fields.lookup Field.peek = some note.peek := by
  simp +decide [fields, pairs]

@[simp]
theorem lookup_read : note.fields.lookup Field.read = some note.read := by
  simp +decide [fields, pairs]

@[simp]
theorem lookup_revoke : note.fields.lookup Field.revoke = some note.revoke := by
  simp +decide [fields, pairs]

@[simp]
theorem lookup_expires : note.fields.lookup Field.expires = some (tostring note.expires) := by
  simp +decide [fields, pairs]

@[simp]
theorem lookup_remaining : note.fields.lookup Field.remaining = some (tostring note.remaining) := by
  simp +decide [fields, pairs]

@[simp]
theorem insert_remaining (n : Nat)
    : note.fields.insert Field.remaining (tostring n) = { note with remaining := n }.fields := by
  simp [fields, pairs]

end

@[simp]
theorem fields_ne_empty (note : Note) : note.fields ≠ ∅ := by
  intro h
  have hlookup := note.lookup_packet
  rw [h] at hlookup
  simp at hlookup

end Note

namespace Lease

def value (lease : Lease) : Bytes := tostring lease.expires ++ asBytes ":" ++ tostring lease.bits

def entry (lease : Lease) : Entry := { value := .string lease.value, expireAt := some lease.expireAt }

theorem matchLease_value (lease : Lease)
    : matchLease lease.value = some (tostring lease.expires, tostring lease.bits) := by
  have hexpires : ∀ byte ∈ tostring lease.expires, Decimal.isDigit byte.toNat = true :=
    fun byte => Decimal.isDigit_of_mem_print
  have hbits : (tostring lease.bits).all (fun byte => Decimal.isDigit byte.toNat) = true :=
    List.all_eq_true.mpr fun byte => Decimal.isDigit_of_mem_print
  have hvalue : lease.value = tostring lease.expires ++ 58 :: tostring lease.bits := by
    have hcolon : asBytes ":" = [58] := by decide
    simp [value, hcolon]
  have hcolon : Decimal.isDigit (58 : UInt8).toNat = false := by decide
  have hne : ∀ n, tostring n ≠ [] := Decimal.print_ne_nil
  rw [hvalue]
  simp only [matchLease, List.takeWhile_append_of_pos hexpires, List.dropWhile_append_of_pos hexpires,
    List.takeWhile_cons, List.dropWhile_cons, hcolon, Bool.false_eq_true, if_false,
    List.append_nil]
  rw [if_pos ⟨hne _, hne _, hbits⟩]

end Lease

namespace Ledger

def empty : Ledger where
  notes _ := none
  index := ∅
  charges := ∅
  total := none
  leases _ := none
  spent _ := none
  challenges := ∅

def keyspace (ledger : Ledger) : Keyspace Key
  | .note id => (ledger.notes id).map Note.entry
  | .notes => Entry.ofZset none ledger.index
  | .charges => Entry.ofHash none (ledger.charges.mapValues tostring)
  | .bytes => ledger.total.map fun total => { value := .string (tostring total), expireAt := none }
  | .challenge token => (ledger.leases token).map Lease.entry
  | .spent token =>
    (ledger.spent token).map fun deadline =>
      { value := .string (asBytes "1"), expireAt := some deadline }
  | .challenges => Entry.ofZset none ledger.challenges

@[simps]
def setIndex (ledger : Ledger) (index : FiniteMap Bytes Nat) : Ledger := { ledger with index }

@[simps]
def setCharges (ledger : Ledger) (charges : FiniteMap Bytes Nat) : Ledger := { ledger with charges }

@[simps]
def setTotal (ledger : Ledger) (total : Nat) : Ledger := { ledger with total := some total }

@[simps]
def setChallenges (ledger : Ledger) (challenges : FiniteMap Bytes Nat) : Ledger :=
  { ledger with challenges }

@[simps]
def setNote (ledger : Ledger) (id : Bytes) (note : Option Note) : Ledger :=
  { ledger with notes := Function.update ledger.notes id note }

@[simps]
def setLease (ledger : Ledger) (token : Bytes) (lease : Option Lease) : Ledger :=
  { ledger with leases := Function.update ledger.leases token lease }

@[simps]
def setSpent (ledger : Ledger) (token : Bytes) (deadline : Option Nat) : Ledger :=
  { ledger with spent := Function.update ledger.spent token deadline }

theorem keyspace_empty : empty.keyspace = fun _ => none := by
  funext key
  cases key <;> rfl

section

variable {ledger ledger' : Ledger}

theorem put_eq_keyspace {key : Key} {entry : Option Entry} (hsame : ledger'.keyspace key = entry)
    (hother : ∀ other, other ≠ key → ledger'.keyspace other = ledger.keyspace other)
    : ledger.keyspace.put key entry = ledger'.keyspace := by
  funext other
  by_cases h : other = key
  . rw [h, hsame, Keyspace.put, Function.update_self]
  . rw [hother other h, Keyspace.put, Function.update_of_ne h]

end

variable (ledger : Ledger) {id token : Bytes}

@[simp]
theorem put_note (id : Bytes) (note : Option Note)
    : ledger.keyspace.put (.note id) (note.map Note.entry)
        = (ledger.setNote id note).keyspace := by
  apply put_eq_keyspace
  . simp [keyspace, setNote]
  . intro other h
    cases other with
    | note other =>
      have hne : other ≠ id := by simpa using h
      simp [keyspace, setNote, hne]
    | _ => rfl

@[simp]
theorem put_challenge (token : Bytes) (lease : Option Lease)
    : ledger.keyspace.put (.challenge token) (lease.map Lease.entry)
        = (ledger.setLease token lease).keyspace := by
  apply put_eq_keyspace
  . simp [keyspace, setLease]
  . intro other h
    cases other with
    | challenge other =>
      have hne : other ≠ token := by simpa using h
      simp [keyspace, setLease, hne]
    | _ => rfl

@[simp]
theorem put_spent (token : Bytes) (deadline : Option Nat)
    : ledger.keyspace.put (.spent token) (deadline.map fun deadline =>
          { value := .string (asBytes "1"), expireAt := some deadline })
        = (ledger.setSpent token deadline).keyspace := by
  apply put_eq_keyspace
  . simp [keyspace, setSpent]
  . intro other h
    cases other with
    | spent other =>
      have hne : other ≠ token := by simpa using h
      simp [keyspace, setSpent, hne]
    | _ => rfl

@[simp]
theorem put_bytes (total : Nat)
    : ledger.keyspace.put .bytes (some { value := .string (tostring total), expireAt := none })
        = (ledger.setTotal total).keyspace := by
  apply put_eq_keyspace
  . rfl
  . intro other h
    cases other with
    | bytes => exact absurd rfl h
    | _ => rfl

@[simp]
theorem putZset_notes (members : FiniteMap Bytes Nat)
    : ledger.keyspace.putZset .notes members = (ledger.setIndex members).keyspace := by
  apply put_eq_keyspace
  . have hkeep : ledger.keyspace.expireAt .notes = none := Keyspace.expireAt_ofZset rfl
    rw [hkeep]
    rfl
  . intro other h
    cases other with
    | notes => exact absurd rfl h
    | _ => rfl

@[simp]
theorem putZset_challenges (members : FiniteMap Bytes Nat)
    : ledger.keyspace.putZset .challenges members
        = (ledger.setChallenges members).keyspace := by
  apply put_eq_keyspace
  . have hkeep : ledger.keyspace.expireAt .challenges = none := Keyspace.expireAt_ofZset rfl
    rw [hkeep]
    rfl
  . intro other h
    cases other with
    | challenges => exact absurd rfl h
    | _ => rfl

@[simp]
theorem putHash_charges (charges : FiniteMap Bytes Nat)
    : ledger.keyspace.putHash .charges (charges.mapValues tostring)
        = (ledger.setCharges charges).keyspace := by
  apply put_eq_keyspace
  . have hkeep : ledger.keyspace.expireAt .charges = none := Keyspace.expireAt_ofHash rfl
    rw [hkeep]
    rfl
  . intro other h
    cases other with
    | charges => exact absurd rfl h
    | _ => rfl

@[simp]
theorem zset?_notes : ledger.keyspace.zset? .notes = some ledger.index :=
  Keyspace.zset?_ofZset rfl

@[simp]
theorem zset?_challenges : ledger.keyspace.zset? .challenges = some ledger.challenges :=
  Keyspace.zset?_ofZset rfl

@[simp]
theorem hash?_charges : ledger.keyspace.hash? .charges = some (ledger.charges.mapValues tostring) :=
  Keyspace.hash?_ofHash rfl

@[simp]
theorem string?_bytes : ledger.keyspace.string? .bytes = some (ledger.total.map tostring) := by
  unfold Keyspace.string? keyspace
  cases ledger.total <;> rfl

@[simp]
theorem string?_challenge
    : ledger.keyspace.string? (.challenge token) = some ((ledger.leases token).map Lease.value) := by
  simp only [Keyspace.string?, keyspace]
  cases ledger.leases token <;> rfl

theorem hash?_note {note : Note} (h : ledger.notes id = some note)
    : ledger.keyspace.hash? (.note id) = some note.fields := by
  simp [Keyspace.hash?, keyspace, h, Note.entry]

end Ledger

section Commands

variable (ledger : Ledger) {id token : Bytes} {env : Environment Site}

@[simp]
theorem run_nowSeconds {keys : Keyspace Key}
    : nowSeconds.run env keys = (some (env.now / 1000), keys) :=
  rfl

@[simp]
theorem isType_notes : (isType .notes .zset).run env ledger.keyspace
    = (some true, ledger.keyspace) := by
  simp [isType, Script.run_bind, Script.call, type, Ledger.keyspace, Entry.ofZset_kind]

@[simp]
theorem isType_charges : (isType .charges .hash).run env ledger.keyspace
    = (some true, ledger.keyspace) := by
  simp [isType, Script.run_bind, Script.call, type, Ledger.keyspace, Entry.ofHash_kind]

@[simp]
theorem isType_bytes : (isType .bytes .string).run env ledger.keyspace
    = (some true, ledger.keyspace) := by
  cases htotal : ledger.total with
  | none => simp [isType, Script.run_bind, Script.call, type, Ledger.keyspace, htotal]
  | some total =>
    simp [isType, Script.run_bind, Script.call, type, Ledger.keyspace, htotal, Value.kind]

@[simp]
theorem isType_challenges : (isType .challenges .zset).run env ledger.keyspace
    = (some true, ledger.keyspace) := by
  simp [isType, Script.run_bind, Script.call, type, Ledger.keyspace, Entry.ofZset_kind]

@[simp]
theorem ledgerTypes_keyspace : (ledgerTypes .notes .charges .bytes).run env ledger.keyspace
    = (some true, ledger.keyspace) := by
  simp [ledgerTypes, Script.run_bind]

@[simp]
theorem isPresent_note : isPresent (.note id) env ledger.keyspace
    = some ((ledger.notes id).isSome, ledger.keyspace) := by
  simp [isPresent, Ledger.keyspace]

@[simp]
theorem isPresent_spent : isPresent (.spent token) env ledger.keyspace
    = some ((ledger.spent token).isSome, ledger.keyspace) := by
  simp [isPresent, Ledger.keyspace]

@[simp]
theorem get_bytes : Valkey.get .bytes env ledger.keyspace
    = some (ledger.total.map tostring, ledger.keyspace) := by
  simp [Valkey.get]

@[simp]
theorem get_challenge : Valkey.get (.challenge token) env ledger.keyspace
    = some ((ledger.leases token).map Lease.value, ledger.keyspace) := by
  simp [Valkey.get]

@[simp]
theorem hget_charges : hget .charges id env ledger.keyspace
    = some ((ledger.charges.lookup id).map tostring, ledger.keyspace) := by
  simp [hget]

theorem hget_note {note : Note} (h : ledger.notes id = some note) (field : Bytes)
    : hget (.note id) field env ledger.keyspace
        = some (note.fields.lookup field, ledger.keyspace) := by
  simp [hget, ledger.hash?_note h]

@[simp]
theorem hexists_charges : hexists .charges id env ledger.keyspace
    = some (decide (id ∈ ledger.charges), ledger.keyspace) := by
  simp [hexists, ← Finmap.lookup_isSome]

@[simp]
theorem hlen_charges : hlen .charges env ledger.keyspace
    = some (FiniteMap.size ledger.charges, ledger.keyspace) := by
  simp [hlen]

@[simp]
theorem zcard_challenges : zcard .challenges env ledger.keyspace
    = some (FiniteMap.size ledger.challenges, ledger.keyspace) := by
  simp [zcard]

@[simp]
theorem zrangebyscore_notes (max limit : Nat)
    : zrangebyscore .notes max limit env ledger.keyspace
        = some (SortedSet.upTo ledger.index max limit, ledger.keyspace) := by
  simp [zrangebyscore]

@[simp]
theorem set_bytes (total : Nat) : Valkey.set .bytes (tostring total) env ledger.keyspace
    = some ((), (ledger.setTotal total).keyspace) := by
  simp [Valkey.set]

@[simp]
theorem del_note : del (.note id) env ledger.keyspace
    = some (if (ledger.notes id).isSome then 1 else 0, (ledger.setNote id none).keyspace) := by
  have hput := ledger.put_note id none
  simp only [Option.map_none] at hput
  simp [del, Ledger.keyspace, ← hput]

@[simp]
theorem del_challenge : del (.challenge token) env ledger.keyspace
    = some (if (ledger.leases token).isSome then 1 else 0,
        (ledger.setLease token none).keyspace) := by
  have hput := ledger.put_challenge token none
  simp only [Option.map_none] at hput
  simp [del, Ledger.keyspace, ← hput]

@[simp]
theorem del_spent : del (.spent token) env ledger.keyspace
    = some (if (ledger.spent token).isSome then 1 else 0,
        (ledger.setSpent token none).keyspace) := by
  have hput := ledger.put_spent token none
  simp only [Option.map_none] at hput
  simp [del, Ledger.keyspace, ← hput]

@[simp]
theorem zrem_notes : zrem .notes id env ledger.keyspace
    = some ((), (ledger.setIndex (ledger.index.erase id)).keyspace) := by
  simp [zrem]

@[simp]
theorem zrem_challenges : zrem .challenges token env ledger.keyspace
    = some ((), (ledger.setChallenges (ledger.challenges.erase token)).keyspace) := by
  simp [zrem]

@[simp]
theorem hdel_charges : hdel .charges id env ledger.keyspace
    = some ((), (ledger.setCharges (ledger.charges.erase id)).keyspace) := by
  simp [hdel, ← FiniteMap.mapValues_erase]

@[simp]
theorem hset_charges (charge : Nat) : hset .charges [(id, tostring charge)] env ledger.keyspace
    = some ((), (ledger.setCharges (ledger.charges.insert id charge)).keyspace) := by
  simp [hset, ← FiniteMap.mapValues_insert]

@[simp]
theorem zadd_notes (score : Nat) : zadd .notes score id env ledger.keyspace
    = some ((), (ledger.setIndex (ledger.index.insert id score)).keyspace) := by
  simp [zadd]

@[simp]
theorem zadd_challenges (score : Nat) : zadd .challenges score token env ledger.keyspace
    = some ((), (ledger.setChallenges (ledger.challenges.insert token score)).keyspace) := by
  simp [zadd]

@[simp]
theorem zremrangebyscore_challenges (max : Nat)
    : zremrangebyscore .challenges max env ledger.keyspace
        = some ((), (ledger.setChallenges
            (ledger.challenges.filterValues fun score => !(score ≤ max : Bool))).keyspace) := by
  simp [zremrangebyscore]

theorem hset_note {note : Note} (h : ledger.notes id = none) (hnew : note.expireAt = none)
    : hset (.note id) note.pairs env ledger.keyspace
        = some ((), (ledger.setNote id (some note)).keyspace) := by
  have hput := ledger.put_note id (some note)
  have hfields : note.pairs.foldl (fun fields x => fields.insert x.1 x.2) ∅ = note.fields := rfl
  rw [← hput]
  simp [hset, Keyspace.hash?, Keyspace.putHash, Keyspace.expireAt, Ledger.keyspace, h, Note.entry,
    hnew, Entry.ofHash, hfields]

theorem expireat_note {note : Note} (h : ledger.notes id = some note) (second : Nat)
    : expireat (.note id) second env ledger.keyspace
        = some (1, (ledger.setNote id (note.stamped env.now (1000 * second))).keyspace) := by
  rw [← Ledger.put_note, ← Note.stamped_entry]
  simp [expireat, Ledger.keyspace, h]

theorem hincrby_note {note : Note} (h : ledger.notes id = some note) (hsome : 1 ≤ note.remaining)
    : ∃ count, hincrby (.note id) Field.remaining (-1) env ledger.keyspace
        = some (count,
            (ledger.setNote id (some { note with remaining := note.remaining - 1 })).keyspace) := by
  have hleft : ((note.remaining : Int) + -1) = ((note.remaining - 1 : Nat) : Int) := by omega
  have hput := ledger.put_note id (some { note with remaining := note.remaining - 1 })
  refine ⟨((note.remaining - 1 : Nat) : Int), ?_⟩
  have hfields : note.fields.insert Field.remaining
      (Decimal.printInt ((note.remaining - 1 : Nat) : Int))
        = { note with remaining := note.remaining - 1 }.fields :=
    note.insert_remaining _
  rw [← hput]
  simp [hincrby, ledger.hash?_note h, tostring, Decimal.parseInt?_print, hleft, hfields,
    Keyspace.putHash, Keyspace.expireAt, Ledger.keyspace, h, Note.entry, Entry.ofHash]

theorem setNewExat_spent {second : Nat} (h : ledger.spent token = none)
    (hfuture : env.now < 1000 * second)
    : setNewExat (.spent token) (asBytes "1") second env ledger.keyspace
        = some (true, (ledger.setSpent token (some (1000 * second))).keyspace) := by
  have hput := ledger.put_spent token (some (1000 * second))
  have hpositive : second ≠ 0 := by omega
  rw [← hput]
  simp [setNewExat, setNew, hpositive, Ledger.keyspace, h, Entry.stamped, Nat.not_le.mpr hfuture]

theorem setNewEx_challenge_taken {lease : Lease} {value : Bytes} {seconds : Nat}
    (h : ledger.leases token = some lease) (hpositive : seconds ≠ 0)
    : setNewEx (.challenge token) value seconds env ledger.keyspace
        = some (false, ledger.keyspace) := by
  simp [setNewEx, setNew, hpositive, Ledger.keyspace, h]

theorem setNewEx_challenge {seconds expires bits : Nat} (h : ledger.leases token = none)
    (hpositive : seconds ≠ 0)
    : setNewEx (.challenge token) (tostring expires ++ asBytes ":" ++ tostring bits) seconds env
          ledger.keyspace
        = some (true, (ledger.setLease token
            (some { expires, bits, expireAt := env.now + 1000 * seconds })).keyspace) := by
  have hput := ledger.put_challenge token
    (some { expires, bits, expireAt := env.now + 1000 * seconds })
  rw [← hput]
  simp [setNewEx, setNew, hpositive, Ledger.keyspace, h, Entry.stamped, Lease.entry, Lease.value]

end Commands

end Store
