import Mathlib.Data.List.Sort
import Erase.Library.Decimal
import Erase.Library.FiniteMap
import Erase.Library.Lists
import Erase.Library.Script

/-!
A keyspace of strings, hashes and sorted sets with native expiry, and the commands on it. Times are
milliseconds of one clock, except where a command counts in seconds.
-/

inductive Kind where
  | string
  | hash
  | zset
  deriving DecidableEq, Repr

inductive Value where
  | string (bytes : Bytes)
  | hash (fields : FiniteMap Bytes Bytes)
  | zset (members : FiniteMap Bytes Nat)
  deriving DecidableEq

structure Entry where
  value : Value
  expireAt : Option Nat
  deriving DecidableEq

abbrev Keyspace (K : Type) := K → Option Entry

def Value.kind : Value → Kind
  | .string _ => .string
  | .hash _ => .hash
  | .zset _ => .zset

-- A deadline that is not in the future deletes at once.
def Entry.stamped (now deadline : Nat) (value : Value) : Option Entry :=
  if deadline ≤ now then none else some { value, expireAt := some deadline }

def Entry.isPast (now : Nat) : Option Nat → Bool
  | none => false
  | some deadline => deadline ≤ now

theorem Entry.isPast_iff {now : Nat} {deadline? : Option Nat}
    : Entry.isPast now deadline? = true ↔ ∃ deadline, deadline? = some deadline ∧ deadline ≤ now := by
  cases deadline? with
  | none => simp [Entry.isPast]
  | some deadline => simp [Entry.isPast]

-- An empty hash or sorted set is no key at all.
def Entry.ofHash (expireAt : Option Nat) (fields : FiniteMap Bytes Bytes) : Option Entry :=
  if fields = ∅ then none else some { value := .hash fields, expireAt }

def Entry.ofZset (expireAt : Option Nat) (members : FiniteMap Bytes Nat) : Option Entry :=
  if members = ∅ then none else some { value := .zset members, expireAt }

theorem Entry.ofHash_kind (expireAt : Option Nat) (fields : FiniteMap Bytes Bytes)
    : Entry.ofHash expireAt fields = none
        ∨ ∃ entry, Entry.ofHash expireAt fields = some entry ∧ entry.value.kind = .hash := by
  unfold Entry.ofHash
  split
  . exact .inl rfl
  . exact .inr ⟨_, rfl, rfl⟩

theorem Entry.ofZset_kind (expireAt : Option Nat) (members : FiniteMap Bytes Nat)
    : Entry.ofZset expireAt members = none
        ∨ ∃ entry, Entry.ofZset expireAt members = some entry ∧ entry.value.kind = .zset := by
  unfold Entry.ofZset
  split
  . exact .inl rfl
  . exact .inr ⟨_, rfl, rfl⟩

namespace SortedSet

-- Members of equal score are ordered by their bytes.
def Ranked (left right : Sigma fun _ : Bytes => Nat) : Prop :=
  left.2 < right.2 ∨ left.2 = right.2 ∧ left.1 ≤ right.1

instance : DecidableRel Ranked := fun left right =>
  inferInstanceAs (Decidable (left.2 < right.2 ∨ left.2 = right.2 ∧ left.1 ≤ right.1))

instance : Std.Total Ranked where
  total left right := by
    rcases Nat.lt_trichotomy left.2 right.2 with h | h | h
    . exact .inl (.inl h)
    . rcases List.le_total left.1 right.1 with hle | hle
      . exact .inl (.inr ⟨h, hle⟩)
      . exact .inr (.inr ⟨h.symm, hle⟩)
    . exact .inr (.inl h)

instance : IsTrans (Sigma fun _ : Bytes => Nat) Ranked where
  trans a b c := by
    rintro (hab | ⟨hab, hab'⟩) (hbc | ⟨hbc, hbc'⟩)
    . exact .inl (Nat.lt_trans hab hbc)
    . exact .inl (hbc ▸ hab)
    . exact .inl (hab ▸ hbc)
    . exact .inr ⟨hab.trans hbc, List.le_trans hab' hbc'⟩

instance : Std.Antisymm Ranked where
  antisymm := by
    rintro ⟨a, m⟩ ⟨b, n⟩ h h'
    simp only [Ranked] at h h'
    have hscore : m = n := by omega
    subst hscore
    have hle : a ≤ b := by
      rcases h with h | h
      . omega
      . exact h.2
    have hge : b ≤ a := by
      rcases h' with h' | h'
      . omega
      . exact h'.2
    rw [List.le_antisymm hle hge]

def ranked (members : FiniteMap Bytes Nat) : List Bytes :=
  Quot.liftOn members.entries (fun entries => (entries.insertionSort Ranked).map Sigma.fst) (by
    intro left right hperm
    have hsorted : (left.insertionSort Ranked).Perm (right.insertionSort Ranked) :=
      (List.perm_insertionSort _ _).trans (hperm.trans (List.perm_insertionSort _ _).symm)
    rw [hsorted.eq_of_pairwise' (List.pairwise_insertionSort _ _)
      (List.pairwise_insertionSort _ _)])

theorem coe_ranked (members : FiniteMap Bytes Nat)
    : (ranked members : Multiset Bytes) = members.entries.keys := by
  rcases members with ⟨entries, hnodup⟩
  induction entries using Quot.ind with
  | mk entries =>
    have hperm := (List.perm_insertionSort Ranked entries).map Sigma.fst
    exact Quot.sound hperm

theorem length_ranked (members : FiniteMap Bytes Nat)
    : (ranked members).length = FiniteMap.size members := by
  have hcard := congrArg Multiset.card (coe_ranked members)
  rw [Multiset.coe_card] at hcard
  rw [hcard]
  exact Multiset.card_map _ _

theorem mem_ranked {members : FiniteMap Bytes Nat} {member : Bytes}
    : member ∈ ranked members ↔ member ∈ members := by
  rw [← Multiset.mem_coe, coe_ranked]
  rfl

theorem nodup_ranked (members : FiniteMap Bytes Nat) : (ranked members).Nodup := by
  rw [← Multiset.coe_nodup, coe_ranked]
  exact Multiset.nodup_keys.mpr members.nodupKeys

theorem ranked_filterValues (entries : List (Sigma fun _ : Bytes => Nat))
    (hnodup : (entries : Multiset (Sigma fun _ : Bytes => Nat)).NodupKeys)
    (p : Nat → Bool)
    : ranked (FiniteMap.filterValues p ⟨entries, hnodup⟩)
        = ((entries.insertionSort Ranked).filter fun entry => p entry.2).map Sigma.fst := by
  have hsorted : ((entries.filter fun entry => p entry.2).insertionSort Ranked).Perm
      ((entries.insertionSort Ranked).filter fun entry => p entry.2) :=
    (List.perm_insertionSort _ _).trans ((List.perm_insertionSort _ _).filter _).symm
  have hsame := hsorted.eq_of_pairwise' (List.pairwise_insertionSort _ _)
    ((List.pairwise_insertionSort _ _).filter _)
  rw [← hsame]
  change ((entries.filter fun entry => decide (p entry.2 = true)).insertionSort Ranked).map Sigma.fst = _
  simp only [Bool.decide_eq_true]

-- A lower bound on the scores keeps the members that come first.
theorem ranked_prefix (members : FiniteMap Bytes Nat) {low high : Nat} (h : low ≤ high)
    : ranked (members.filterValues fun score => score ≤ low)
        <+: ranked (members.filterValues fun score => score ≤ high) := by
  rcases members with ⟨entries, hnodup⟩
  induction entries using Quot.ind with
  | mk entries =>
    have hprefix : ((entries.insertionSort Ranked).filter fun entry => decide (entry.2 ≤ low))
        <+: ((entries.insertionSort Ranked).filter fun entry => decide (entry.2 ≤ high)) := by
      apply List.filter_prefix_filter
      . intro entry hlow
        have hlow := of_decide_eq_true hlow
        exact decide_eq_true (by omega)
      . apply (List.pairwise_insertionSort Ranked entries).imp
        rintro left right (hranked | hranked) hlow
        all_goals
          have hlow := of_decide_eq_true hlow
          exact decide_eq_true (by omega)
    have hmapped := hprefix.map Sigma.fst
    have hlow := ranked_filterValues entries hnodup fun score => score ≤ low
    have hhigh := ranked_filterValues entries hnodup fun score => score ≤ high
    rw [← hlow, ← hhigh] at hmapped
    exact hmapped

def upTo (members : FiniteMap Bytes Nat) (max limit : Nat) : List Bytes :=
  (ranked (members.filterValues fun score => score ≤ max)).take limit

theorem score_le_of_mem_upTo {members : FiniteMap Bytes Nat} {max limit : Nat} {member : Bytes}
    (h : member ∈ upTo members max limit)
    : ∃ score ≤ max, members.lookup member = some score := by
  have hmem := mem_ranked.mp (List.mem_of_mem_take h)
  rcases Finmap.mem_iff.mp hmem with ⟨score, hscore⟩
  rw [FiniteMap.lookup_filterValues, Option.filter_eq_some_iff] at hscore
  exact ⟨score, of_decide_eq_true hscore.2, hscore.1⟩

end SortedSet

namespace Keyspace

variable {K : Type}

-- A missing key reads as an empty value of each type. `none` is a value of another type.
def string? (keys : Keyspace K) (key : K) : Option (Option Bytes) :=
  match (keys key).map Entry.value with
  | none => some none
  | some (.string bytes) => some (some bytes)
  | some _ => none

def hash? (keys : Keyspace K) (key : K) : Option (FiniteMap Bytes Bytes) :=
  match (keys key).map Entry.value with
  | none => some ∅
  | some (.hash fields) => some fields
  | some _ => none

def zset? (keys : Keyspace K) (key : K) : Option (FiniteMap Bytes Nat) :=
  match (keys key).map Entry.value with
  | none => some ∅
  | some (.zset members) => some members
  | some _ => none

def expireAt (keys : Keyspace K) (key : K) : Option Nat := (keys key).bind Entry.expireAt

section

variable {keys : Keyspace K} {key : K} {expireAt : Option Nat}

theorem hash?_ofHash {fields : FiniteMap Bytes Bytes} (h : keys key = Entry.ofHash expireAt fields)
    : keys.hash? key = some fields := by
  by_cases hempty : fields = ∅
  . simp [hash?, h, Entry.ofHash, hempty]
  . simp [hash?, h, Entry.ofHash, hempty]

theorem zset?_ofZset {members : FiniteMap Bytes Nat} (h : keys key = Entry.ofZset expireAt members)
    : keys.zset? key = some members := by
  by_cases hempty : members = ∅
  . simp [zset?, h, Entry.ofZset, hempty]
  . simp [zset?, h, Entry.ofZset, hempty]

theorem expireAt_ofHash {fields : FiniteMap Bytes Bytes} (h : keys key = Entry.ofHash none fields)
    : keys.expireAt key = none := by
  unfold Keyspace.expireAt
  rw [h, Entry.ofHash]
  split <;> rfl

theorem expireAt_ofZset {members : FiniteMap Bytes Nat} (h : keys key = Entry.ofZset none members)
    : keys.expireAt key = none := by
  unfold Keyspace.expireAt
  rw [h, Entry.ofZset]
  split <;> rfl

end

variable [DecidableEq K]

def put (keys : Keyspace K) (key : K) (entry : Option Entry) : Keyspace K :=
  Function.update keys key entry

def putHash (keys : Keyspace K) (key : K) (fields : FiniteMap Bytes Bytes) : Keyspace K :=
  keys.put key (Entry.ofHash (keys.expireAt key) fields)

def putZset (keys : Keyspace K) (key : K) (members : FiniteMap Bytes Nat) : Keyspace K :=
  keys.put key (Entry.ofZset (keys.expireAt key) members)

def expire (keys : Keyspace K) (now : Nat) (key : K) : Keyspace K :=
  if Entry.isPast now (keys.expireAt key) then keys.put key none else keys

end Keyspace

namespace Valkey

variable {K Site : Type} [DecidableEq K]

-- TYPE, without the name of the type of a missing key.
def type (key : K) : Command Site (Keyspace K) (Option Kind) := fun _ keys =>
  some ((keys key).map fun entry => entry.value.kind, keys)

def isPresent (key : K) : Command Site (Keyspace K) Bool := fun _ keys =>
  some ((keys key).isSome, keys)

def get (key : K) : Command Site (Keyspace K) (Option Bytes) := fun _ keys => do
  return (← keys.string? key, keys)

def set (key : K) (value : Bytes) : Command Site (Keyspace K) Unit := fun _ keys =>
  some ((), keys.put key (some { value := .string value, expireAt := none }))

-- SET with NX and a deadline. It answers whether the key was set.
def setNew (key : K) (value : Bytes) (deadline : Nat) : Command Site (Keyspace K) Bool :=
  fun env keys =>
    match keys key with
    | some _ => some (false, keys)
    | none => some (true, keys.put key (Entry.stamped env.now deadline (.string value)))

def setNewEx (key : K) (value : Bytes) (seconds : Nat) : Command Site (Keyspace K) Bool :=
  fun env keys =>
    if seconds = 0 then none else setNew key value (env.now + 1000 * seconds) env keys

def setNewExat (key : K) (value : Bytes) (second : Nat) : Command Site (Keyspace K) Bool :=
  fun env keys => if second = 0 then none else setNew key value (1000 * second) env keys

def del (key : K) : Command Site (Keyspace K) Nat := fun _ keys =>
  some (if (keys key).isSome then 1 else 0, keys.put key none)

def expireat (key : K) (second : Nat) : Command Site (Keyspace K) Nat := fun env keys =>
  match keys key with
  | none => some (0, keys)
  | some entry => some (1, keys.put key (Entry.stamped env.now (1000 * second) entry.value))

def hget (key : K) (field : Bytes) : Command Site (Keyspace K) (Option Bytes) := fun _ keys => do
  return ((← keys.hash? key).lookup field, keys)

def hset (key : K) (pairs : List (Bytes × Bytes)) : Command Site (Keyspace K) Unit :=
  fun _ keys => do
    let fields ← keys.hash? key
    return ((), keys.putHash key (pairs.foldl (fun fields (field, value) =>
      fields.insert field value) fields))

def hdel (key : K) (field : Bytes) : Command Site (Keyspace K) Unit := fun _ keys => do
  return ((), keys.putHash key ((← keys.hash? key).erase field))

def hlen (key : K) : Command Site (Keyspace K) Nat := fun _ keys => do
  return (FiniteMap.size (← keys.hash? key), keys)

def hexists (key : K) (field : Bytes) : Command Site (Keyspace K) Bool := fun _ keys => do
  return (decide (field ∈ (← keys.hash? key)), keys)

def hincrby (key : K) (field : Bytes) (increment : Int) : Command Site (Keyspace K) Int :=
  fun _ keys => do
    let fields ← keys.hash? key
    let old ← match fields.lookup field with
      | none => some 0
      | some value => Decimal.parseInt? value
    return (old + increment,
      keys.putHash key (fields.insert field (Decimal.printInt (old + increment))))

def zadd (key : K) (score : Nat) (member : Bytes) : Command Site (Keyspace K) Unit :=
  fun _ keys => do
    return ((), keys.putZset key ((← keys.zset? key).insert member score))

def zrem (key : K) (member : Bytes) : Command Site (Keyspace K) Unit := fun _ keys => do
  return ((), keys.putZset key ((← keys.zset? key).erase member))

def zcard (key : K) : Command Site (Keyspace K) Nat := fun _ keys => do
  return (FiniteMap.size (← keys.zset? key), keys)

-- ZRANGEBYSCORE from minus infinity, with LIMIT.
def zrangebyscore (key : K) (max limit : Nat) : Command Site (Keyspace K) (List Bytes) :=
  fun _ keys => do
    return (SortedSet.upTo (← keys.zset? key) max limit, keys)

-- ZREMRANGEBYSCORE from minus infinity.
def zremrangebyscore (key : K) (max : Nat) : Command Site (Keyspace K) Unit := fun _ keys => do
  return ((), keys.putZset key ((← keys.zset? key).filterValues fun score => !(score ≤ max : Bool)))

end Valkey
