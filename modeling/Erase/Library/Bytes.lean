import Mathlib.Data.List.Basic
import Mathlib.Tactic.Positivity
import Mathlib.Tactic.Ring

/-!
Byte strings, fixed width big-endian integers and in-place writes into a fixed size buffer.
-/

abbrev Bytes := List UInt8

abbrev ByteString (length : Nat) := {bytes : Bytes // bytes.length = length}

def ByteString.replicate (length : Nat) (byte : UInt8) : ByteString length :=
  ⟨List.replicate length byte, List.length_replicate⟩

namespace Bytes

/--
The `width` bytes of `n` modulo `256 ^ width`, most significant byte first.
-/
def ofNatBE : (width : Nat) → (n : Nat) → Bytes
  | 0, _ => []
  | width + 1, n => UInt8.ofNat (n / 256 ^ width) :: ofNatBE width n

def toNatBE (bytes : Bytes) : Nat :=
  match bytes with
  | [] => 0
  | byte :: rest => byte.toNat * 256 ^ rest.length + toNatBE rest

@[simp]
theorem length_ofNatBE (width n : Nat) : (ofNatBE width n).length = width := by
  induction width with
  | zero => rfl
  | succ width ih => simp [ofNatBE, ih]

theorem toNatBE_lt (bytes : Bytes) : toNatBE bytes < 256 ^ bytes.length := by
  induction bytes with
  | nil => simp [toNatBE]
  | cons byte rest ih =>
    have hbyte : byte.toNat + 1 ≤ 256 := byte.toNat_lt
    have hmul := Nat.mul_le_mul_right (256 ^ rest.length) hbyte
    simp only [toNatBE, List.length_cons, Nat.pow_succ]
    rw [Nat.add_mul] at hmul
    omega

theorem toNatBE_ofNatBE_mod (width n : Nat) : toNatBE (ofNatBE width n) = n % 256 ^ width := by
  induction width with
  | zero => simp [ofNatBE, toNatBE, Nat.mod_one]
  | succ width ih =>
    simp only [ofNatBE, toNatBE, length_ofNatBE, ih]
    have hbyte : (UInt8.ofNat (n / 256 ^ width)).toNat = n / 256 ^ width % 256 := by simp
    rw [hbyte, Nat.pow_succ, Nat.mod_mul]
    ring

theorem toNatBE_ofNatBE {width n : Nat} (h : n < 256 ^ width) :
    toNatBE (ofNatBE width n) = n := by
  rw [toNatBE_ofNatBE_mod, Nat.mod_eq_of_lt h]

theorem ofNatBE_add_mul (width n k : Nat) : ofNatBE width (n + k * 256 ^ width) = ofNatBE width n := by
  induction width generalizing k with
  | zero => rfl
  | succ width ih =>
    have hpow : k * 256 ^ (width + 1) = (k * 256) * 256 ^ width := by ring
    simp only [ofNatBE]
    rw [hpow, ih, Nat.add_mul_div_right _ _ (by positivity)]
    congr 1
    apply UInt8.toNat.inj
    simp

@[simp]
theorem ofNatBE_toNatBE (bytes : Bytes) : ofNatBE bytes.length (toNatBE bytes) = bytes := by
  induction bytes with
  | nil => rfl
  | cons byte rest ih =>
    simp only [List.length_cons, ofNatBE, toNatBE]
    rw [Nat.add_comm, ofNatBE_add_mul, ih, Nat.add_mul_div_right _ _ (by positivity),
      Nat.div_eq_of_lt (toNatBE_lt rest)]
    simp

-- A byte string below a power of two starts with that many fewer zero bits: whole zero bytes, and the
-- upper bits of the next one.
theorem toNatBE_lt_two_pow_iff (bytes : Bytes) {bits : Nat} (h : bits ≤ 8 * bytes.length)
    : toNatBE bytes < 2 ^ (8 * bytes.length - bits)
        ↔ (∀ i < bits / 8, bytes[i]? = some 0)
          ∧ (bits % 8 = 0 ∨ (bytes[bits / 8]?.getD 0).toNat / 2 ^ (8 - bits % 8) = 0) := by
  induction bytes generalizing bits with
  | nil =>
    obtain rfl : bits = 0 := by simpa using h
    simp [toNatBE]
  | cons byte rest ih =>
    rw [List.length_cons] at h ⊢
    have hrest := toNatBE_lt rest
    have hpow : 256 ^ rest.length = 2 ^ (8 * rest.length) := by
      rw [Nat.pow_mul]
    unfold toNatBE
    rw [hpow] at hrest ⊢
    by_cases hbits : bits < 8
    . have hsplit : 2 ^ (8 * (rest.length + 1) - bits) = 2 ^ (8 - bits) * 2 ^ (8 * rest.length) := by
        rw [← Nat.pow_add]
        congr 1
        omega
      have hbelow : byte.toNat * 2 ^ (8 * rest.length) + toNatBE rest
            < 2 ^ (8 - bits) * 2 ^ (8 * rest.length)
          ↔ byte.toNat < 2 ^ (8 - bits) := by
        constructor
        . intro hlt
          exact Nat.lt_of_mul_lt_mul_right (Nat.lt_of_le_of_lt (Nat.le_add_right _ _) hlt)
        . intro hlt
          have hmul := Nat.mul_le_mul_right (2 ^ (8 * rest.length)) hlt
          rw [Nat.succ_mul] at hmul
          omega
      have hfull : bits / 8 = 0 := Nat.div_eq_of_lt hbits
      rw [hsplit, hbelow, hfull, Nat.mod_eq_of_lt hbits]
      have hbyte := byte.toNat_lt
      by_cases hzero : bits = 0
      . simp [hzero]
        omega
      . simp [hzero, Nat.div_eq_zero_iff]
    . have hless : bits - 8 ≤ 8 * rest.length := by omega
      have hfull : bits / 8 = (bits - 8) / 8 + 1 := by omega
      have hmod : bits % 8 = (bits - 8) % 8 := by omega
      have hexponent : 8 * (rest.length + 1) - bits = 8 * rest.length - (bits - 8) := by omega
      have hle : 2 ^ (8 * rest.length - (bits - 8)) ≤ 2 ^ (8 * rest.length) :=
        Nat.pow_le_pow_right (by decide) (Nat.sub_le _ _)
      have hbelow : byte.toNat * 2 ^ (8 * rest.length) + toNatBE rest
            < 2 ^ (8 * rest.length - (bits - 8))
          ↔ byte = 0 ∧ toNatBE rest < 2 ^ (8 * rest.length - (bits - 8)) := by
        constructor
        . intro hlt
          have hbyte : byte.toNat < 1 := by
            apply Nat.lt_of_mul_lt_mul_right (a := 2 ^ (8 * rest.length))
            omega
          exact ⟨UInt8.toNat_inj.mp (Nat.lt_one_iff.mp hbyte), by omega⟩
        . rintro ⟨rfl, hlt⟩
          simpa using hlt
      rw [hexponent, hbelow, ih hless, hfull, hmod]
      constructor
      . rintro ⟨rfl, hzeros, hbyte⟩
        refine ⟨fun i hi => ?_, by simpa using hbyte⟩
        cases i with
        | zero => rfl
        | succ i => simpa using hzeros i (by omega)
      . rintro ⟨hzeros, hbyte⟩
        have hhead := hzeros 0 (by omega)
        refine ⟨by simpa using hhead, fun i hi => ?_, by simpa using hbyte⟩
        simpa using hzeros (i + 1) (by omega)

/--
The `count` bytes from `offset` on, when the buffer has that many.
-/
def read (buffer : Bytes) (offset count : Nat) : Option Bytes :=
  if offset + count ≤ buffer.length then some ((buffer.drop offset).take count) else none

/--
Overwrite the bytes from `offset` on with `part`, when it fits the buffer.
-/
def write (buffer : Bytes) (offset : Nat) (part : Bytes) : Option Bytes :=
  if offset + part.length ≤ buffer.length then
    some (buffer.take offset ++ part ++ buffer.drop (offset + part.length))
  else
    none

theorem read_eq_some {buffer : Bytes} {offset count : Nat} (h : offset + count ≤ buffer.length) :
    buffer.read offset count = some ((buffer.drop offset).take count) := by
  simp [read, h]

theorem read_length {buffer part : Bytes} {offset count : Nat}
    (h : buffer.read offset count = some part) : part.length = count := by
  unfold read at h
  split at h
  . simp only [Option.some.injEq] at h
    subst h
    simp only [List.length_take, List.length_drop]
    omega
  . contradiction

/--
A write just behind a prefix of the buffer extends that prefix.
-/
theorem write_append {front part back : Bytes} (h : part.length ≤ back.length) :
    (front ++ back).write front.length part = some (front ++ part ++ back.drop part.length) := by
  simp [write, List.drop_append, h]

/--
`part` stands in `bytes` from `offset` on.
-/
def At (bytes : Bytes) (offset : Nat) (part : Bytes) : Prop := part <+: bytes.drop offset

theorem At.length_le {bytes part : Bytes} {offset : Nat} (h : bytes.At offset part)
    (hpart : part ≠ [])
    : offset + part.length ≤ bytes.length := by
  have hle := List.IsPrefix.length_le h
  have hpos := List.length_pos_iff.mpr hpart
  rw [List.length_drop] at hle
  omega

theorem At.take_eq {bytes part : Bytes} {offset : Nat} (h : bytes.At offset part)
    : (bytes.drop offset).take part.length = part :=
  (List.prefix_iff_eq_take.mp h).symm

theorem at_take (bytes : Bytes) (offset count : Nat)
    : bytes.At offset ((bytes.drop offset).take count) :=
  List.take_prefix _ _

theorem at_append {bytes left right : Bytes} {offset : Nat}
    : bytes.At offset (left ++ right)
        ↔ bytes.At offset left ∧ bytes.At (offset + left.length) right := by
  unfold At
  constructor
  . intro h
    rcases h with ⟨tail, htail⟩
    rw [List.append_assoc] at htail
    refine ⟨⟨right ++ tail, htail⟩, tail, ?_⟩
    rw [← List.drop_drop, ← htail, List.drop_left]
  . intro h
    rcases h with ⟨⟨rest, hrest⟩, tail, htail⟩
    rw [← List.drop_drop, ← hrest, List.drop_left] at htail
    refine ⟨tail, ?_⟩
    rw [List.append_assoc, htail, hrest]

theorem read_eq_some_iff {bytes part : Bytes} {offset count : Nat} (hcount : 0 < count)
    : bytes.read offset count = some part ↔ part.length = count ∧ bytes.At offset part := by
  constructor
  . intro h
    refine ⟨read_length h, ?_⟩
    unfold read at h
    split at h
    . simp only [Option.some.injEq] at h
      rw [← h]
      apply at_take
    . contradiction
  . intro h
    rcases h with ⟨hlength, hat⟩
    have hne : part ≠ [] := by
      apply List.ne_nil_of_length_pos
      omega
    have hle := hat.length_le hne
    rw [read_eq_some (by omega), ← hlength, hat.take_eq]

theorem write_extends {buffer front part : Bytes} {offset : Nat} (hfront : front <+: buffer)
    (hoffset : front.length = offset) (hfit : offset + part.length ≤ buffer.length)
    : ∃ out, buffer.write offset part = some out ∧ (front ++ part) <+: out
        ∧ out.length = buffer.length := by
  rcases hfront with ⟨back, rfl⟩
  subst hoffset
  rw [List.length_append] at hfit
  refine ⟨_, write_append (by omega), ⟨_, rfl⟩, ?_⟩
  simp only [List.length_append, List.length_drop]
  omega

end Bytes
