import Erase.Library.Text

/-!
Decimal notation of natural numbers over ASCII codes, and its printed and parsed byte form.
-/

namespace Decimal

def isDigit (code : Nat) : Bool := 48 ≤ code && code ≤ 57

def codes (n : Nat) : List Nat := (Nat.toDigits 10 n).map Char.toNat

def value (codes : List Nat) : Nat := codes.foldl (fun acc code => 10 * acc + (code - 48)) 0

@[simp]
theorem value_codes (n : Nat) : value (codes n) = n := by
  rw [value, codes, List.foldl_map]
  exact Nat.ofDigitChars_ten_toDigits

theorem isDigit_of_mem_codes {n code : Nat} (h : code ∈ codes n) : isDigit code = true := by
  simp only [codes, List.mem_map] at h
  rcases h with ⟨c, hc, rfl⟩
  have hdigit := Nat.isDigit_of_mem_toDigits (by decide) (by decide) hc
  rw [Char.isDigit_iff_toNat] at hdigit
  simpa [isDigit] using hdigit

theorem codes_ne_nil (n : Nat) : codes n ≠ [] := by
  simp [codes, Nat.toDigits_ne_nil]

theorem codes_of_lt_ten {n : Nat} (h : n < 10) : codes n = [48 + n] := by
  rw [codes, Nat.toDigits_of_lt_base h]
  simp [Nat.toNat_digitChar_of_lt_ten h]

theorem codes_of_ten_le {n : Nat} (h : 10 ≤ n) : codes n = codes (n / 10) ++ [48 + n % 10] := by
  have hlt : n % 10 < 10 := Nat.mod_lt n (by decide)
  rw [codes, Nat.toDigits_of_base_le (by decide) h]
  simp [codes, Nat.toNat_digitChar_of_lt_ten hlt]

/--
Only zero itself is written with a leading zero.
-/
theorem head?_codes {n : Nat} (h : n ≠ 0) : ∃ code rest, codes n = code :: rest ∧ code ≠ 48 := by
  induction n using Nat.strongRecOn with
  | ind n ih =>
    by_cases hten : n < 10
    . exact ⟨48 + n, [], codes_of_lt_ten hten, by omega⟩
    . rcases ih (n / 10) (by omega) (by omega) with ⟨code, rest, hcodes, hcode⟩
      refine ⟨code, rest ++ [48 + n % 10], ?_, hcode⟩
      rw [codes_of_ten_le (by omega), hcodes]
      rfl

theorem length_codes_le {n k : Nat} (hk : 0 < k) (h : n < 10 ^ k) : (codes n).length ≤ k := by
  rw [codes, List.length_map]
  exact (Nat.length_toDigits_le_iff (by decide) hk).mpr h

theorem value_snoc (codes : List Nat) (code : Nat)
    : value (codes ++ [code]) = 10 * value codes + (code - 48) := by
  simp [value]

-- The notation of a number is the one without a leading zero.
theorem codes_value {digits : List Nat} (hne : digits ≠ []) (hall : digits.all isDigit = true)
    (hzero : 1 < digits.length → digits.head? ≠ some 48) : codes (value digits) = digits := by
  induction digits using List.reverseRecOn with
  | nil => exact absurd rfl hne
  | append_singleton digits code ih =>
    simp only [List.all_append, List.all_cons, List.all_nil, Bool.and_true, Bool.and_eq_true, isDigit,
      decide_eq_true_eq] at hall
    rcases hall with ⟨hall, hcode⟩
    rw [value_snoc]
    cases digits with
    | nil =>
      have hvalue : value [] = 0 := rfl
      rw [hvalue, codes_of_lt_ten (by omega)]
      simp
      omega
    | cons first rest =>
      have hfirst : first ≠ 48 := by simpa using hzero (by simp)
      have hshort := ih (by simp) hall (by simpa using fun _ => hfirst)
      have hpositive : value (first :: rest) ≠ 0 := by
        intro hvalue
        rw [hvalue] at hshort
        have hzeroCodes : codes 0 = [48] := codes_of_lt_ten (by decide)
        rw [hzeroCodes] at hshort
        exact hfirst (List.cons.inj hshort).1.symm
      have hdiv : (10 * value (first :: rest) + (code - 48)) / 10 = value (first :: rest) := by omega
      have hmod : 48 + (10 * value (first :: rest) + (code - 48)) % 10 = code := by omega
      rw [codes_of_ten_le (by omega), hdiv, hmod, hshort]

theorem isAscii_codes (n : Nat) : Ascii.IsAscii (codes n) := by
  intro code hcode
  have hdigit := isDigit_of_mem_codes hcode
  simp only [isDigit, Bool.and_eq_true, decide_eq_true_eq] at hdigit
  omega

def print (n : Nat) : Bytes := Ascii.bytes (codes n)

theorem isDigit_of_mem_print {n : Nat} {byte : UInt8} (h : byte ∈ print n)
    : isDigit byte.toNat = true := by
  apply isDigit_of_mem_codes (n := n)
  rw [← Ascii.map_toNat_bytes (isAscii_codes n)]
  exact List.mem_map_of_mem h

theorem print_ne_nil (n : Nat) : print n ≠ [] := by
  intro h
  have hcodes := Ascii.map_toNat_bytes (isAscii_codes n)
  rw [← print, h] at hcodes
  exact codes_ne_nil n hcodes.symm

/-- The number written by a nonempty sequence of ASCII digits. -/
def parse? (bytes : Bytes) : Option Nat :=
  let codes := bytes.map UInt8.toNat
  if codes ≠ [] ∧ codes.all isDigit then some (value codes) else none

@[simp]
theorem parse?_print (n : Nat) : parse? (print n) = some n := by
  have hall : (codes n).all isDigit = true :=
    List.all_eq_true.mpr fun code hcode => isDigit_of_mem_codes hcode
  simp [parse?, print, Ascii.map_toNat_bytes (isAscii_codes n), codes_ne_nil, hall]

theorem print_injective : Function.Injective print := by
  intro left right h
  have hparse := parse?_print left
  rw [h, parse?_print] at hparse
  exact (Option.some.inj hparse).symm

def printInt : Int → Bytes
  | .ofNat n => print n
  | .negSucc n => 45 :: print (n + 1)

def parseInt? : Bytes → Option Int
  | 45 :: digits => (parse? digits).map fun n => -(n : Int)
  | bytes => (parse? bytes).map fun n => (n : Int)

theorem parseInt?_print (n : Nat) : parseInt? (print n) = some (n : Int) := by
  unfold parseInt?
  split
  . next digits h =>
    have hparse := parse?_print n
    simp [h, parse?, isDigit] at hparse
  . rw [parse?_print]
    rfl

end Decimal
