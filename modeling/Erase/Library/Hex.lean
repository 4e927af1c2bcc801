import Erase.Library.Text

namespace Hex

def digitCode (digit : Nat) : Nat := if digit < 10 then 48 + digit else 87 + digit

def encode (bytes : Bytes) : List Nat :=
  bytes.flatMap fun byte => [digitCode (byte.toNat / 16), digitCode (byte.toNat % 16)]

def isDigit (code : Nat) : Bool := (97 ≤ code && code ≤ 102) || (48 ≤ code && code ≤ 57)

@[simp]
theorem length_encode (bytes : Bytes) : (encode bytes).length = 2 * bytes.length := by
  simp [encode, Nat.mul_comm]

theorem isDigit_digitCode {digit : Nat} (h : digit < 16) : isDigit (digitCode digit) = true := by
  unfold digitCode isDigit
  split
  . simp only [Bool.or_eq_true, Bool.and_eq_true, decide_eq_true_eq]
    omega
  . simp only [Bool.or_eq_true, Bool.and_eq_true, decide_eq_true_eq]
    omega

theorem all_isDigit_encode (bytes : Bytes) : (encode bytes).all isDigit = true := by
  rw [List.all_eq_true]
  intro code hcode
  simp only [encode, List.mem_flatMap, List.mem_cons, List.not_mem_nil, or_false] at hcode
  rcases hcode with ⟨byte, -, rfl | rfl⟩
  . have := byte.toNat_lt
    apply isDigit_digitCode
    omega
  . apply isDigit_digitCode
    omega

theorem isAscii_encode (bytes : Bytes) : Ascii.IsAscii (encode bytes) := by
  intro code hcode
  have hdigit := List.all_eq_true.mp (all_isDigit_encode bytes) code hcode
  simp only [isDigit, Bool.or_eq_true, Bool.and_eq_true, decide_eq_true_eq] at hdigit
  omega

end Hex
