import Erase.Library.Lists
import Erase.Server.Protocol

/-!
The nonces that the server takes, the digests that it takes as work, and what is hashed for them.
-/

namespace Server

theorem asBytes_injective : Function.Injective asBytes := by
  intro left right h
  exact String.toList_injective (Utf8.encode_injective h)

theorem asBytes_append (left right : String)
    : asBytes (left ++ right) = asBytes left ++ asBytes right := by
  unfold asBytes
  rw [String.toList_append, Utf8.encode_append]

theorem string_codes (n : Nat) : Ascii.string (Decimal.codes n) = toString n := by
  unfold Ascii.string Ascii.chars Decimal.codes
  rw [List.map_map]
  have hid : Char.ofNat ∘ Char.toNat = id := by
    funext c
    exact Char.ofNat_toNat c
  rw [hid, List.map_id]
  rfl

theorem asBytes_toString (n : Nat) : asBytes (toString n) = Decimal.print n := by
  rw [← string_codes]
  exact Ascii.encode_toList_string (Decimal.isAscii_codes n)

theorem parseUnsigned?_print {width n : Nat}
    : parseUnsigned? width (Decimal.print n) = if n < 2 ^ width then some n else none := by
  unfold parseUnsigned?
  split
  . next rest h =>
    have hdigit : Decimal.isDigit (43 : UInt8).toNat = true :=
      Decimal.isDigit_of_mem_print (n := n) (by simp [h])
    simp [Decimal.isDigit] at hdigit
  . dsimp only
    rw [Decimal.parse?_print, Option.filter_some]
    simp only [decide_eq_true_eq]

theorem validNonce_toString {n : Nat} (h : n ≤ 9007199254740991) : validNonce (toString n) = true := by
  have hlength : (Decimal.print n).length ≤ 16 := by
    unfold Decimal.print
    rw [Ascii.length_bytes]
    exact Decimal.length_codes_le (by decide) (by omega)
  have hdigits : (Decimal.print n).all (fun byte => Decimal.isDigit byte.toNat) = true :=
    List.all_eq_true.mpr fun byte hbyte => Decimal.isDigit_of_mem_print hbyte
  have hzero : 1 < (Decimal.print n).length → (Decimal.print n).head? ≠ some 48 := by
    intro hlong hhead
    have hmap := Ascii.map_toNat_bytes (Decimal.isAscii_codes n)
    by_cases hn : n = 0
    . rw [hn] at hlong
      exact absurd hlong (by decide)
    . rcases Decimal.head?_codes hn with ⟨code, rest, hcodes, hcode⟩
      rw [hcodes] at hmap
      unfold Decimal.print at hhead
      rw [hcodes] at hhead
      have hbyte : UInt8.ofNat code = 48 := Option.some.inj hhead
      have hsame : (UInt8.ofNat code).toNat = code := (List.cons.inj hmap).1
      rw [hbyte] at hsame
      exact hcode hsame.symm
  unfold validNonce
  dsimp only
  rw [asBytes_toString, parseUnsigned?_print, if_pos (by omega)]
  simp [Decimal.print_ne_nil, hlength, hdigits, h]
  exact Classical.or_iff_not_imp_left.mpr fun hlong => hzero (by omega)

theorem validNonce_iff {nonce : String}
    : validNonce nonce = true ↔ ∃ n, n ≤ 9007199254740991 ∧ nonce = toString n := by
  constructor
  . intro h
    unfold validNonce at h
    simp only [Bool.and_eq_true, decide_eq_true_eq, Bool.not_eq_true', Bool.and_eq_false_iff,
      decide_eq_false_iff_not] at h
    rcases h with ⟨⟨⟨⟨hne, -⟩, hdigits⟩, hzero⟩, hparse⟩
    have hall : ((asBytes nonce).map UInt8.toNat).all Decimal.isDigit = true := by
      rw [List.all_map]
      exact hdigits
    have hcodes : Decimal.codes (Decimal.value ((asBytes nonce).map UInt8.toNat))
        = (asBytes nonce).map UInt8.toNat := by
      apply Decimal.codes_value (by simpa using hne) hall
      intro hlong hhead
      rw [List.length_map] at hlong
      rcases hzero with hzero | hzero
      . exact hzero hlong
      . apply hzero
        rw [List.head?_map, Option.map_eq_some_iff] at hhead
        rcases hhead with ⟨byte, hbyte, hcode⟩
        rw [hbyte]
        exact congrArg some (UInt8.toNat_inj.mp hcode)
    have hprint : asBytes nonce = Decimal.print (Decimal.value ((asBytes nonce).map UInt8.toNat)) := by
      unfold Decimal.print Ascii.bytes
      have hid : UInt8.ofNat ∘ UInt8.toNat = id := by
        funext byte
        exact UInt8.ofNat_toNat
      rw [hcodes, List.map_map, hid, List.map_id]
    rw [hprint, parseUnsigned?_print] at hparse
    refine ⟨Decimal.value ((asBytes nonce).map UInt8.toNat), ?_, ?_⟩
    . split at hparse
      . simpa using hparse
      . cases hparse
    . apply asBytes_injective
      rw [asBytes_toString, ← hprint]
  . rintro ⟨n, hn, rfl⟩
    exact validNonce_toString hn

-- The test that ends `verify_work`.
def hasWork (hash : Bytes) (bits : Nat) : Except Failure Bool := do
  let full := bits / 8
  let remainder := bits % 8
  if !(← slice hash 0 full).all (· = 0) then return false
  if remainder = 0 then return true
  match hash[full]? with
  | none => .error .panic
  | some byte => return byte.toNat >>> (8 - remainder) = 0

def workBytes (sha256 : Bytes → Bytes) (challenge nonce : String) (packet : Bytes) : Bytes :=
  asBytes (challenge ++ "." ++ digest sha256 packet ++ "." ++ nonce)

theorem verifyWork_eq {sha256 : Bytes → Bytes} {challenge nonce : String} (packet : Bytes) {bits : Nat}
    (hchallenge : validId challenge = true) (hnonce : validNonce nonce = true)
    (hbits : 1 ≤ bits ∧ bits ≤ 24)
    : verifyWork sha256 challenge nonce packet bits
        = hasWork (sha256 (workBytes sha256 challenge nonce packet)) bits := by
  unfold verifyWork
  rw [hchallenge, hnonce, decide_eq_true hbits.1, decide_eq_true hbits.2]
  rfl

theorem hasWork_eq {hash : Bytes} (hlength : hash.length = 32) {bits : Nat} (hbits : bits ≤ 24)
    : hasWork hash bits = .ok (decide (hash.toNatBE < 2 ^ (256 - bits))) := by
  have hiff := @Bytes.toNatBE_lt_two_pow_iff hash bits (by omega)
  rw [hlength] at hiff
  have hfull : bits / 8 < hash.length := by omega
  have hslice : slice hash 0 (bits / 8) = .ok (hash.take (bits / 8)) := by
    rw [slice_eq_ok_iff]
    exact ⟨by omega, by simp⟩
  have hzeros : (hash.take (bits / 8)).all (· = 0) = true ↔ ∀ i < bits / 8, hash[i]? = some 0 := by
    rw [List.all_eq_true]
    constructor
    . intro h i hi
      have hlt : i < hash.length := by omega
      have hmem : hash[i] ∈ hash.take (bits / 8) := by
        rw [List.mem_take_iff_getElem]
        exact ⟨i, by omega, rfl⟩
      rw [List.getElem?_eq_getElem hlt]
      exact congrArg some (of_decide_eq_true (h _ hmem))
    . intro h byte hmem
      rcases List.mem_take_iff_getElem.mp hmem with ⟨i, hi, rfl⟩
      have hzero := h i (by omega)
      rw [List.getElem?_eq_getElem (by omega)] at hzero
      exact decide_eq_true (Option.some.inj hzero)
  rw [← hzeros, List.getElem?_eq_getElem hfull] at hiff
  unfold hasWork
  dsimp only
  rw [hslice, Except.ok_bind, List.getElem?_eq_getElem hfull]
  dsimp only
  rw [Nat.shiftRight_eq_div_pow]
  by_cases hall : (hash.take (bits / 8)).all (· = 0) = true
  . rw [if_neg (by simp [hall])]
    split
    . next hremainder =>
      rw [decide_eq_true (hiff.mpr ⟨hall, .inl hremainder⟩)]
      rfl
    . next hremainder =>
      have hbyte := hiff.trans (and_iff_right hall)
      rw [or_iff_right hremainder, Option.getD_some] at hbyte
      rw [← decide_eq_decide.mpr hbyte]
      rfl
  . rw [if_pos (by simpa using hall), decide_eq_false fun hlt => hall (hiff.mp hlt).1]
    rfl

theorem asBytes_dot : asBytes "." = [46] := by decide

theorem not_mem_asBytes_nonce {nonce : String} (h : validNonce nonce = true) : 46 ∉ asBytes nonce := by
  rcases validNonce_iff.mp h with ⟨n, -, rfl⟩
  rw [asBytes_toString]
  intro hmem
  have hdigit := Decimal.isDigit_of_mem_print hmem
  simp [Decimal.isDigit] at hdigit

theorem asBytes_digest (sha256 : Bytes → Bytes) (bytes : Bytes)
    : asBytes (digest sha256 bytes) = Ascii.bytes (Hex.encode (sha256 bytes)) :=
  Ascii.encode_toList_string (Hex.isAscii_encode _)

theorem not_mem_asBytes_digest (sha256 : Bytes → Bytes) (bytes : Bytes)
    : 46 ∉ asBytes (digest sha256 bytes) := by
  rw [asBytes_digest]
  intro hmem
  have hcode := List.mem_map_of_mem (f := UInt8.toNat) hmem
  rw [Ascii.map_toNat_bytes (Hex.isAscii_encode _)] at hcode
  have hdigit := List.all_eq_true.mp (Hex.all_isDigit_encode _) _ hcode
  simp [Hex.isDigit] at hdigit

theorem workBytes_eq (sha256 : Bytes → Bytes) (challenge nonce : String) (packet : Bytes)
    : workBytes sha256 challenge nonce packet
        = (asBytes challenge ++ 46 :: asBytes (digest sha256 packet)) ++ 46 :: asBytes nonce := by
  unfold workBytes
  simp [asBytes_append, asBytes_dot]

-- Only the challenge can contain a dot.
theorem workBytes_injective {sha256 : Bytes → Bytes} {challenge challenge' nonce nonce' : String}
    {packet packet' : Bytes} (hnonce : validNonce nonce = true) (hnonce' : validNonce nonce' = true)
    (h : workBytes sha256 challenge nonce packet = workBytes sha256 challenge' nonce' packet')
    : challenge = challenge' ∧ digest sha256 packet = digest sha256 packet' ∧ nonce = nonce' := by
  rw [workBytes_eq, workBytes_eq] at h
  rcases List.append_cons_inj_of_not_mem (not_mem_asBytes_nonce hnonce) (not_mem_asBytes_nonce hnonce') h
    with ⟨hfront, hlast⟩
  rcases List.append_cons_inj_of_not_mem (not_mem_asBytes_digest _ _) (not_mem_asBytes_digest _ _) hfront
    with ⟨hchallenge, hdigest⟩
  exact ⟨asBytes_injective hchallenge, asBytes_injective hdigest, asBytes_injective hlast⟩

end Server
