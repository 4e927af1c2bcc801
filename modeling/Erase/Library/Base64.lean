import Erase.Library.Bytes
import Mathlib.Data.List.Map2
import Mathlib.Data.Option.Basic

/-!
Base64 (RFC 4648) over ASCII codes: the lenient decoder that ignores discarded bits, the strict one
that requires them to be zero, and the forgiving decoder of the web platform.
-/

namespace Base64

/--
An alphabet as the codes of the 64 digits together with their partial inverse.
-/
structure Alphabet where
  code : Fin 64 → Nat
  index? : Nat → Option (Fin 64)
  index?_code : ∀ digit, index? (code digit) = some digit
  code_of_index? : ∀ n digit, index? n = some digit → code digit = n

/-- The code of a digit, given the codes of the digits 62 and 63. -/
def digitCode (code62 code63 : Nat) (digit : Fin 64) : Nat :=
  if digit.val < 26 then 65 + digit.val
  else if digit.val < 52 then 97 + (digit.val - 26)
  else if digit.val < 62 then 48 + (digit.val - 52)
  else if digit.val = 62 then code62
  else code63

def digitIndex? (code62 code63 : Nat) (n : Nat) : Option (Fin 64) :=
  if h : 65 ≤ n ∧ n ≤ 90 then some ⟨n - 65, by omega⟩
  else if h : 97 ≤ n ∧ n ≤ 122 then some ⟨n - 97 + 26, by omega⟩
  else if h : 48 ≤ n ∧ n ≤ 57 then some ⟨n - 48 + 52, by omega⟩
  else if n = code62 then some 62
  else if n = code63 then some 63
  else none

theorem digitCode_of_digitIndex? (code62 code63 n : Nat) (digit : Fin 64)
    (h : digitIndex? code62 code63 n = some digit) : digitCode code62 code63 digit = n := by
  unfold digitIndex? at h
  repeat' split at h
  all_goals
    simp only [Option.some.injEq, reduceCtorEq] at h
    try subst h
  . simp only [digitCode]; split <;> omega
  . simp only [digitCode]; repeat' split
    all_goals omega
  . simp only [digitCode]; repeat' split
    all_goals omega
  . simp_all [digitCode]
  . simp_all [digitCode]

/-- `+` and `/` as the last two digits. -/
def standard : Alphabet where
  code := digitCode 43 47
  index? := digitIndex? 43 47
  index?_code := by decide
  code_of_index? := digitCode_of_digitIndex? 43 47

/-- `-` and `_` as the last two digits. -/
def urlSafe : Alphabet where
  code := digitCode 45 95
  index? := digitIndex? 45 95
  index?_code := by decide
  code_of_index? := digitCode_of_digitIndex? 45 95

def digit (n : Nat) : Fin 64 := Fin.ofNat 64 n

def toDigits : Bytes → List (Fin 64)
  | [] => []
  | [a] => [digit (a.toNat / 4), digit (a.toNat % 4 * 16)]
  | [a, b] => [digit (a.toNat / 4), digit (a.toNat % 4 * 16 + b.toNat / 16),
      digit (b.toNat % 16 * 4)]
  | a :: b :: c :: rest =>
    digit (a.toNat / 4) :: digit (a.toNat % 4 * 16 + b.toNat / 16) ::
      digit (b.toNat % 16 * 4 + c.toNat / 64) :: digit (c.toNat % 64) :: toDigits rest

/-- The bytes of a digit sequence. The bits of a last incomplete byte are dropped. -/
def ofDigits? : List (Fin 64) → Option Bytes
  | [] => some []
  | [_] => none
  | [p, q] => some [UInt8.ofNat (p.val * 4 + q.val / 16)]
  | [p, q, r] => some [UInt8.ofNat (p.val * 4 + q.val / 16),
      UInt8.ofNat (q.val % 16 * 16 + r.val / 4)]
  | p :: q :: r :: s :: rest =>
    (ofDigits? rest).map fun bytes =>
      UInt8.ofNat (p.val * 4 + q.val / 16) :: UInt8.ofNat (q.val % 16 * 16 + r.val / 4) ::
        UInt8.ofNat (r.val % 4 * 64 + s.val) :: bytes

/-- The dropped bits are zero. -/
def trailingZero : List (Fin 64) → Bool
  | [] => true
  | [_] => true
  | [_, q] => q.val % 16 = 0
  | [_, _, r] => r.val % 4 = 0
  | _ :: _ :: _ :: _ :: rest => trailingZero rest

theorem ofDigits?_toDigits (bytes : Bytes) : ofDigits? (toDigits bytes) = some bytes := by
  fun_induction toDigits bytes with
  | case1 => rfl
  | case2 a =>
    have := a.toNat_lt
    simp only [ofDigits?, digit, Fin.val_ofNat, Option.some.injEq, List.cons.injEq, and_true]
    apply UInt8.toNat.inj
    simp only [UInt8.toNat_ofNat']
    omega
  | case3 a b =>
    have := a.toNat_lt
    have := b.toNat_lt
    simp only [ofDigits?, digit, Fin.val_ofNat, Option.some.injEq, List.cons.injEq, and_true]
    constructor
    all_goals
      apply UInt8.toNat.inj
      simp only [UInt8.toNat_ofNat']
      omega
  | case4 a b c rest ih =>
    have := a.toNat_lt
    have := b.toNat_lt
    have := c.toNat_lt
    simp only [ofDigits?, digit, Fin.val_ofNat, ih, Option.map_some, Option.some.injEq,
      List.cons.injEq, and_true]
    refine ⟨?_, ?_, ?_⟩
    all_goals
      apply UInt8.toNat.inj
      simp only [UInt8.toNat_ofNat']
      omega

theorem toDigits_of_ofDigits? {digits : List (Fin 64)} {bytes : Bytes}
    (h : ofDigits? digits = some bytes) (hzero : trailingZero digits = true) :
    toDigits bytes = digits := by
  fun_induction ofDigits? digits generalizing bytes with
  | case1 =>
    simp only [Option.some.injEq] at h
    subst h
    rfl
  | case2 => contradiction
  | case3 p q =>
    simp only [Option.some.injEq] at h
    subst h
    simp only [trailingZero, decide_eq_true_eq] at hzero
    simp only [toDigits, digit, UInt8.toNat_ofNat', List.cons.injEq, and_true, Fin.ext_iff,
      Fin.val_ofNat]
    omega
  | case4 p q r =>
    simp only [Option.some.injEq] at h
    subst h
    simp only [trailingZero, decide_eq_true_eq] at hzero
    simp only [toDigits, digit, UInt8.toNat_ofNat', List.cons.injEq, and_true, Fin.ext_iff,
      Fin.val_ofNat]
    omega
  | case5 p q r s rest ih =>
    simp only [Option.map_eq_some_iff] at h
    rcases h with ⟨tail, htail, rfl⟩
    simp only [trailingZero] at hzero
    simp only [toDigits, ih htail hzero, digit, UInt8.toNat_ofNat', List.cons.injEq, and_true,
      Fin.ext_iff, Fin.val_ofNat]
    omega

theorem trailingZero_toDigits (bytes : Bytes) : trailingZero (toDigits bytes) = true := by
  fun_induction toDigits bytes with
  | case1 => rfl
  | case2 a =>
    apply decide_eq_true
    simp only [digit, Fin.val_ofNat]
    omega
  | case3 a b =>
    apply decide_eq_true
    simp only [digit, Fin.val_ofNat]
    omega
  | case4 a b c rest ih => simpa only [trailingZero] using ih

theorem length_toDigits (bytes : Bytes) : (toDigits bytes).length = (bytes.length * 4 + 2) / 3 := by
  fun_induction toDigits bytes with
  | case4 a b c rest ih =>
    simp only [List.length_cons, ih]
    omega
  | _ => simp

def encode (alphabet : Alphabet) (bytes : Bytes) : List Nat :=
  (toDigits bytes).map alphabet.code

def digits? (alphabet : Alphabet) (codes : List Nat) : Option (List (Fin 64)) :=
  codes.mapM alphabet.index?

/-- Decoding without padding that ignores the dropped bits. -/
def decode? (alphabet : Alphabet) (codes : List Nat) : Option Bytes :=
  (digits? alphabet codes).bind ofDigits?

/-- Decoding without padding that rejects nonzero dropped bits. -/
def decodeStrict? (alphabet : Alphabet) (codes : List Nat) : Option Bytes :=
  (digits? alphabet codes).bind fun digits =>
    if trailingZero digits then ofDigits? digits else none

theorem digits?_map_code (alphabet : Alphabet) (digits : List (Fin 64)) :
    digits? alphabet (digits.map alphabet.code) = some digits := by
  induction digits with
  | nil => rfl
  | cons digit digits ih =>
    simp only [digits?, List.map_cons, List.mapM_cons, alphabet.index?_code] at ih ⊢
    simp [ih]

theorem map_code_of_digits? (alphabet : Alphabet) {codes : List Nat} {digits : List (Fin 64)}
    (h : digits? alphabet codes = some digits) : digits.map alphabet.code = codes := by
  induction codes generalizing digits with
  | nil =>
    simp only [digits?, List.mapM_nil, Option.pure_def, Option.some.injEq] at h
    subst h
    rfl
  | cons code codes ih =>
    simp only [digits?, List.mapM_cons, Option.bind_eq_bind, Option.bind_eq_some_iff,
      Option.pure_def, Option.some.injEq] at h
    rcases h with ⟨digit, hdigit, rest, hrest, rfl⟩
    rw [List.map_cons, alphabet.code_of_index? _ _ hdigit, ih hrest]

@[simp]
theorem decode?_encode (alphabet : Alphabet) (bytes : Bytes) :
    decode? alphabet (encode alphabet bytes) = some bytes := by
  simp [decode?, encode, digits?_map_code, ofDigits?_toDigits]

theorem encode_injective (alphabet : Alphabet) : Function.Injective (encode alphabet) := by
  intro left right h
  have hdecode := decode?_encode alphabet left
  rw [h, decode?_encode] at hdecode
  exact (Option.some.inj hdecode).symm

/--
Strict decoding accepts exactly the encoder's image.
-/
theorem decodeStrict?_eq_some_iff (alphabet : Alphabet) {codes : List Nat} {bytes : Bytes} :
    decodeStrict? alphabet codes = some bytes ↔ encode alphabet bytes = codes := by
  constructor
  . intro h
    simp only [decodeStrict?, Option.bind_eq_some_iff] at h
    rcases h with ⟨digits, hdigits, h⟩
    split at h
    . next hzero =>
      rw [encode, toDigits_of_ofDigits? h hzero, map_code_of_digits? alphabet hdigits]
    . contradiction
  . intro h
    rw [← h]
    simp [decodeStrict?, encode, digits?_map_code, ofDigits?_toDigits, trailingZero_toDigits]

theorem length_encode (alphabet : Alphabet) (bytes : Bytes) :
    (encode alphabet bytes).length = (bytes.length * 4 + 2) / 3 := by
  rw [encode, List.length_map, length_toDigits]

def isWhitespace (code : Nat) : Bool :=
  code = 9 || code = 10 || code = 12 || code = 13 || code = 32

/-- At most two `=` at the end of an input of a multiple of four codes. -/
def dropPadding (codes : List Nat) : List Nat :=
  if codes.length % 4 = 0 then
    if codes.getLast? = some 61 then
      let codes := codes.dropLast
      if codes.getLast? = some 61 then codes.dropLast else codes
    else
      codes
  else
    codes

/-- The forgiving-base64 decode of the WHATWG Infra Standard. -/
def decodeForgiving? (codes : List Nat) : Option Bytes :=
  decode? standard (dropPadding (codes.filter fun code => !isWhitespace code))

def encodePadded (bytes : Bytes) : List Nat :=
  encode standard bytes ++ List.replicate ((3 - bytes.length % 3) % 3) 61

theorem index?_equals : standard.index? 61 = none := by decide

theorem index?_of_isWhitespace {code : Nat} (h : isWhitespace code = true) :
    standard.index? code = none := by
  simp only [isWhitespace, Bool.or_eq_true, decide_eq_true_eq] at h
  rcases h with (((rfl | rfl) | rfl) | rfl) | rfl <;> decide

theorem ne_of_digits? {codes : List Nat} {digits : List (Fin 64)}
    (h : digits? standard codes = some digits) {code : Nat} (hcode : code ∈ codes) :
    code ≠ 61 ∧ isWhitespace code = false := by
  rw [← map_code_of_digits? standard h, List.mem_map] at hcode
  rcases hcode with ⟨digit, -, rfl⟩
  have hindex := standard.index?_code digit
  constructor
  . intro heq
    rw [heq, index?_equals] at hindex
    contradiction
  . cases hws : isWhitespace (standard.code digit) with
    | false => rfl
    | true =>
      rw [index?_of_isWhitespace hws] at hindex
      contradiction

theorem dropPadding_append {codes : List Nat} (hne : ∀ code ∈ codes, code ≠ 61)
    (hlength : codes.length % 4 ≠ 1) :
    dropPadding (codes ++ List.replicate ((4 - codes.length % 4) % 4) 61) = codes := by
  have hlast : codes.getLast? ≠ some 61 := by
    intro h
    exact hne 61 (List.mem_of_getLast? h) rfl
  have hcases : codes.length % 4 = 0 ∨ codes.length % 4 = 2 ∨ codes.length % 4 = 3 := by omega
  rcases hcases with h | h | h
  . simp [h, dropPadding, hlast]
  . have htotal : (codes.length + 2) % 4 = 0 := by omega
    simp [h, dropPadding, List.replicate, htotal]
  . have htotal : (codes.length + 1) % 4 = 0 := by omega
    simp [h, dropPadding, htotal, hlast]

/--
On unpadded digits completed with `=` the forgiving decoder is the lenient one.
-/
theorem decodeForgiving?_append {codes : List Nat} {digits : List (Fin 64)}
    (h : digits? standard codes = some digits) (hlength : codes.length % 4 ≠ 1) :
    decodeForgiving? (codes ++ List.replicate ((4 - codes.length % 4) % 4) 61)
      = ofDigits? digits := by
  have hfilter : (codes ++ List.replicate ((4 - codes.length % 4) % 4) 61).filter
      (fun code => !isWhitespace code) = codes ++ List.replicate ((4 - codes.length % 4) % 4) 61 := by
    apply List.filter_eq_self.mpr
    intro code hcode
    rcases List.mem_append.mp hcode with hcode | hcode
    . simp [(ne_of_digits? h hcode).2]
    . simp [List.eq_of_mem_replicate hcode, isWhitespace]
  rw [decodeForgiving?, hfilter,
    dropPadding_append (fun code hcode => (ne_of_digits? h hcode).1) hlength, decode?, h]
  rfl

end Base64
