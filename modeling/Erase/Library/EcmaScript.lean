import Erase.Library.Json
import Mathlib.Algebra.Order.Archimedean.Basic
import Mathlib.Data.Int.Log
import Mathlib.Data.Rat.Floor
import Mathlib.Tactic.NormNum
import Mathlib.Tactic.Linarith

/-!
Numbers and JSON as ECMAScript has them: binary64 rounding of decimal literals, and objects whose
later members replace earlier ones of the same name.
-/

namespace Binary64

/-- The nearest integer, the even one when two are equally near. -/
def roundHalfEven (x : ℚ) : ℤ :=
  if x - ⌊x⌋ < 1 / 2 then ⌊x⌋
  else if 1 / 2 < x - ⌊x⌋ then ⌊x⌋ + 1
  else if ⌊x⌋ % 2 = 0 then ⌊x⌋
  else ⌊x⌋ + 1

/-- The exponent of the last of the 53 significant bits. -/
def exponent (x : ℚ) : ℤ := max (Int.log 2 |x| - 52) (-1074)

/--
Round to nearest, ties to even. `none` is an overflow.
-/
def round (x : ℚ) : Option ℚ :=
  let rounded : ℚ := (roundHalfEven (x / 2 ^ exponent x) : ℚ) * 2 ^ exponent x
  if |rounded| < 2 ^ 1024 then some rounded else none

theorem roundHalfEven_intCast (n : ℤ) : roundHalfEven n = n := by
  simp [roundHalfEven]

theorem exponent_natCast {n : ℕ} (h : n < 2 ^ 53) :
    ∃ k : ℕ, exponent (n : ℚ) = -(k : ℤ) := by
  have habs : |(n : ℚ)| = n := abs_of_nonneg (Nat.cast_nonneg n)
  have hlog : Nat.log 2 n ≤ 52 := by
    by_cases hzero : n = 0
    . simp [hzero]
    . exact Nat.le_of_lt_succ (Nat.log_lt_of_lt_pow hzero h)
  refine ⟨52 - Nat.log 2 n, ?_⟩
  rw [exponent, habs, Int.log_natCast]
  omega

/--
Every natural number of at most 53 bits is a binary64 value.
-/
theorem round_natCast {n : ℕ} (h : n < 2 ^ 53) : round (n : ℚ) = some (n : ℚ) := by
  rcases exponent_natCast h with ⟨k, hk⟩
  have hscaled : (n : ℚ) / 2 ^ exponent (n : ℚ) = ((n * 2 ^ k : ℕ) : ℤ) := by
    rw [hk, zpow_neg, zpow_natCast]
    push_cast
    field_simp
  have hvalue : (((n * 2 ^ k : ℕ) : ℤ) : ℚ) * 2 ^ exponent (n : ℚ) = n := by
    rw [hk, zpow_neg, zpow_natCast]
    push_cast
    field_simp
  have hbound : |(n : ℚ)| < 2 ^ 1024 := by
    rw [abs_of_nonneg (Nat.cast_nonneg n)]
    calc (n : ℚ) < 2 ^ 53 := by exact_mod_cast h
      _ ≤ 2 ^ 1024 := pow_le_pow_right₀ (by norm_num) (by norm_num)
  rw [round, hscaled, roundHalfEven_intCast]
  simp only [hvalue, hbound, ↓reduceIte]

theorem le_roundHalfEven {n : ℤ} {x : ℚ} (h : (n : ℚ) ≤ x) : n ≤ roundHalfEven x := by
  have hfloor : n ≤ ⌊x⌋ := Int.le_floor.mpr h
  unfold roundHalfEven
  split
  . exact hfloor
  . split
    . omega
    . split
      . exact hfloor
      . omega

/--
Rounding does not bring a number back into the range of 53 bits.
-/
theorem le_of_round {n : ℕ} {value : ℚ} (h : 2 ^ 53 ≤ n) (hround : round (n : ℚ) = some value)
    : 2 ^ 53 ≤ value := by
  have hn : n ≠ 0 := by omega
  have habs : |(n : ℚ)| = n := abs_of_nonneg (Nat.cast_nonneg n)
  have hlog : 53 ≤ Nat.log 2 n := Nat.le_log_of_pow_le (by decide) h
  have hexponent : exponent (n : ℚ) = ((Nat.log 2 n - 52 : ℕ) : ℤ) := by
    rw [exponent, habs, Int.log_natCast]
    omega
  have hpow : (2 : ℚ) ^ 52 * 2 ^ (Nat.log 2 n - 52) = 2 ^ Nat.log 2 n := by
    rw [← pow_add]
    congr 1
    omega
  have hscaled : (((2 ^ 52 : ℕ) : ℤ) : ℚ) ≤ (n : ℚ) / 2 ^ (Nat.log 2 n - 52) := by
    rw [le_div_iff₀ (by positivity)]
    have hle : (2 : ℚ) ^ Nat.log 2 n ≤ n := by exact_mod_cast Nat.pow_log_le_self 2 hn
    rw [← hpow] at hle
    exact_mod_cast hle
  have hrounded := le_roundHalfEven hscaled
  have hmantissa : (2 : ℚ) ^ 52 ≤ (roundHalfEven ((n : ℚ) / 2 ^ (Nat.log 2 n - 52)) : ℚ) := by
    exact_mod_cast hrounded
  rw [round, hexponent, zpow_natCast] at hround
  simp only [Option.ite_none_right_eq_some, Option.some.injEq] at hround
  rw [← hround.2]
  calc (2 : ℚ) ^ 53 ≤ 2 ^ Nat.log 2 n := pow_le_pow_right₀ (by norm_num) hlog
    _ = 2 ^ 52 * 2 ^ (Nat.log 2 n - 52) := hpow.symm
    _ ≤ _ := mul_le_mul_of_nonneg_right hmantissa (by positivity)

end Binary64

/-- A number value other than NaN, without the sign of zero. -/
inductive JsNumber where
  | finite (value : ℚ)
  | infinite (negative : Bool)
  deriving DecidableEq

namespace JsNumber

def ofNat (n : ℕ) : JsNumber := .finite n

def ofLiteral (literal : Json.Literal) : JsNumber :=
  let fraction := literal.fraction.getD []
  let digits := Decimal.value (literal.integer ++ fraction)
  let power : ℤ :=
    match literal.exponent with
    | none => 0
    | some (false, digits) => Decimal.value digits
    | some (true, digits) => -Decimal.value digits
  let magnitude : ℚ := digits * 10 ^ (power - fraction.length)
  match Binary64.round (if literal.negative then -magnitude else magnitude) with
  | some value => .finite value
  | none => .infinite literal.negative

def maxSafeInteger : ℤ := 2 ^ 53 - 1

/-- The value of a number for which `Number.isSafeInteger` holds. -/
def safeInteger? : JsNumber → Option ℤ
  | .finite value => if value.den = 1 ∧ |value.num| ≤ maxSafeInteger then some value.num else none
  | .infinite _ => none

/-- `Number.isInteger` -/
def isInteger : JsNumber → Bool
  | .finite value => value.den = 1
  | .infinite _ => false

def lessThan (limit : ℕ) : JsNumber → Bool
  | .finite value => value < limit
  | .infinite negative => negative

def greaterThan (limit : ℕ) : JsNumber → Bool
  | .finite value => limit < value
  | .infinite negative => !negative

/-- `Math.min` of a number and an integer -/
def atMost (limit : ℕ) (number : JsNumber) : JsNumber :=
  if number.greaterThan limit then ofNat limit else number

theorem exists_ofNat {number : JsNumber} {low high : ℕ} (hinteger : number.isInteger = true)
    (hlow : number.lessThan low = false) (hhigh : number.greaterThan high = false)
    : ∃ n, number = ofNat n ∧ low ≤ n ∧ n ≤ high := by
  cases number with
  | infinite negative => cases hinteger
  | finite value =>
    simp only [isInteger, lessThan, greaterThan, decide_eq_true_eq, decide_eq_false_iff_not, not_lt]
      at hinteger hlow hhigh
    have hint : (value.num : ℚ) = value := Rat.coe_int_num_of_den_eq_one hinteger
    rw [← hint] at hlow hhigh
    have hlow : (low : ℤ) ≤ value.num := by exact_mod_cast hlow
    have hhigh : value.num ≤ high := by exact_mod_cast hhigh
    refine ⟨value.num.toNat, ?_, by omega, by omega⟩
    have hnat : ((value.num.toNat : ℕ) : ℚ) = value.num := by
      rw [← Int.cast_natCast, Int.toNat_of_nonneg (by omega)]
    rw [ofNat, hnat, hint]

theorem ofLiteral_codes {n : ℕ} (h : n < 2 ^ 53) :
    ofLiteral ⟨false, Decimal.codes n, none, none⟩ = ofNat n := by
  unfold ofLiteral
  simp [Binary64.round_natCast h, ofNat]

@[simp]
theorem safeInteger?_ofNat {n : ℕ} (h : n < 2 ^ 53) : (ofNat n).safeInteger? = some (n : ℤ) := by
  have hbound : (n : ℤ) ≤ maxSafeInteger := by
    rw [maxSafeInteger]
    omega
  simp [safeInteger?, ofNat, hbound]

theorem safeInteger?_ofLiteral (digits : List ℕ)
    : (ofLiteral ⟨false, digits, none, none⟩).safeInteger?
        = if Decimal.value digits < 2 ^ 53 then some (Decimal.value digits : ℤ) else none := by
  by_cases h : Decimal.value digits < 2 ^ 53
  . rw [if_pos h, ← safeInteger?_ofNat h]
    unfold ofLiteral
    simp [Binary64.round_natCast h, ofNat]
  . rw [if_neg h]
    cases hround : Binary64.round (Decimal.value digits : ℚ) with
    | none =>
      unfold ofLiteral
      simp [hround, safeInteger?]
    | some value =>
      have hvalue := Binary64.le_of_round (by omega) hround
      have hliteral : ofLiteral ⟨false, digits, none, none⟩ = .finite value := by
        unfold ofLiteral
        simp [hround]
      rw [hliteral, safeInteger?, if_neg]
      rintro ⟨hden, hnum⟩
      have hint : (value.num : ℚ) = value := Rat.coe_int_num_of_den_eq_one hden
      have hle : (value.num : ℚ) ≤ ((2 ^ 53 - 1 : ℤ) : ℚ) := by
        exact_mod_cast (le_abs_self value.num).trans hnum
      rw [hint] at hle
      push_cast at hle
      linarith

end JsNumber

inductive JsValue where
  | null
  | bool (value : Bool)
  | number (value : JsNumber)
  | string (value : JsString)
  | array (elements : List JsValue)
  | object (members : List (JsString × JsValue))

namespace JsValue

def stringOf (pieces : List Json.Piece) : JsString :=
  pieces.map fun piece =>
    match piece with
    | .unit code => UInt16.ofNat code
    | .escaped code => UInt16.ofNat code

/-- Defining a member again keeps its place and replaces its value. -/
def define (members : List (JsString × JsValue)) (key : JsString) (value : JsValue) :
    List (JsString × JsValue) :=
  if members.any fun member => member.1 = key then
    members.map fun member => if member.1 = key then (key, value) else member
  else
    members ++ [(key, value)]

mutual

def ofJson : Json.Value → JsValue
  | .null => .null
  | .bool value => .bool value
  | .number literal => .number (JsNumber.ofLiteral literal)
  | .string pieces => .string (stringOf pieces)
  | .array elements => .array (ofElements elements)
  | .object members => .object (ofMembers members [])

def ofElements : List Json.Value → List JsValue
  | [] => []
  | element :: elements => ofJson element :: ofElements elements

def ofMembers : List (List Json.Piece × Json.Value) → List (JsString × JsValue) →
    List (JsString × JsValue)
  | [], defined => defined
  | (key, value) :: members, defined =>
    ofMembers members (define defined (stringOf key) (ofJson value))

end

/-- `JSON.parse`, with `none` for a syntax error. -/
def parse? (text : JsString) : Option JsValue :=
  (Json.parse? (text.map UInt16.toNat)).map ofJson

def member? (members : List (JsString × JsValue)) (key : JsString) : Option JsValue :=
  (members.find? fun member => member.1 = key).map Prod.snd

def number? (members : List (JsString × JsValue)) (key : JsString) : Option JsNumber :=
  match member? members key with
  | some (.number value) => some value
  | _ => none

def string? (members : List (JsString × JsValue)) (key : JsString) : Option JsString :=
  match member? members key with
  | some (.string value) => some value
  | _ => none

theorem member?_of_mem {members : List (JsString × JsValue)} (h : (members.map Prod.fst).Nodup)
    {key : JsString} {value : JsValue} (hmember : (key, value) ∈ members)
    : member? members key = some value := by
  induction members with
  | nil => contradiction
  | cons head members ih =>
    rw [List.map_cons, List.nodup_cons] at h
    rcases List.mem_cons.mp hmember with hhead | htail
    . simp [member?, ← hhead]
    . have hne : head.1 ≠ key := by
        intro heq
        exact h.1 (heq ▸ List.mem_map_of_mem htail)
      have hmember := ih h.2 htail
      unfold member? at hmember ⊢
      rw [List.find?_cons_of_neg (by simpa using hne), hmember]

theorem define_of_not_mem {members : List (JsString × JsValue)} {key : JsString}
    (h : key ∉ members.map Prod.fst) (value : JsValue) :
    define members key value = members ++ [(key, value)] := by
  have hany : (members.any fun member => member.1 = key) = false := by
    rw [List.any_eq_false]
    intro member hmember
    simp only [decide_eq_true_eq]
    intro heq
    exact h (heq ▸ List.mem_map_of_mem hmember)
  simp [define, hany]

/--
Members of distinct names are all kept, in their order.
-/
theorem ofMembers_of_nodup (members : List (List Json.Piece × Json.Value))
    (defined : List (JsString × JsValue))
    (h : (defined.map Prod.fst ++ members.map fun member => stringOf member.1).Nodup) :
    ofMembers members defined
      = defined ++ members.map fun member => (stringOf member.1, ofJson member.2) := by
  induction members generalizing defined with
  | nil => simp [ofMembers]
  | cons member members ih =>
    have hkey : stringOf member.1 ∉ defined.map Prod.fst := by
      simp only [List.map_cons, List.nodup_append, List.mem_cons] at h
      intro hmem
      exact h.2.2 _ hmem _ (Or.inl rfl) rfl
    rw [ofMembers, define_of_not_mem hkey, ih]
    . simp
    . simpa using h

end JsValue

namespace JsString

/-- `QuoteJSONString` without the surrounding quotation marks. Lone surrogates are escaped. -/
def quoteBody : JsString → JsString
  | [] => []
  | [unit] =>
    if isLeading unit || isTrailing unit then
      (Json.escapeUnit unit.toNat).map UInt16.ofNat
    else
      (Json.quoteCode unit.toNat).map UInt16.ofNat
  | unit :: next :: rest =>
    if isLeading unit && isTrailing next then
      unit :: next :: quoteBody rest
    else if isLeading unit || isTrailing unit then
      (Json.escapeUnit unit.toNat).map UInt16.ofNat ++ quoteBody (next :: rest)
    else
      (Json.quoteCode unit.toNat).map UInt16.ofNat ++ quoteBody (next :: rest)

def quote (text : JsString) : JsString := 34 :: quoteBody text ++ [34]

theorem quoteBody_of_plain {text : JsString}
    (h : ∀ unit ∈ text, unit.toNat < 128 ∧ Json.isPlain unit.toNat = true) :
    quoteBody text = text := by
  fun_induction quoteBody text with
  | case1 => rfl
  | case2 unit hsurrogate =>
    have := (h unit (by simp)).1
    simp only [isLeading, isTrailing, Bool.or_eq_true, Bool.and_eq_true, decide_eq_true_eq]
      at hsurrogate
    omega
  | case3 unit hsurrogate =>
    simp [Json.quoteCode_of_isPlain (h unit (by simp)).2]
  | case4 unit next rest hpair ih =>
    have := (h unit (by simp)).1
    simp only [isLeading, isTrailing, Bool.and_eq_true, decide_eq_true_eq] at hpair
    omega
  | case5 unit next rest hpair hsurrogate ih =>
    have := (h unit (by simp)).1
    simp only [isLeading, isTrailing, Bool.or_eq_true, Bool.and_eq_true, decide_eq_true_eq]
      at hsurrogate
    omega
  | case6 unit next rest hpair hsurrogate ih =>
    rw [ih fun other hother => h other (List.mem_cons_of_mem _ hother)]
    simp [Json.quoteCode_of_isPlain (h unit (by simp)).2]

end JsString

namespace JsValue

inductive Scalar where
  | number (n : Nat)
  | string (value : JsString)

def Scalar.stringify : Scalar → JsString
  | .number n => Ascii.units (Decimal.codes n)
  | .string value => JsString.quote value

def stringifyMember (member : JsString × Scalar) : JsString :=
  JsString.quote member.1 ++ 58 :: member.2.stringify

-- `JSON.stringify` of an object of strings and natural numbers.
def stringify : List (JsString × Scalar) → JsString
  | [] => [123, 125]
  | member :: members =>
    123 :: stringifyMember member ++ (members.flatMap fun member => 44 :: stringifyMember member)
      ++ [125]

def Scalar.ofCodes : Json.Scalar → Scalar
  | .text codes => .string (Ascii.units codes)
  | .number n => .number n

def memberOfCodes (member : List Nat × Json.Scalar) : JsString × Scalar :=
  (Ascii.units member.1, Scalar.ofCodes member.2)

theorem quote_units {codes : List Nat} (hascii : Ascii.IsAscii codes)
    (hplain : codes.all Json.isPlain = true)
    : JsString.quote (Ascii.units codes) = Ascii.units (34 :: codes ++ [34]) := by
  have hunits : ∀ unit ∈ Ascii.units codes,
      unit.toNat < 128 ∧ Json.isPlain unit.toNat = true := by
    intro unit hunit
    have hmem : unit.toNat ∈ (Ascii.units codes).map UInt16.toNat := List.mem_map_of_mem hunit
    rw [Ascii.map_toNat_units hascii] at hmem
    exact ⟨hascii _ hmem, List.all_eq_true.mp hplain _ hmem⟩
  rw [JsString.quote, JsString.quoteBody_of_plain hunits]
  simp [Ascii.units]

theorem stringifyMember_memberOfCodes {member : List Nat × Json.Scalar} (h : Json.IsCompact member)
    : stringifyMember (memberOfCodes member) = Ascii.units (Json.printMember member) := by
  have hkey := quote_units h.key_isAscii h.key_isPlain
  unfold stringifyMember memberOfCodes Json.printMember
  dsimp only
  rw [hkey]
  cases hvalue : member.2 with
  | number n =>
    simp [Scalar.ofCodes, Scalar.stringify, Json.Scalar.print, Ascii.units]
  | text codes =>
    have hascii := h.isAscii
    have hplain := h.isPlain
    rw [hvalue] at hascii hplain
    dsimp only [Scalar.ofCodes, Scalar.stringify, Json.Scalar.print]
    rw [quote_units hascii hplain]
    simp [Ascii.units]

theorem stringify_memberOfCodes {members : List (List Nat × Json.Scalar)}
    (h : ∀ member ∈ members, Json.IsCompact member)
    : stringify (members.map memberOfCodes) = Ascii.units (Json.printObject members) := by
  cases members with
  | nil => rfl
  | cons member members =>
    have hrest : (members.map memberOfCodes).flatMap (fun member => 44 :: stringifyMember member)
        = Ascii.units (Json.printRest members) := by
      rw [List.flatMap_map, Json.printRest, Ascii.units, List.map_flatMap]
      apply List.flatMap_congr
      intro other hother
      rw [stringifyMember_memberOfCodes (h other (List.mem_cons_of_mem _ hother))]
      rfl
    rw [List.map_cons, stringify, stringifyMember_memberOfCodes (h member (by simp)), hrest]
    simp [Json.printObject, Ascii.units]

def ofScalar : Json.Scalar → JsValue
  | .text codes => .string (Ascii.units codes)
  | .number n => .number (JsNumber.ofNat n)

theorem stringOf_units (codes : List Nat) : stringOf (codes.map .unit) = Ascii.units codes := by
  simp [stringOf, Ascii.units]

theorem ofJson_value {scalar : Json.Scalar} (h : ∀ n, scalar = .number n → n < 2 ^ 53)
    : ofJson scalar.value = ofScalar scalar := by
  cases scalar with
  | text codes => simp [Json.Scalar.value, ofJson, ofScalar, stringOf_units]
  | number n => simp [Json.Scalar.value, ofJson, ofScalar, JsNumber.ofLiteral_codes (h n rfl)]

theorem parse?_stringify {members : List (List Nat × Json.Scalar)}
    (h : ∀ member ∈ members, Json.IsCompact member)
    (hnumber : ∀ member ∈ members, ∀ n, member.2 = .number n → n < 2 ^ 53)
    (hnodup : (members.map Prod.fst).Nodup)
    : parse? (Ascii.units (Json.printObject members))
        = some (.object (members.map fun member =>
            (Ascii.units member.1, ofScalar member.2))) := by
  have hplain : ∀ member ∈ members, member.1.all Json.isPlain = true ∧ member.2.IsPlain :=
    fun member hmember => ⟨(h member hmember).key_isPlain, (h member hmember).isPlain⟩
  have hkeys : (members.map fun member => Ascii.units member.1).Nodup := by
    have hmap : (members.map fun member => Ascii.units member.1)
        = (members.map Prod.fst).map Ascii.units := by simp
    rw [hmap]
    apply List.Nodup.map_on _ hnodup
    intro left hleft right hright heq
    rw [List.mem_map] at hleft hright
    rcases hleft with ⟨leftMember, hleft, rfl⟩
    rcases hright with ⟨rightMember, hright, rfl⟩
    exact Ascii.units_injOn (h _ hleft).key_isAscii (h _ hright).key_isAscii heq
  rw [parse?, Ascii.map_toNat_units (Json.isAscii_printObject h), Json.parse?_printObject hplain,
    Option.map_some, ofJson, ofMembers_of_nodup]
  . simp only [List.nil_append, List.map_map, Option.some.injEq, object.injEq]
    apply List.map_congr_left
    intro member hmember
    simp [stringOf_units, ofJson_value (hnumber member hmember)]
  . simpa [Function.comp_def, stringOf_units] using hkeys

end JsValue
