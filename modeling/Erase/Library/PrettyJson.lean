import Erase.Library.EcmaScript
import Mathlib.Data.List.TakeWhile

/-!
`JSON.stringify` with an indentation, and what `JSON.parse` makes of its texts: any strings come back as
they are, and so do integers that a number holds exactly.
-/

namespace Json

theorem hexDigit?_hexCode {digit : Nat} (h : digit < 16) : hexDigit? (hexCode digit) = some digit := by
  unfold hexDigit? hexCode
  split
  . rw [if_pos (by omega), Nat.add_sub_cancel_left]
  . rw [if_neg (by omega), if_neg (by omega), if_pos (by omega), Nat.add_sub_cancel_left]

theorem stringBody?_unit {code : Nat} (h : isPlain code = true) (rest : List Nat)
    : stringBody? (code :: rest)
        = (stringBody? rest).map fun result => (.unit code :: result.1, result.2) := by
  simp only [isPlain, Bool.and_eq_true, decide_eq_true_eq, ne_eq, decide_not, Bool.not_eq_true',
    decide_eq_false_iff_not] at h
  rw [stringBody?.eq_def]
  split
  . contradiction
  . simp_all
  . simp_all
  . simp_all
  . next heq =>
    simp only [List.cons.injEq] at heq
    rcases heq with ⟨rfl, rfl⟩
    rw [if_neg (by omega)]
    cases stringBody? rest <;> rfl

theorem stringBody?_escapeUnit {code : Nat} (h : code < 65536) (rest : List Nat)
    : stringBody? (escapeUnit code ++ rest)
        = (stringBody? rest).map fun result => (.escaped code :: result.1, result.2) := by
  have hcode : ((code / 4096 % 16 * 16 + code / 256 % 16) * 16 + code / 16 % 16) * 16 + code % 16
      = code := by
    omega
  have hdigit : ∀ n, hexDigit? (hexCode (n % 16)) = some (n % 16) := by
    intro n
    apply hexDigit?_hexCode
    omega
  simp only [escapeUnit, List.cons_append, List.nil_append, stringBody?, hdigit, Option.bind_eq_bind,
    Option.bind_some, hcode]
  cases stringBody? rest <;> rfl

theorem stringBody?_escape {short code : Nat} (hescape : escape? short = some code)
    (hshort : short ≠ 117) (rest : List Nat)
    : stringBody? (92 :: short :: rest)
        = (stringBody? rest).map fun result => (.escaped code :: result.1, result.2) := by
  rw [stringBody?.eq_def]
  split
  . contradiction
  . simp_all
  . simp_all
  . next heq =>
    simp only [List.cons.injEq] at heq
    rcases heq with ⟨-, rfl, rfl⟩
    simp only [hescape, Option.bind_eq_bind, Option.bind_some]
    cases stringBody? rest <;> rfl
  . next hnot heq =>
    rw [List.cons.injEq] at heq
    exact (hnot short rest heq.1.symm heq.2.symm).elim

def Piece.code : Piece → Nat
  | .unit code => code
  | .escaped code => code

-- A text that stands for one piece inside a string.
structure Spells (text : List Nat) (code : Nat) : Prop where
  reads : ∃ piece : Piece, piece.code = code ∧ ∀ rest, stringBody? (text ++ rest)
    = (stringBody? rest).map fun result => (piece :: result.1, result.2)

theorem spells_unit {code : Nat} (h : isPlain code = true) : Spells [code] code where
  reads := ⟨.unit code, rfl, stringBody?_unit h⟩

theorem spells_escapeUnit {code : Nat} (h : code < 65536) : Spells (escapeUnit code) code where
  reads := ⟨.escaped code, rfl, stringBody?_escapeUnit h⟩

theorem spells_escape {short code : Nat} (hescape : escape? short = some code) (hshort : short ≠ 117)
    : Spells [92, short] code where
  reads := ⟨.escaped code, rfl, stringBody?_escape hescape hshort⟩

theorem spells_quoteCode {code : Nat} (h : code < 65536) : Spells (quoteCode code) code := by
  by_cases hshort : code ∈ [34, 92, 8, 9, 10, 12, 13]
  . simp only [List.mem_cons, List.not_mem_nil, or_false] at hshort
    rcases hshort with rfl | rfl | rfl | rfl | rfl | rfl | rfl
    all_goals exact spells_escape rfl (by decide)
  . simp only [List.mem_cons, List.not_mem_nil, or_false, not_or] at hshort
    simp only [quoteCode, hshort, ↓reduceIte]
    split
    . exact spells_escapeUnit h
    . apply spells_unit
      simp only [isPlain, Bool.and_eq_true, decide_eq_true_eq, ne_eq, decide_not, Bool.not_eq_true',
        decide_eq_false_iff_not]
      omega

-- What may follow a number.
def Ends (rest : List Nat) : Prop :=
  ∀ code ∈ rest.head?, Decimal.isDigit code = false ∧ code ≠ 46 ∧ code ≠ 69 ∧ code ≠ 101

section

variable {rest : List Nat}

theorem Ends.takeWhile {codes : List Nat} (h : Ends rest)
    (hcodes : ∀ code ∈ codes, Decimal.isDigit code = true)
    : (codes ++ rest).takeWhile Decimal.isDigit = codes
        ∧ (codes ++ rest).dropWhile Decimal.isDigit = rest := by
  rw [List.takeWhile_append_of_pos hcodes, List.dropWhile_append_of_pos hcodes]
  cases rest with
  | nil => simp
  | cons stop rest => simp [(h stop rfl).1]

theorem Ends.integer? (h : Ends rest) (n : Nat)
    : Json.integer? (Decimal.codes n ++ rest) = some (Decimal.codes n, rest) := by
  have hall : ∀ code ∈ Decimal.codes n, Decimal.isDigit code = true :=
    fun code hcode => Decimal.isDigit_of_mem_codes hcode
  by_cases hzero : n = 0
  . subst hzero
    rw [Decimal.codes_of_lt_ten (by decide)]
    rfl
  . rcases Decimal.head?_codes hzero with ⟨code, tail, hcodes, hcode⟩
    rcases h.takeWhile hall with ⟨htake, hdrop⟩
    rw [Json.integer?.eq_def]
    split
    . next heq =>
      rw [hcodes, List.cons_append, List.cons.injEq] at heq
      exact absurd heq.1 hcode
    . simp only [htake, hdrop, Decimal.codes_ne_nil, ↓reduceIte]

theorem Ends.fraction? (h : Ends rest) : Json.fraction? rest = some (none, rest) := by
  unfold Json.fraction?
  split
  . exact absurd rfl (h 46 rfl).2.1
  . rfl

theorem Ends.exponent? (h : Ends rest) : Json.exponent? rest = some (none, rest) := by
  cases rest with
  | nil => rfl
  | cons code rest =>
    rcases h code rfl with ⟨-, -, hupper, hlower⟩
    rw [Json.exponent?.eq_def]
    simp [hupper, hlower]

def integerCodes (n : Int) : List Nat :=
  if n < 0 then 45 :: Decimal.codes n.natAbs else Decimal.codes n.natAbs

def integerLiteral (n : Int) : Literal := ⟨n < 0, Decimal.codes n.natAbs, none, none⟩

theorem sign_codes (n : Nat) (rest : List Nat)
    : sign (Decimal.codes n ++ rest) = (false, Decimal.codes n ++ rest) := by
  unfold sign
  split
  . next tail heq =>
    have hmem : 45 ∈ Decimal.codes n := by
      cases hcodes : Decimal.codes n with
      | nil => exact absurd hcodes (Decimal.codes_ne_nil n)
      | cons code codes =>
        rw [hcodes, List.cons_append, List.cons.injEq] at heq
        simp [heq.1]
    exact absurd (Decimal.isDigit_of_mem_codes hmem) (by decide)
  . rfl

theorem Ends.number? (h : Ends rest) (n : Int)
    : Json.number? (integerCodes n ++ rest) = some (integerLiteral n, rest) := by
  have hsign : sign (integerCodes n ++ rest) = (decide (n < 0), Decimal.codes n.natAbs ++ rest) := by
    unfold integerCodes
    split
    . next hneg => simp [sign, hneg]
    . next hpos => rw [sign_codes, decide_eq_false hpos]
  simp [Json.number?, hsign, h.integer?, h.fraction?, h.exponent?, integerLiteral]

theorem head?_integerCodes (n : Int)
    : ∃ code codes, integerCodes n = code :: codes ∧ (code = 45 ∨ Decimal.isDigit code = true) := by
  unfold integerCodes
  split
  . exact ⟨45, _, rfl, .inl rfl⟩
  . cases hcodes : Decimal.codes n.natAbs with
    | nil => exact absurd hcodes (Decimal.codes_ne_nil _)
    | cons code codes =>
      refine ⟨code, codes, rfl, .inr ?_⟩
      apply Decimal.isDigit_of_mem_codes (n := n.natAbs)
      rw [hcodes]
      exact List.mem_cons_self ..

theorem value?_integer (h : Ends rest) (fuel : Nat) (n : Int)
    : value? (fuel + 1) (integerCodes n ++ rest) = some (.number (integerLiteral n), rest) := by
  rcases head?_integerCodes n with ⟨code, codes, hcodes, hcode⟩
  have hrange : code = 45 ∨ (48 ≤ code ∧ code ≤ 57) := by
    simpa [Decimal.isDigit] using hcode
  have hws : isWhitespace code = false := by
    simp only [isWhitespace, Bool.or_eq_false_iff, decide_eq_false_iff_not]
    omega
  have hnumber := h.number? n
  rw [hcodes, List.cons_append] at hnumber ⊢
  simp only [value?, skip_cons hws]
  rw [if_neg (by omega), if_neg (by omega), if_neg (by omega), if_neg (by omega),
    if_neg (by omega), if_neg (by omega), hnumber]
  rfl

theorem skip_spaces (k : Nat) {code : Nat} (h : isWhitespace code = false)
    : skip (List.replicate k 32 ++ code :: rest) = code :: rest := by
  rw [skip, List.dropWhile_append_of_pos, List.dropWhile_cons_of_neg (by simp [h])]
  intro space hspace
  rw [List.eq_of_mem_replicate hspace]
  rfl

theorem skip_line (k : Nat) {code : Nat} (h : isWhitespace code = false)
    : skip (10 :: (List.replicate k 32 ++ code :: rest)) = code :: rest := by
  rw [skip, List.dropWhile_cons_of_pos (by decide)]
  exact skip_spaces k h

end

end Json

namespace Binary64

theorem round_intCast {n : ℤ} (h : n.natAbs < 2 ^ 53) : round (n : ℚ) = some (n : ℚ) := by
  rcases Int.natAbs_eq n with hn | hn
  . rw [hn]
    exact round_natCast h
  . have habs : |(n : ℚ)| = |((n.natAbs : ℕ) : ℚ)| := by
      rw [hn]
      simp
    rcases exponent_natCast h with ⟨k, hk⟩
    have hexponent : exponent (n : ℚ) = -(k : ℤ) := by
      rw [exponent, habs]
      exact hk
    have hscaled : (n : ℚ) / 2 ^ exponent (n : ℚ) = ((n * 2 ^ k : ℤ) : ℚ) := by
      rw [hexponent, zpow_neg, zpow_natCast]
      push_cast
      field_simp
    have hvalue : ((n * 2 ^ k : ℤ) : ℚ) * 2 ^ exponent (n : ℚ) = n := by
      rw [hexponent, zpow_neg, zpow_natCast]
      push_cast
      field_simp
    have hbound : |(n : ℚ)| < 2 ^ 1024 := by
      rw [habs, abs_of_nonneg (Nat.cast_nonneg _)]
      calc ((n.natAbs : ℕ) : ℚ) < 2 ^ 53 := by exact_mod_cast h
        _ ≤ 2 ^ 1024 := pow_le_pow_right₀ (by norm_num) (by norm_num)
    rw [round, hscaled, roundHalfEven_intCast]
    simp only [hvalue, hbound, ↓reduceIte]

end Binary64

theorem JsNumber.ofLiteral_integer {n : ℤ} (h : n.natAbs < 2 ^ 53)
    : ofLiteral (Json.integerLiteral n) = .finite n := by
  have habs : ((n.natAbs : ℕ) : ℚ) = |(n : ℚ)| := by
    rw [← Int.cast_abs, Int.abs_eq_natAbs]
    simp
  have hmagnitude : (if n < 0 then -((n.natAbs : ℕ) : ℚ) else ((n.natAbs : ℕ) : ℚ)) = n := by
    split
    . next hneg => rw [habs, abs_of_neg (by exact_mod_cast hneg), neg_neg]
    . next hpos => rw [habs, abs_of_nonneg (by exact_mod_cast not_lt.mp hpos)]
  unfold ofLiteral Json.integerLiteral
  simp only [Option.getD_none, List.append_nil, Decimal.value_codes, List.length_nil, Nat.cast_zero,
    sub_zero, zpow_zero, mul_one, decide_eq_true_eq, hmagnitude, Binary64.round_intCast h]

namespace JsString

def codes (text : JsString) : List Nat := text.map UInt16.toNat

@[simp]
theorem codes_nil : codes [] = [] := rfl

@[simp]
theorem codes_cons (unit : UInt16) (text : JsString) : codes (unit :: text) = unit.toNat :: codes text := rfl

@[simp]
theorem codes_append (left right : JsString) : codes (left ++ right) = codes left ++ codes right :=
  List.map_append

theorem codes_map_ofNat {list : List Nat} (h : ∀ code ∈ list, code < 65536)
    : codes (list.map UInt16.ofNat) = list := by
  rw [codes, List.map_map]
  conv => rhs; rw [← List.map_id list]
  apply List.map_congr_left
  intro code hcode
  have hlt := h code hcode
  simp only [Function.comp_apply, UInt16.toNat_ofNat', id_eq]
  omega

theorem hexCode_lt {digit : Nat} (h : digit < 16) : Json.hexCode digit < 65536 := by
  unfold Json.hexCode
  split <;> omega

theorem codes_escapeUnit (code : Nat)
    : codes ((Json.escapeUnit code).map UInt16.ofNat) = Json.escapeUnit code := by
  apply codes_map_ofNat
  have hdigit : ∀ n, Json.hexCode (n % 16) < 65536 := by
    intro n
    apply hexCode_lt
    omega
  simp [Json.escapeUnit, hdigit]

theorem codes_quoteCode {code : Nat} (h : code < 65536)
    : codes ((Json.quoteCode code).map UInt16.ofNat) = Json.quoteCode code := by
  unfold Json.quoteCode
  split_ifs
  all_goals first | rfl | exact codes_escapeUnit code | exact codes_map_ofNat (by simpa using h)

-- A text of pieces that stands for the units, behind which the string ends.
structure Spells (text : List Nat) (units : JsString) : Prop where
  reads : ∃ pieces, JsValue.stringOf pieces = units
    ∧ ∀ rest, Json.stringBody? (text ++ 34 :: rest) = some (pieces, rest)

theorem spells_nil : Spells [] [] where
  reads := ⟨[], rfl, fun _ => rfl⟩

theorem Spells.cons {unit : UInt16} {first text : List Nat} {units : JsString}
    (hfirst : Json.Spells first unit.toNat) (h : Spells text units)
    : Spells (first ++ text) (unit :: units) where
  reads := by
    rcases hfirst.reads with ⟨piece, hpiece, hread⟩
    rcases h.reads with ⟨pieces, rfl, hreads⟩
    refine ⟨piece :: pieces, ?_, ?_⟩
    . have hunit : UInt16.ofNat piece.code = unit := by
        rw [hpiece, UInt16.ofNat_toNat]
      rw [JsValue.stringOf, List.map_cons, ← hunit]
      cases piece <;> rfl
    . intro rest
      rw [List.append_assoc, hread, hreads]
      rfl

theorem spells_surrogate {unit : UInt16} (h : (isLeading unit || isTrailing unit) = true)
    : Json.Spells [unit.toNat] unit.toNat := by
  apply Json.spells_unit
  simp only [isLeading, isTrailing, Bool.or_eq_true, Bool.and_eq_true, decide_eq_true_eq] at h
  simp only [Json.isPlain, Bool.and_eq_true, decide_eq_true_eq, ne_eq, decide_not, Bool.not_eq_true',
    decide_eq_false_iff_not]
  omega

theorem spells_quoteBody (text : JsString) : Spells (codes (quoteBody text)) text := by
  have hlt : ∀ unit : UInt16, unit.toNat < 65536 := fun unit => unit.toNat_lt
  fun_induction quoteBody text with
  | case1 => exact spells_nil
  | case2 unit hsurrogate =>
    rw [codes_escapeUnit, ← List.append_nil (Json.escapeUnit _)]
    exact spells_nil.cons (Json.spells_escapeUnit (hlt unit))
  | case3 unit hsurrogate =>
    rw [codes_quoteCode (hlt unit), ← List.append_nil (Json.quoteCode _)]
    exact spells_nil.cons (Json.spells_quoteCode (hlt unit))
  | case4 unit next rest hpair ih =>
    rw [Bool.and_eq_true] at hpair
    apply Spells.cons (spells_surrogate (by rw [hpair.1, Bool.true_or]))
    exact ih.cons (spells_surrogate (by rw [hpair.2, Bool.or_true]))
  | case5 unit next rest hpair hsurrogate ih =>
    rw [codes_append, codes_escapeUnit]
    exact ih.cons (Json.spells_escapeUnit (hlt unit))
  | case6 unit next rest hpair hsurrogate ih =>
    rw [codes_append, codes_quoteCode (hlt unit)]
    exact ih.cons (Json.spells_quoteCode (hlt unit))

-- A text whose surrogates all come in pairs.
structure Paired (text : JsString) : Prop where
  chars : ∃ chars, text = ofChars chars

theorem Paired.wellFormed {text : JsString} (h : Paired text) : WellFormed text := by
  rcases h.chars with ⟨chars, rfl⟩
  exact wellFormed_ofChars chars

theorem Paired.append {left right : JsString} (hleft : Paired left) (hright : Paired right)
    : Paired (left ++ right) where
  chars := by
    rcases hleft.chars with ⟨first, rfl⟩
    rcases hright.chars with ⟨second, rfl⟩
    exact ⟨first ++ second, (ofChars_append first second).symm⟩

theorem toNat_charOfNat {code : Nat} (h : code.isValidChar) : (Char.ofNat code).toNat = code := by
  rw [Char.ofNat, dif_pos h]
  rfl

def IsScalar (code : Nat) : Prop := code < 0xD800 ∨ 0xE000 ≤ code ∧ code < 0x10000

theorem paired_map {list : List Nat} (h : ∀ code ∈ list, IsScalar code)
    : Paired (list.map UInt16.ofNat) where
  chars := by
    refine ⟨list.map Char.ofNat, ?_⟩
    rw [ofChars, List.flatMap_map, ← List.flatMap_singleton' (list.map UInt16.ofNat), List.flatMap_map]
    apply List.flatMap_congr
    intro code hcode
    have hscalar := h code hcode
    have hvalid : code.isValidChar := by
      rcases hscalar with hlow | ⟨hhigh, hlt⟩
      . exact .inl hlow
      . exact .inr ⟨by omega, by omega⟩
    have hnat : (Char.ofNat code).toNat = code := toNat_charOfNat hvalid
    rw [encodeChar, hnat, if_pos (by rcases hscalar with hlow | hhigh <;> omega)]

theorem paired_pair {leading trailing : UInt16}
    (h : (isLeading leading && isTrailing trailing) = true) : Paired [leading, trailing] where
  chars := by
    simp only [isLeading, isTrailing, Bool.and_eq_true, decide_eq_true_eq] at h
    have hvalid : (0x10000 + (leading.toNat - 0xD800) * 0x400 + (trailing.toNat - 0xDC00)).isValidChar :=
      .inr ⟨by omega, by omega⟩
    have hnat : (ofPair leading trailing).toNat
        = 0x10000 + (leading.toNat - 0xD800) * 0x400 + (trailing.toNat - 0xDC00) :=
      toNat_charOfNat hvalid
    refine ⟨[ofPair leading trailing], ?_⟩
    have hleading : 0xD800 + ((ofPair leading trailing).toNat - 0x10000) / 0x400 = leading.toNat := by
      rw [hnat]
      omega
    have htrailing : 0xDC00 + ((ofPair leading trailing).toNat - 0x10000) % 0x400 = trailing.toNat := by
      rw [hnat]
      omega
    rw [ofChars, List.flatMap_singleton, encodeChar, if_neg (by omega), hleading, htrailing,
      UInt16.ofNat_toNat, UInt16.ofNat_toNat]

theorem isScalar_hexCode (n : Nat) : IsScalar (Json.hexCode (n % 16)) := by
  unfold IsScalar Json.hexCode
  split <;> omega

theorem paired_escapeUnit (code : Nat) : Paired ((Json.escapeUnit code).map UInt16.ofNat) := by
  apply paired_map
  simp only [Json.escapeUnit, List.forall_mem_cons, isScalar_hexCode, true_and]
  exact ⟨.inl (by decide), .inl (by decide), nofun⟩

theorem paired_quoteCode {code : Nat} (h : IsScalar code)
    : Paired ((Json.quoteCode code).map UInt16.ofNat) := by
  have hshort : ∀ short < 128, Paired ([92, short].map UInt16.ofNat) := by
    intro short hlt
    apply paired_map
    simp only [List.forall_mem_cons]
    exact ⟨.inl (by decide), .inl (by omega), nofun⟩
  unfold Json.quoteCode
  split_ifs
  all_goals first
    | exact hshort _ (by decide)
    | exact paired_escapeUnit code
    | exact paired_map (by simpa using h)

theorem paired_quoteBody (text : JsString) : Paired (quoteBody text) := by
  have hscalar : ∀ unit : UInt16, ¬(isLeading unit || isTrailing unit) = true → IsScalar unit.toNat := by
    intro unit h
    have hlt := unit.toNat_lt
    simp only [isLeading, isTrailing, Bool.or_eq_true, Bool.and_eq_true, decide_eq_true_eq] at h
    unfold IsScalar
    omega
  fun_induction quoteBody text with
  | case1 => exact ⟨[], rfl⟩
  | case2 unit hsurrogate => exact paired_escapeUnit _
  | case3 unit hsurrogate => exact paired_quoteCode (hscalar unit hsurrogate)
  | case4 unit next rest hpair ih => exact (paired_pair hpair).append ih
  | case5 unit next rest hpair hsurrogate ih => exact (paired_escapeUnit _).append ih
  | case6 unit next rest hpair hsurrogate ih =>
    exact (paired_quoteCode (hscalar unit hsurrogate)).append ih

theorem paired_quote (text : JsString) : Paired (quote text) := by
  have hmark : Paired [34] := ⟨['"'], by decide⟩
  exact (hmark.append (paired_quoteBody text)).append hmark

theorem codes_quote (text : JsString) (rest : List Nat)
    : codes (quote text) ++ rest = 34 :: (codes (quoteBody text) ++ 34 :: rest) := by
  simp [quote]

end JsString

namespace JsValue

-- The values without arrays whose numbers are integers.
inductive Tree where
  | integer (n : Int)
  | string (value : JsString)
  | object (members : List (JsString × Tree))

namespace Tree

mutual

-- `JSON.stringify(value, null, 2)`, from behind an indentation of so many spaces.
def pretty (spaces : Nat) : Tree → JsString
  | .integer n => Ascii.units (Json.integerCodes n)
  | .string value => JsString.quote value
  | .object [] => [123, 125]
  | .object (member :: members) =>
    123 :: 10 :: (prettyMember (spaces + 2) member ++ (prettyRest (spaces + 2) members
      ++ 10 :: (List.replicate spaces 32 ++ [125])))

def prettyMember (spaces : Nat) : JsString × Tree → JsString
  | (key, tree) => List.replicate spaces 32 ++ (JsString.quote key ++ 58 :: 32 :: tree.pretty spaces)

def prettyRest (spaces : Nat) : List (JsString × Tree) → JsString
  | [] => []
  | member :: members => 44 :: 10 :: (prettyMember spaces member ++ prettyRest spaces members)

end

mutual

def toJs : Tree → JsValue
  | .integer n => .number (.finite n)
  | .string value => .string value
  | .object members => .object (membersToJs members)

def membersToJs : List (JsString × Tree) → List (JsString × JsValue)
  | [] => []
  | (key, tree) :: members => (key, tree.toJs) :: membersToJs members

end

mutual

-- Each name is used once, and a number holds each integer.
def IsExact : Tree → Prop
  | .integer n => n.natAbs < 2 ^ 53
  | .string _ => True
  | .object members => (members.map Prod.fst).Nodup ∧ AreExact members

def AreExact : List (JsString × Tree) → Prop
  | [] => True
  | (_, tree) :: members => tree.IsExact ∧ AreExact members

end

section

open JsString

theorem ends_comma (rest : List Nat) : Json.Ends (44 :: rest) := by
  intro code hcode
  cases hcode
  decide

theorem ends_line (rest : List Nat) : Json.Ends (10 :: rest) := by
  intro code hcode
  cases hcode
  decide

theorem codes_spaces (n : Nat) : codes (List.replicate n 32) = List.replicate n 32 := by
  rw [codes, List.map_replicate]
  rfl

theorem isAscii_integerCodes (n : Int) : Ascii.IsAscii (Json.integerCodes n) := by
  unfold Json.integerCodes
  intro code hcode
  split at hcode
  . rcases List.mem_cons.mp hcode with rfl | hcode
    . decide
    . exact Decimal.isAscii_codes _ code hcode
  . exact Decimal.isAscii_codes _ code hcode

theorem codes_integer (n : Int) : codes (Ascii.units (Json.integerCodes n)) = Json.integerCodes n :=
  Ascii.map_toNat_units (isAscii_integerCodes n)

theorem value?_quote (text : JsString) : ∃ pieces, stringOf pieces = text
    ∧ ∀ fuel rest, Json.value? (fuel + 1) (codes (quote text) ++ rest) = some (.string pieces, rest) := by
  rcases (spells_quoteBody text).reads with ⟨pieces, hpieces, hreads⟩
  refine ⟨pieces, hpieces, fun fuel rest => ?_⟩
  rw [codes_quote]
  simp only [Json.value?, Json.skip_cons (show Json.isWhitespace 34 = false by decide)]
  simp [hreads]

theorem value?_space (fuel : Nat) (text : List Nat)
    : Json.value? fuel (32 :: text) = Json.value? fuel text := by
  cases fuel with
  | zero => rfl
  | succ fuel => rfl

-- What the parser makes of a member, before a comma and at the end of the object.
theorem members?_member (key : JsString) (spaces : Nat) : ∃ pieces, stringOf pieces = key
    ∧ ∀ fuel text json rest tail, Json.value? fuel (text ++ rest) = some (json, rest)
      → (Json.skip rest = 44 :: tail
        → Json.members? (fuel + 1)
            (10 :: (List.replicate spaces 32 ++ (codes (quote key) ++ 58 :: 32 :: (text ++ rest))))
          = (Json.members? fuel tail).map fun result => ((pieces, json) :: result.1, result.2))
        ∧ (Json.skip rest = 125 :: tail
          → Json.members? (fuel + 1)
              (10 :: (List.replicate spaces 32 ++ (codes (quote key) ++ 58 :: 32 :: (text ++ rest))))
            = some ([(pieces, json)], tail)) := by
  rcases (spells_quoteBody key).reads with ⟨pieces, hpieces, hreads⟩
  refine ⟨pieces, hpieces, fun fuel text json rest tail hvalue => ⟨fun hrest => ?_, fun hrest => ?_⟩⟩
  all_goals
    rw [codes_quote, Json.members?, Json.skip_line spaces (by decide)]
    simp only [hreads, Option.bind_eq_bind, Option.bind_some, value?_space,
      Json.skip_cons (show Json.isWhitespace 58 = false by decide), hvalue, hrest]
  cases Json.members? fuel tail <;> rfl

def jsonMembers (members : List (List Json.Piece × Json.Value)) : List (JsString × JsValue) :=
  members.map fun member => (stringOf member.1, ofJson member.2)

theorem membersToJs_keys (members : List (JsString × Tree))
    : (membersToJs members).map Prod.fst = members.map Prod.fst := by
  induction members with
  | nil => rfl
  | cons member members ih =>
    rw [membersToJs, List.map_cons, List.map_cons, ih]

theorem codes_prettyMember (spaces : Nat) (key : JsString) (tree : Tree) (rest : List Nat)
    : codes (prettyMember spaces (key, tree)) ++ rest
        = List.replicate spaces 32
          ++ (codes (quote key) ++ 58 :: 32 :: (codes (tree.pretty spaces) ++ rest)) := by
  rw [prettyMember]
  simp only [codes_append, codes_cons, codes_spaces, List.append_assoc, List.cons_append]
  rfl

mutual

-- Every level of the tree takes a unit of its text, so the length of the text is fuel enough.
theorem value?_pretty (tree : Tree) (h : tree.IsExact) (spaces : Nat) : ∃ json, ofJson json = tree.toJs
    ∧ ∀ fuel rest, (tree.pretty spaces).length ≤ fuel → Json.Ends rest
      → Json.value? fuel (codes (tree.pretty spaces) ++ rest) = some (json, rest) := by
  match tree, h with
  | .integer n, h =>
    refine ⟨.number (Json.integerLiteral n), ?_, fun fuel rest hfuel hrest => ?_⟩
    . rw [ofJson, JsNumber.ofLiteral_integer h, toJs]
    . rcases Json.head?_integerCodes n with ⟨code, list, hcodes, -⟩
      rw [pretty, Ascii.length_units, hcodes, List.length_cons] at hfuel
      cases fuel with
      | zero => omega
      | succ fuel => rw [pretty, codes_integer, Json.value?_integer hrest]
  | .string value, _ =>
    rcases value?_quote value with ⟨pieces, hpieces, hreads⟩
    refine ⟨.string pieces, ?_, fun fuel rest hfuel _ => ?_⟩
    . rw [ofJson, hpieces, toJs]
    . rw [pretty, quote, List.cons_append, List.length_cons] at hfuel
      cases fuel with
      | zero => omega
      | succ fuel => rw [pretty, hreads]
  | .object [], _ =>
    refine ⟨.object [], rfl, fun fuel rest hfuel _ => ?_⟩
    cases fuel with
    | zero => contradiction
    | succ fuel => rfl
  | .object ((key, tree) :: members), h =>
    rcases members?_pretty key tree members h.2 (spaces + 2) with ⟨json, hjson, hreads⟩
    refine ⟨.object json, ?_, fun fuel rest hfuel _ => ?_⟩
    . rw [ofJson, toJs, ofMembers_of_nodup, List.nil_append]
      . rw [← hjson, jsonMembers]
      . have hkeys : (json.map fun member => stringOf member.1)
            = (((key, tree) :: members).map Prod.fst) := by
          rw [← membersToJs_keys, ← hjson, jsonMembers, List.map_map]
          rfl
        rw [List.map_nil, List.nil_append, hkeys]
        exact h.1
    . rw [pretty] at hfuel
      simp only [List.length_cons, List.length_append] at hfuel
      cases fuel with
      | zero => omega
      | succ fuel =>
        have hread := hreads fuel spaces rest (by rw [List.length_append]; omega)
        have hopens : (Json.skip (10 :: (codes (prettyMember (spaces + 2) (key, tree)
            ++ prettyRest (spaces + 2) members)
              ++ 10 :: (List.replicate spaces 32 ++ 125 :: rest)))).head? ≠ some 125 := by
          rw [codes_append, List.append_assoc, codes_prettyMember, codes_quote,
            Json.skip_line _ (by decide)]
          simp
        have htext : codes (pretty spaces (.object ((key, tree) :: members))) ++ rest
            = 123 :: 10 :: (codes (prettyMember (spaces + 2) (key, tree) ++ prettyRest (spaces + 2) members)
              ++ 10 :: (List.replicate spaces 32 ++ 125 :: rest)) := by
          rw [pretty]
          simp only [codes_cons, codes_append, codes_spaces, codes_nil, List.append_assoc,
            List.cons_append, List.nil_append]
          rfl
        rw [htext, Json.value?, Json.skip_cons (by decide)]
        simp only [Nat.reduceEqDiff, ↓reduceIte, hopens, hread]
        rfl
termination_by sizeOf tree
decreasing_by
  simp
  omega

theorem members?_pretty (key : JsString) (tree : Tree) (members : List (JsString × Tree))
    (h : AreExact ((key, tree) :: members)) (spaces : Nat)
    : ∃ json, jsonMembers json = membersToJs ((key, tree) :: members)
      ∧ ∀ fuel outer rest,
        (prettyMember spaces (key, tree) ++ prettyRest spaces members).length ≤ fuel
          → Json.members? fuel (10 :: (codes (prettyMember spaces (key, tree) ++ prettyRest spaces members)
              ++ 10 :: (List.replicate outer 32 ++ 125 :: rest))) = some (json, rest) := by
  match members, h with
  | [], h =>
    rcases members?_member key spaces with ⟨pieces, rfl, hmember⟩
    rcases value?_pretty tree h.1 spaces with ⟨json, hjson, hreads⟩
    refine ⟨[(pieces, json)], ?_, fun fuel outer rest hfuel => ?_⟩
    . rw [jsonMembers, List.map_singleton, hjson]
      rfl
    . rw [prettyRest, List.append_nil, prettyMember] at hfuel ⊢
      simp only [List.length_append, List.length_cons] at hfuel
      cases fuel with
      | zero => omega
      | succ fuel =>
        have hread := hreads fuel (10 :: (List.replicate outer 32 ++ 125 :: rest)) (by omega) (ends_line _)
        have hended := (hmember _ _ _ _ rest hread).2 (Json.skip_line outer (by decide))
        rw [← codes_prettyMember] at hended
        exact hended
  | (next, other) :: members, h =>
    rcases members?_member key spaces with ⟨pieces, rfl, hmember⟩
    rcases value?_pretty tree h.1 spaces with ⟨json, hjson, hreads⟩
    rcases members?_pretty next other members h.2 spaces with ⟨list, hlist, hmembers⟩
    refine ⟨(pieces, json) :: list, ?_, fun fuel outer rest hfuel => ?_⟩
    . rw [jsonMembers, List.map_cons, hjson, membersToJs, ← hlist]
      rfl
    . rw [prettyRest, prettyMember] at hfuel
      simp only [List.length_append, List.length_cons] at hfuel
      cases fuel with
      | zero => omega
      | succ fuel =>
        have hnext := hmembers fuel outer rest (by rw [List.length_append]; omega)
        have hread := hreads fuel (44 :: 10 :: (codes (prettyMember spaces (next, other)
          ++ prettyRest spaces members) ++ 10 :: (List.replicate outer 32 ++ 125 :: rest))) (by omega)
          (ends_comma _)
        have hfirst := (hmember _ _ _ _ _ hread).1 (Json.skip_cons (by decide) _)
        rw [hnext, ← codes_prettyMember] at hfirst
        rw [prettyRest, codes_append, codes_cons, codes_cons, List.append_assoc]
        exact hfirst
termination_by 1 + sizeOf tree + sizeOf members
decreasing_by
  all_goals
    simp
    try omega

end

theorem paired_ascii {text : JsString} (h : ∀ unit ∈ text, unit.toNat < 128) : Paired text := by
  have hpaired : Paired ((codes text).map UInt16.ofNat) := by
    apply paired_map
    intro code hcode
    rw [codes, List.mem_map] at hcode
    rcases hcode with ⟨unit, hunit, rfl⟩
    have hlt := h unit hunit
    exact .inl (by omega)
  have hsame : UInt16.ofNat ∘ UInt16.toNat = id := funext fun unit => UInt16.ofNat_toNat
  rwa [codes, List.map_map, hsame, List.map_id] at hpaired

theorem paired_spaces (n : Nat) : Paired (List.replicate n 32) := by
  apply paired_ascii
  intro unit hunit
  rw [List.eq_of_mem_replicate hunit]
  decide

mutual

-- The text has no lone surrogate, whatever the strings hold.
theorem paired_pretty (tree : Tree) (spaces : Nat) : Paired (tree.pretty spaces) := by
  match tree with
  | .integer n =>
    rw [pretty]
    apply paired_map
    intro code hcode
    have hlt := isAscii_integerCodes n code hcode
    exact .inl (by omega)
  | .string value =>
    rw [pretty]
    exact paired_quote value
  | .object [] =>
    rw [pretty]
    exact paired_ascii (by simp)
  | .object (member :: members) =>
    have hopen : Paired [123, 10] := paired_ascii (by simp)
    have hline : Paired [10] := paired_ascii (by simp)
    have hclose : Paired [125] := paired_ascii (by simp)
    rw [pretty]
    exact hopen.append ((paired_prettyMember member _).append ((paired_prettyRest members _).append
      (hline.append ((paired_spaces spaces).append hclose))))

theorem paired_prettyMember (member : JsString × Tree) (spaces : Nat)
    : Paired (prettyMember spaces member) := by
  match member with
  | (key, tree) =>
    have hcolon : Paired [58, 32] := paired_ascii (by simp)
    rw [prettyMember]
    exact (paired_spaces spaces).append ((paired_quote key).append
      (hcolon.append (paired_pretty tree spaces)))

theorem paired_prettyRest (members : List (JsString × Tree)) (spaces : Nat)
    : Paired (prettyRest spaces members) := by
  match members with
  | [] =>
    rw [prettyRest]
    exact ⟨[], rfl⟩
  | member :: members =>
    have hcomma : Paired [44, 10] := paired_ascii (by simp)
    rw [prettyRest]
    exact hcomma.append ((paired_prettyMember member spaces).append (paired_prettyRest members spaces))

end

theorem ends_whitespace {tail : List Nat} (h : tail.all Json.isWhitespace = true) : Json.Ends tail := by
  intro code hcode
  have hspace := List.all_eq_true.mp h code (List.mem_of_mem_head? hcode)
  simp only [Json.isWhitespace, Bool.or_eq_true, decide_eq_true_eq] at hspace
  simp only [Decimal.isDigit, Bool.and_eq_false_iff, decide_eq_false_iff_not]
  omega

/--
`JSON.parse` returns what `JSON.stringify` has been given, also behind the line break that ends a file.
-/
theorem parse?_pretty {tree : Tree} (h : tree.IsExact) {tail : JsString}
    (htail : (codes tail).all Json.isWhitespace = true)
    : parse? (tree.pretty 0 ++ tail) = some tree.toJs := by
  rcases value?_pretty tree h 0 with ⟨json, hjson, hreads⟩
  have hskip : Json.skip (codes tail) = [] := by
    rw [Json.skip, List.dropWhile_eq_nil_iff]
    exact List.all_eq_true.mp htail
  have hfuel : (tree.pretty 0).length ≤ 2 * (codes (tree.pretty 0 ++ tail)).length + 2 := by
    rw [codes, List.length_map, List.length_append]
    omega
  have hread := hreads _ (codes tail) hfuel (ends_whitespace htail)
  rw [← codes_append] at hread
  change (Json.parse? (codes (tree.pretty 0 ++ tail))).map ofJson = _
  rw [Json.parse?, hread]
  simp only [Option.bind_eq_bind, Option.bind_some, hskip, ↓reduceIte, Option.map_some, hjson]

end

end Tree

end JsValue
