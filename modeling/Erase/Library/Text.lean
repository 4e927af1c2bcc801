import Erase.Library.Bytes

/-!
Text as sequences of Unicode scalar values, its UTF-8 form, and strings of UTF-16 code units that
may hold lone surrogates.
-/

namespace Utf8

def encode (text : List Char) : Bytes := text.flatMap String.utf8EncodeChar

/--
Decoding in fatal mode: `none` on every sequence that is not well formed.
-/
def decode? (bytes : Bytes) : Option (List Char) :=
  bytes.toByteArray.utf8Decode?.map Array.toList

theorem toByteArray_encode (text : List Char) : (encode text).toByteArray = text.utf8Encode := rfl

@[simp]
theorem encode_nil : encode [] = [] := rfl

@[simp]
theorem encode_append (left right : List Char) :
    encode (left ++ right) = encode left ++ encode right := by
  simp [encode]

theorem encode_cons (c : Char) (text : List Char) :
    encode (c :: text) = String.utf8EncodeChar c ++ encode text := by
  simp [encode]

@[simp]
theorem decode?_encode (text : List Char) : decode? (encode text) = some text := by
  simp [decode?, toByteArray_encode]

theorem encode_injective : Function.Injective encode := by
  intro left right h
  have hdecode := decode?_encode left
  rw [h, decode?_encode] at hdecode
  exact (Option.some.inj hdecode).symm

theorem toByteArray_injective : Function.Injective (List.toByteArray) := by
  intro left right h
  have hdata := congrArg (fun bytes => bytes.data.toList) h
  simpa using hdata

/--
Fatal decoding accepts exactly the encoder's image, so a text has one encoding.
-/
theorem encode_of_decode?_eq_some {bytes : Bytes} {text : List Char}
    (h : decode? bytes = some text) : encode text = bytes := by
  simp only [decode?, Option.map_eq_some_iff] at h
  rcases h with ⟨chars, hchars, rfl⟩
  apply toByteArray_injective
  rw [toByteArray_encode]
  have hget : bytes.toByteArray.utf8Decode?.get (by simp [hchars]) = chars := by simp [hchars]
  rw [← hget, ByteArray.utf8Encode_get_utf8Decode?]

theorem encodeChar_of_ascii {c : Char} (h : c.toNat < 128) :
    String.utf8EncodeChar c = [UInt8.ofNat c.toNat] := by
  have hsize : c.utf8Size = 1 := by
    rw [Char.utf8Size_eq_one_iff, UInt32.le_iff_toNat_le]
    exact Nat.le_of_lt_succ h
  rw [String.utf8EncodeChar_eq_singleton hsize]
  rfl

theorem encode_of_ascii {text : List Char} (h : ∀ c ∈ text, c.toNat < 128) :
    encode text = text.map fun c => UInt8.ofNat c.toNat := by
  induction text with
  | nil => rfl
  | cons c text ih =>
    rw [encode_cons, encodeChar_of_ascii (h c (by simp)),
      ih fun d hd => h d (List.mem_cons_of_mem c hd)]
    rfl

end Utf8

/-- A string as a sequence of UTF-16 code units, not necessarily well formed. -/
abbrev JsString := List UInt16

instance : LawfulBEq JsString := inferInstance

namespace JsString

def encodeChar (c : Char) : JsString :=
  if c.toNat < 0x10000 then
    [UInt16.ofNat c.toNat]
  else
    [UInt16.ofNat (0xD800 + (c.toNat - 0x10000) / 0x400),
      UInt16.ofNat (0xDC00 + (c.toNat - 0x10000) % 0x400)]

def ofChars (text : List Char) : JsString := text.flatMap encodeChar

def ofString (text : String) : JsString := ofChars text.toList

def isLeading (unit : UInt16) : Bool := 0xD800 ≤ unit.toNat && unit.toNat < 0xDC00

def isTrailing (unit : UInt16) : Bool := 0xDC00 ≤ unit.toNat && unit.toNat < 0xE000

def ofPair (leading trailing : UInt16) : Char :=
  Char.ofNat (0x10000 + (leading.toNat - 0xD800) * 0x400 + (trailing.toNat - 0xDC00))

/--
The scalar values of a string, every lone surrogate read as the replacement character.
-/
def scalars : JsString → List Char
  | [] => []
  | [unit] =>
    if isLeading unit || isTrailing unit then ['\uFFFD'] else [Char.ofNat unit.toNat]
  | unit :: next :: rest =>
    if isLeading unit then
      if isTrailing next then
        ofPair unit next :: scalars rest
      else
        '\uFFFD' :: scalars (next :: rest)
    else if isTrailing unit then
      '\uFFFD' :: scalars (next :: rest)
    else
      Char.ofNat unit.toNat :: scalars (next :: rest)

@[simp]
theorem ofChars_nil : ofChars [] = [] := rfl

theorem ofChars_cons (c : Char) (text : List Char) :
    ofChars (c :: text) = encodeChar c ++ ofChars text := by
  simp [ofChars]

@[simp]
theorem ofChars_append (left right : List Char) :
    ofChars (left ++ right) = ofChars left ++ ofChars right := by
  simp [ofChars]

theorem toNat_cases (c : Char) :
    c.toNat < 0xD800 ∨ (0xE000 ≤ c.toNat ∧ c.toNat < 0x110000) := by
  rcases c.valid with h | ⟨hlow, hhigh⟩
  . exact Or.inl h
  . exact Or.inr ⟨Nat.succ_le_of_lt hlow, hhigh⟩

theorem scalars_bmp_cons (c : Char) (h : c.toNat < 0x10000) (rest : JsString) :
    scalars (UInt16.ofNat c.toNat :: rest) = c :: scalars rest := by
  have hnat : (UInt16.ofNat c.toNat).toNat = c.toNat := by simp; omega
  have hleading : isLeading (UInt16.ofNat c.toNat) = false := by
    have := toNat_cases c
    simp only [isLeading, hnat, Bool.and_eq_false_imp, decide_eq_true_eq, decide_eq_false_iff_not]
    omega
  have htrailing : isTrailing (UInt16.ofNat c.toNat) = false := by
    have := toNat_cases c
    simp only [isTrailing, hnat, Bool.and_eq_false_imp, decide_eq_true_eq, decide_eq_false_iff_not]
    omega
  cases rest with
  | nil => simp [scalars, hleading, htrailing, hnat]
  | cons next rest => simp [scalars, hleading, htrailing, hnat]

theorem scalars_pair_cons (c : Char) (h : 0x10000 ≤ c.toNat) (rest : JsString) :
    scalars (encodeChar c ++ rest) = c :: scalars rest := by
  have hmax : c.toNat < 0x110000 := by
    have := toNat_cases c
    omega
  have hhigh : (UInt16.ofNat (0xD800 + (c.toNat - 0x10000) / 0x400)).toNat
      = 0xD800 + (c.toNat - 0x10000) / 0x400 := by
    simp only [UInt16.toNat_ofNat']
    omega
  have hlow : (UInt16.ofNat (0xDC00 + (c.toNat - 0x10000) % 0x400)).toNat
      = 0xDC00 + (c.toNat - 0x10000) % 0x400 := by
    simp only [UInt16.toNat_ofNat']
    omega
  have hleading : isLeading (UInt16.ofNat (0xD800 + (c.toNat - 0x10000) / 0x400)) = true := by
    simp only [isLeading, hhigh, Bool.and_eq_true, decide_eq_true_eq]
    omega
  have htrailing : isTrailing (UInt16.ofNat (0xDC00 + (c.toNat - 0x10000) % 0x400)) = true := by
    simp only [isTrailing, hlow, Bool.and_eq_true, decide_eq_true_eq]
    omega
  have hpair : 0x10000 + (0xD800 + (c.toNat - 0x10000) / 0x400 - 0xD800) * 0x400
      + (0xDC00 + (c.toNat - 0x10000) % 0x400 - 0xDC00) = c.toNat := by omega
  simp only [encodeChar, Nat.not_lt.mpr h, ↓reduceIte, List.cons_append, List.nil_append, scalars,
    hleading, htrailing, ofPair, hhigh, hlow, hpair, Char.ofNat_toNat]

@[simp]
theorem scalars_encodeChar_append (c : Char) (rest : JsString) :
    scalars (encodeChar c ++ rest) = c :: scalars rest := by
  by_cases h : c.toNat < 0x10000
  . rw [encodeChar, if_pos h]
    exact scalars_bmp_cons c h rest
  . exact scalars_pair_cons c (Nat.le_of_not_lt h) rest

@[simp]
theorem scalars_ofChars (text : List Char) : scalars (ofChars text) = text := by
  induction text with
  | nil => rfl
  | cons c text ih => rw [ofChars_cons, scalars_encodeChar_append, ih]

theorem ofChars_injective : Function.Injective ofChars := by
  intro left right h
  rw [← scalars_ofChars left, h, scalars_ofChars]

/-- A string without lone surrogates. -/
def WellFormed (text : JsString) : Prop := ofChars (scalars text) = text

instance (text : JsString) : Decidable (WellFormed text) :=
  inferInstanceAs (Decidable (_ = _))

theorem wellFormed_ofChars (text : List Char) : WellFormed (ofChars text) := by
  simp [WellFormed]

/--
UTF-16 never needs more code units than UTF-8 needs bytes.
-/
theorem length_encodeChar_le (c : Char) :
    (encodeChar c).length ≤ (String.utf8EncodeChar c).length := by
  rw [String.length_utf8EncodeChar]
  unfold encodeChar
  split
  . exact c.utf8Size_pos
  . next h =>
    have hsize : c.utf8Size = 4 := by
      rw [Char.utf8Size_eq_four_iff, UInt32.lt_iff_toNat_lt]
      exact Nat.lt_of_succ_le (Nat.le_of_not_lt h)
    simp [hsize]

theorem length_ofChars_le (text : List Char) :
    (ofChars text).length ≤ (Utf8.encode text).length := by
  induction text with
  | nil => simp
  | cons c text ih =>
    have := length_encodeChar_le c
    rw [ofChars_cons, Utf8.encode_cons, List.length_append, List.length_append]
    omega

theorem length_utf8EncodeChar_le (c : Char) :
    (String.utf8EncodeChar c).length ≤ 3 * (encodeChar c).length := by
  have hsize := c.utf8Size_le_four
  rw [String.length_utf8EncodeChar]
  unfold encodeChar
  split
  . next h =>
    have hne : c.utf8Size ≠ 4 := by
      rw [Ne, Char.utf8Size_eq_four_iff, UInt32.lt_iff_toNat_lt]
      exact Nat.not_lt_of_le (Nat.le_of_lt_succ h)
    rw [List.length_singleton]
    omega
  . simp only [List.length_cons, List.length_nil]
    omega

theorem length_encode_le (text : List Char) :
    (Utf8.encode text).length ≤ 3 * (ofChars text).length := by
  induction text with
  | nil => simp
  | cons c text ih =>
    have := length_utf8EncodeChar_le c
    rw [ofChars_cons, Utf8.encode_cons, List.length_append, List.length_append]
    omega

theorem ofChars_of_ascii {text : List Char} (h : ∀ c ∈ text, c.toNat < 128) :
    ofChars text = text.map fun c => UInt16.ofNat c.toNat := by
  induction text with
  | nil => rfl
  | cons c text ih =>
    have hc : c.toNat < 0x10000 := Nat.lt_trans (h c (by simp)) (by decide)
    rw [ofChars_cons, ih fun d hd => h d (List.mem_cons_of_mem c hd)]
    simp [encodeChar, hc]

end JsString

namespace Ascii

def IsAscii (codes : List Nat) : Prop := ∀ code ∈ codes, code < 128

instance (codes : List Nat) : Decidable (IsAscii codes) :=
  inferInstanceAs (Decidable (∀ code ∈ codes, code < 128))

def bytes (codes : List Nat) : Bytes := codes.map UInt8.ofNat

def units (codes : List Nat) : JsString := codes.map UInt16.ofNat

def chars (codes : List Nat) : List Char := codes.map Char.ofNat

variable {codes : List Nat}

@[simp]
theorem length_bytes (codes : List Nat) : (bytes codes).length = codes.length := by simp [bytes]

@[simp]
theorem length_units (codes : List Nat) : (units codes).length = codes.length := by simp [units]

theorem toNat_ofNat {code : Nat} (h : code < 128) : (Char.ofNat code).toNat = code := by
  have hvalid : code.isValidChar := Or.inl (by omega)
  rw [Char.ofNat, dif_pos hvalid]
  rfl

theorem map_toNat_bytes (h : IsAscii codes) : (bytes codes).map UInt8.toNat = codes := by
  have hid : ∀ code ∈ codes, (UInt8.toNat ∘ UInt8.ofNat) code = id code := by
    intro code hcode
    have := h code hcode
    simp only [Function.comp_apply, UInt8.toNat_ofNat', id_eq]
    omega
  rw [bytes, List.map_map, List.map_congr_left hid, List.map_id]

theorem map_toNat_units (h : IsAscii codes) : (units codes).map UInt16.toNat = codes := by
  have hid : ∀ code ∈ codes, (UInt16.toNat ∘ UInt16.ofNat) code = id code := by
    intro code hcode
    have := h code hcode
    simp only [Function.comp_apply, UInt16.toNat_ofNat', id_eq]
    omega
  rw [units, List.map_map, List.map_congr_left hid, List.map_id]

theorem units_injOn {left right : List Nat} (hleft : IsAscii left) (hright : IsAscii right)
    (h : units left = units right)
    : left = right := by
  rw [← map_toNat_units hleft, h, map_toNat_units hright]

theorem map_toNat_chars (h : IsAscii codes) : (chars codes).map Char.toNat = codes := by
  have hid : ∀ code ∈ codes, (Char.toNat ∘ Char.ofNat) code = id code := by
    intro code hcode
    exact toNat_ofNat (h code hcode)
  rw [chars, List.map_map, List.map_congr_left hid, List.map_id]

theorem toNat_lt_of_mem_chars (h : IsAscii codes) {c : Char} (hc : c ∈ chars codes) :
    c.toNat < 128 := by
  simp only [chars, List.mem_map] at hc
  rcases hc with ⟨code, hcode, rfl⟩
  rw [toNat_ofNat (h code hcode)]
  exact h code hcode

def string (codes : List Nat) : String := String.ofList (chars codes)

theorem string_injOn {left right : List Nat} (hleft : IsAscii left) (hright : IsAscii right)
    (h : string left = string right)
    : left = right := by
  have hchars : chars left = chars right := String.ofList_injective h
  rw [← map_toNat_chars hleft, hchars, map_toNat_chars hright]

theorem encode_chars (h : IsAscii codes) : Utf8.encode (chars codes) = bytes codes := by
  rw [Utf8.encode_of_ascii fun c hc => toNat_lt_of_mem_chars h hc, bytes, ← map_toNat_chars h,
    List.map_map, map_toNat_chars h]
  rfl

theorem encode_toList_string (h : IsAscii codes)
    : Utf8.encode (string codes).toList = bytes codes := by
  rw [string, String.toList_ofList, encode_chars h]

theorem ofChars_chars (h : IsAscii codes) : JsString.ofChars (chars codes) = units codes := by
  rw [JsString.ofChars_of_ascii fun c hc => toNat_lt_of_mem_chars h hc, units, ← map_toNat_chars h,
    List.map_map, map_toNat_chars h]
  rfl

theorem ofString_string (h : IsAscii codes) : JsString.ofString (string codes) = units codes := by
  rw [JsString.ofString, string, String.toList_ofList, ofChars_chars h]

theorem scalars_units (h : IsAscii codes) : JsString.scalars (units codes) = chars codes := by
  rw [← ofChars_chars h, JsString.scalars_ofChars]

theorem decode?_bytes (h : IsAscii codes) : Utf8.decode? (bytes codes) = some (chars codes) := by
  rw [← encode_chars h, Utf8.decode?_encode]

end Ascii
