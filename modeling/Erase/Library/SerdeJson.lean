import Erase.Library.Json

/-!
The readers and the compact printer of `serde_json` for structs of strings and unsigned integers.
-/

namespace SerdeJson

def isLeading (code : Nat) : Bool := 0xD800 ≤ code && code < 0xDC00

def isTrailing (code : Nat) : Bool := 0xDC00 ≤ code && code < 0xE000

-- Raw units are the UTF-8 bytes of the text. An escaped surrogate without its partner is an error.
def bytesOf? : List Json.Piece → Option Bytes
  | [] => some []
  | .unit code :: rest => (bytesOf? rest).map (UInt8.ofNat code :: ·)
  | [.escaped code] =>
    if isLeading code || isTrailing code then
      none
    else
      some (String.utf8EncodeChar (Char.ofNat code))
  | .escaped code :: .escaped next :: rest =>
    if isLeading code then
      if isTrailing next then
        (bytesOf? rest).map (String.utf8EncodeChar
          (Char.ofNat (0x10000 + (code - 0xD800) * 0x400 + (next - 0xDC00))) ++ ·)
      else
        none
    else if isTrailing code then
      none
    else
      (bytesOf? (.escaped next :: rest)).map (String.utf8EncodeChar (Char.ofNat code) ++ ·)
  | .escaped code :: .unit next :: rest =>
    if isLeading code || isTrailing code then
      none
    else
      (bytesOf? (.unit next :: rest)).map (String.utf8EncodeChar (Char.ofNat code) ++ ·)

def stringOf? (pieces : List Json.Piece) : Option String :=
  ((bytesOf? pieces).bind Utf8.decode?).map String.ofList

def string? : Json.Value → Option String
  | .string pieces => stringOf? pieces
  | _ => none

-- An integer without sign, fraction and exponent that the type holds.
def unsigned? (bits : Nat) : Json.Value → Option Nat
  | .number literal =>
    if literal.negative = false ∧ literal.fraction = none ∧ literal.exponent = none
        ∧ Decimal.value literal.integer < 2 ^ bits then
      some (Decimal.value literal.integer)
    else
      none
  | _ => none

def keys? (members : List (List Json.Piece × Json.Value)) : Option (List String) :=
  members.mapM fun member => stringOf? member.1

def lookup? (table : List (String × β)) (name : String) : Option β :=
  (table.find? fun entry => entry.1 = name).map Prod.snd

-- The values of a struct's fields: every field once, no other member, or a sequence of them.
def fields? (names : List String) : Json.Value → Option (List Json.Value)
  | .object members => do
    let keys ← keys? members
    if keys.Nodup ∧ (keys.all fun key => key ∈ names) then
      names.mapM fun name => lookup? (keys.zip (members.map Prod.snd)) name
    else
      none
  | .array elements => if elements.length = names.length then some elements else none
  | _ => none

def parse? (bytes : Bytes) : Option Json.Value := Json.parse? (bytes.map UInt8.toNat)

inductive Scalar where
  | number (n : Nat)
  | string (value : String)

def quote (value : String) : Bytes :=
  34 :: ((Utf8.encode value.toList).flatMap fun byte =>
    (Json.quoteCode byte.toNat).map UInt8.ofNat) ++ [34]

def Scalar.print : Scalar → Bytes
  | .number n => Decimal.print n
  | .string value => quote value

def printMember (member : String × Scalar) : Bytes :=
  quote member.1 ++ 58 :: member.2.print

def toVec : List (String × Scalar) → Bytes
  | [] => [123, 125]
  | member :: members =>
    123 :: printMember member ++ (members.flatMap fun member => 44 :: printMember member) ++ [125]

def Scalar.ofCodes : Json.Scalar → Scalar
  | .text codes => .string (Ascii.string codes)
  | .number n => .number n

def memberOfCodes (member : List Nat × Json.Scalar) : String × Scalar :=
  (Ascii.string member.1, Scalar.ofCodes member.2)

theorem quote_string {codes : List Nat} (hascii : Ascii.IsAscii codes)
    (hplain : codes.all Json.isPlain = true)
    : quote (Ascii.string codes) = Ascii.bytes (34 :: codes ++ [34]) := by
  have hbody : (Ascii.bytes codes).flatMap (fun byte =>
      (Json.quoteCode byte.toNat).map UInt8.ofNat) = Ascii.bytes codes := by
    rw [Ascii.bytes, List.flatMap_map, ← List.flatMap_singleton' (codes.map UInt8.ofNat),
      List.flatMap_map]
    apply List.flatMap_congr
    intro code hcode
    have hlt := hascii code hcode
    have hnat : (UInt8.ofNat code).toNat = code := by
      simp only [UInt8.toNat_ofNat']
      omega
    rw [hnat, Json.quoteCode_of_isPlain (List.all_eq_true.mp hplain code hcode)]
    rfl
  rw [quote, Ascii.encode_toList_string hascii, hbody]
  simp [Ascii.bytes]

theorem printMember_memberOfCodes {member : List Nat × Json.Scalar} (h : Json.IsCompact member)
    : printMember (memberOfCodes member) = Ascii.bytes (Json.printMember member) := by
  have hkey := quote_string h.key_isAscii h.key_isPlain
  unfold printMember memberOfCodes Json.printMember
  dsimp only
  rw [hkey]
  cases hvalue : member.2 with
  | number n =>
    simp [Scalar.ofCodes, Scalar.print, Json.Scalar.print, Decimal.print, Ascii.bytes]
  | text codes =>
    have hascii := h.isAscii
    have hplain := h.isPlain
    rw [hvalue] at hascii hplain
    dsimp only [Scalar.ofCodes, Scalar.print, Json.Scalar.print]
    rw [quote_string hascii hplain]
    simp [Ascii.bytes]

theorem toVec_memberOfCodes {members : List (List Nat × Json.Scalar)}
    (h : ∀ member ∈ members, Json.IsCompact member)
    : toVec (members.map memberOfCodes) = Ascii.bytes (Json.printObject members) := by
  cases members with
  | nil => rfl
  | cons member members =>
    have hrest : (members.map memberOfCodes).flatMap (fun member => 44 :: printMember member)
        = Ascii.bytes (Json.printRest members) := by
      rw [List.flatMap_map, Json.printRest, Ascii.bytes, List.map_flatMap]
      apply List.flatMap_congr
      intro other hother
      rw [printMember_memberOfCodes (h other (List.mem_cons_of_mem _ hother))]
      rfl
    rw [List.map_cons, toVec, printMember_memberOfCodes (h member (by simp)), hrest]
    simp [Json.printObject, Ascii.bytes]

theorem bytesOf?_units (codes : List Nat)
    : bytesOf? (codes.map .unit) = some (Ascii.bytes codes) := by
  induction codes with
  | nil => rfl
  | cons code codes ih =>
    rw [List.map_cons, bytesOf?.eq_def]
    simp [ih, Ascii.bytes]

theorem stringOf?_units {codes : List Nat} (h : Ascii.IsAscii codes)
    : stringOf? (codes.map .unit) = some (Ascii.string codes) := by
  simp [stringOf?, bytesOf?_units, Ascii.decode?_bytes h, Ascii.string]

theorem string?_value {codes : List Nat} (h : Ascii.IsAscii codes)
    : string? (Json.Scalar.text codes).value = some (Ascii.string codes) := by
  rw [Json.Scalar.value, string?, stringOf?_units h]

theorem unsigned?_value {bits n : Nat} (h : n < 2 ^ bits)
    : unsigned? bits (Json.Scalar.number n).value = some n := by
  simp [Json.Scalar.value, unsigned?, h]

theorem keys?_compact {members : List (List Nat × Json.Scalar)}
    (h : ∀ member ∈ members, Json.IsCompact member)
    : keys? (members.map fun member => (member.1.map .unit, member.2.value))
        = some (members.map fun member => Ascii.string member.1) := by
  induction members with
  | nil => rfl
  | cons member members ih =>
    have hrest := ih fun other hother => h other (List.mem_cons_of_mem _ hother)
    unfold keys? at hrest ⊢
    rw [List.map_cons, List.mapM_cons, hrest, stringOf?_units (h member (by simp)).key_isAscii]
    rfl

theorem lookup?_of_mem {table : List (String × β)} (h : (table.map Prod.fst).Nodup)
    {entry : String × β} (hentry : entry ∈ table)
    : lookup? table entry.1 = some entry.2 := by
  induction table with
  | nil => contradiction
  | cons head table ih =>
    rw [List.map_cons, List.nodup_cons] at h
    by_cases heq : head.1 = entry.1
    . have hhead : head = entry := by
        rcases List.mem_cons.mp hentry with hhead | htail
        . exact hhead.symm
        . exact absurd (heq ▸ List.mem_map_of_mem htail) h.1
      simp [lookup?, hhead]
    . have htail : entry ∈ table := by
        rcases List.mem_cons.mp hentry with hhead | htail
        . exact absurd (congrArg Prod.fst hhead.symm) heq
        . exact htail
      have hlookup := ih h.2 htail
      unfold lookup? at hlookup ⊢
      rw [List.find?_cons_of_neg (by simpa using heq), hlookup]

theorem mapM_lookup? {table : List (String × β)} {names : List String} {values : List β}
    (hlength : names.length = values.length)
    (h : ∀ entry ∈ names.zip values, lookup? table entry.1 = some entry.2)
    : names.mapM (lookup? table) = some values := by
  induction names generalizing values with
  | nil =>
    cases values with
    | nil => rfl
    | cons => contradiction
  | cons name names ih =>
    cases values with
    | nil => contradiction
    | cons value values =>
      have hhead := h (name, value) (by simp)
      have htail := ih (by simpa using hlength) fun entry hentry =>
        h entry (by rw [List.zip_cons_cons]; exact List.mem_cons_of_mem _ hentry)
      rw [List.mapM_cons, hhead, htail]
      rfl

theorem fields?_compact {members : List (List Nat × Json.Scalar)}
    (h : ∀ member ∈ members, Json.IsCompact member) (hnodup : (members.map Prod.fst).Nodup)
    : fields? (members.map fun member => Ascii.string member.1)
        (.object (members.map fun member => (member.1.map .unit, member.2.value)))
      = some (members.map fun member => member.2.value) := by
  have hkeys : (members.map fun member => Ascii.string member.1).Nodup := by
    have hmap : (members.map fun member => Ascii.string member.1)
        = (members.map Prod.fst).map Ascii.string := by simp
    rw [hmap]
    apply List.Nodup.map_on _ hnodup
    intro left hleft right hright heq
    rw [List.mem_map] at hleft hright
    rcases hleft with ⟨leftMember, hleft, rfl⟩
    rcases hright with ⟨rightMember, hright, rfl⟩
    exact Ascii.string_injOn (h _ hleft).key_isAscii (h _ hright).key_isAscii heq
  have hall : ((members.map fun member => Ascii.string member.1).all fun key =>
      key ∈ members.map fun member => Ascii.string member.1) = true := by
    rw [List.all_eq_true]
    intro key hkey
    exact decide_eq_true hkey
  have hfst : (((members.map fun member => Ascii.string member.1).zip
      ((members.map fun member => (member.1.map Json.Piece.unit, member.2.value)).map
        Prod.snd)).map Prod.fst).Nodup := by
    rw [List.map_fst_zip (by simp)]
    exact hkeys
  rw [fields?, keys?_compact h, Option.bind_eq_bind, Option.bind_some,
    if_pos ⟨hkeys, hall⟩]
  have hvalues : (members.map fun member => (member.1.map Json.Piece.unit, member.2.value)).map
      Prod.snd = members.map fun member => member.2.value := by simp
  rw [hvalues] at hfst ⊢
  apply mapM_lookup? (by simp)
  intro entry hentry
  exact lookup?_of_mem hfst hentry

end SerdeJson
