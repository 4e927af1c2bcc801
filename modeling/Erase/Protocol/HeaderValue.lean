import Erase.Library.Base64
import Erase.Library.Hex
import Erase.Library.Json

/-!
What a package header says, apart from how either implementation holds it, and the one text it has.
-/

namespace Protocol

-- A SHA-256 digest as it is written: 64 lowercase hexadecimal digits.
abbrev HexDigest := {codes : List Nat // codes.length = 64 ∧ codes.all Hex.isDigit = true}

structure HeaderValue where
  id : ByteString 32
  ttl : {n : Nat // 60 ≤ n ∧ n ≤ 604800}
  views : {n : Nat // 1 ≤ n ∧ n ≤ 100}
  peek : HexDigest
  read : HexDigest
  revoke : HexDigest
  -- The salt of `argon2id`, and `none` for the password mode of that name.
  salt : Option (ByteString 16)
  nonce : ByteString 24
  deriving DecidableEq

namespace HeaderValue

def base64 (bytes : Bytes) : List Nat := Base64.encode Base64.urlSafe bytes

def codes (text : String) : List Nat := text.toList.map Char.toNat

def kdfCodes (value : HeaderValue) : List Nat :=
  match value.salt with
  | none => codes "none"
  | some _ => codes "argon2id"

def saltCodes (value : HeaderValue) : List Nat :=
  match value.salt with
  | none => []
  | some salt => base64 salt

def names : List String :=
  ["version", "id", "ttl", "views", "peek", "read", "revoke", "kdf", "salt", "nonce"]

def members (value : HeaderValue) : List (List Nat × Json.Scalar) := [
  (codes "version", .number 1),
  (codes "id", .text (base64 value.id)),
  (codes "ttl", .number value.ttl),
  (codes "views", .number value.views),
  (codes "peek", .text value.peek.1),
  (codes "read", .text value.read.1),
  (codes "revoke", .text value.revoke.1),
  (codes "kdf", .text value.kdfCodes),
  (codes "salt", .text value.saltCodes),
  (codes "nonce", .text (base64 value.nonce))]

theorem map_fst_members (value : HeaderValue)
    : value.members.map Prod.fst = names.map codes := rfl

def json (value : HeaderValue) : List Nat := Json.printObject value.members

def bytes (value : HeaderValue) : Bytes := Ascii.bytes value.json

structure IsWord (codes : List Nat) : Prop where
  isAscii : Ascii.IsAscii codes
  isPlain : codes.all Json.isPlain = true

theorem digitCode_bounds (digit : Fin 64)
    : Base64.urlSafe.code digit < 128 ∧ Json.isPlain (Base64.urlSafe.code digit) = true := by
  revert digit
  decide

theorem isWord_base64 (bytes : Bytes) : IsWord (base64 bytes) := by
  have hdigit : ∀ code ∈ base64 bytes, code < 128 ∧ Json.isPlain code = true := by
    intro code hcode
    simp only [base64, Base64.encode, List.mem_map] at hcode
    rcases hcode with ⟨digit, -, rfl⟩
    exact digitCode_bounds digit
  constructor
  . intro code hcode
    exact (hdigit code hcode).1
  . rw [List.all_eq_true]
    intro code hcode
    exact (hdigit code hcode).2

theorem isWord_hex (digest : HexDigest) : IsWord digest.1 := by
  have hdigit : ∀ code ∈ digest.1, code < 128 ∧ Json.isPlain code = true := by
    intro code hcode
    have hhex := List.all_eq_true.mp digest.2.2 code hcode
    simp only [Hex.isDigit, Bool.or_eq_true, Bool.and_eq_true, decide_eq_true_eq] at hhex
    simp only [Json.isPlain, Bool.and_eq_true, decide_eq_true_eq]
    omega
  constructor
  . intro code hcode
    exact (hdigit code hcode).1
  . rw [List.all_eq_true]
    intro code hcode
    exact (hdigit code hcode).2

theorem isWord_kdfCodes (value : HeaderValue) : IsWord value.kdfCodes := by
  unfold kdfCodes
  split
  . exact ⟨by decide, by decide⟩
  . exact ⟨by decide, by decide⟩

theorem isWord_saltCodes (value : HeaderValue) : IsWord value.saltCodes := by
  unfold saltCodes
  split
  . exact ⟨by decide, by decide⟩
  . apply isWord_base64

theorem isCompact_text {key text : List Nat} (hkey : IsWord key) (htext : IsWord text)
    : Json.IsCompact (key, .text text) :=
  ⟨hkey.isAscii, hkey.isPlain, htext.isAscii, htext.isPlain⟩

theorem isCompact_number {key : List Nat} (hkey : IsWord key) (n : Nat)
    : Json.IsCompact (key, .number n) :=
  ⟨hkey.isAscii, hkey.isPlain, trivial, trivial⟩

theorem isCompact_members (value : HeaderValue)
    : ∀ member ∈ value.members, Json.IsCompact member := by
  intro member hmember
  simp only [members, List.mem_cons, List.not_mem_nil, or_false] at hmember
  rcases hmember with rfl | rfl | rfl | rfl | rfl | rfl | rfl | rfl | rfl | rfl
  . exact isCompact_number ⟨by decide, by decide⟩ _
  . exact isCompact_text ⟨by decide, by decide⟩ (isWord_base64 _)
  . exact isCompact_number ⟨by decide, by decide⟩ _
  . exact isCompact_number ⟨by decide, by decide⟩ _
  . exact isCompact_text ⟨by decide, by decide⟩ (isWord_hex _)
  . exact isCompact_text ⟨by decide, by decide⟩ (isWord_hex _)
  . exact isCompact_text ⟨by decide, by decide⟩ (isWord_hex _)
  . exact isCompact_text ⟨by decide, by decide⟩ (isWord_kdfCodes _)
  . exact isCompact_text ⟨by decide, by decide⟩ (isWord_saltCodes _)
  . exact isCompact_text ⟨by decide, by decide⟩ (isWord_base64 _)

theorem nodup_members (value : HeaderValue) : (value.members.map Prod.fst).Nodup := by
  simp only [members, List.map_cons, List.map_nil]
  decide

theorem isAscii_json (value : HeaderValue) : Ascii.IsAscii value.json :=
  Json.isAscii_printObject value.isCompact_members

theorem length_base64 (bytes : Bytes) : (base64 bytes).length = (bytes.length * 4 + 2) / 3 :=
  Base64.length_encode _ _

theorem base64_injective : Function.Injective base64 := Base64.encode_injective _

theorem length_bytes_bounds (value : HeaderValue)
    : 1 ≤ value.bytes.length ∧ value.bytes.length ≤ 2048 := by
  have hid : (base64 value.id.1).length = 43 := by rw [length_base64, value.id.2]
  have hnonce : (base64 value.nonce.1).length = 32 := by rw [length_base64, value.nonce.2]
  have httl : (Decimal.codes value.ttl.1).length ≤ 6 := by
    have := value.ttl.2
    exact Decimal.length_codes_le (by decide) (by omega)
  have hviews : (Decimal.codes value.views.1).length ≤ 3 := by
    have := value.views.2
    exact Decimal.length_codes_le (by decide) (by omega)
  have hkdf : value.kdfCodes.length ≤ 8 := by
    unfold kdfCodes
    split <;> decide
  have hsalt : value.saltCodes.length ≤ 22 := by
    unfold saltCodes
    split
    . simp
    . next salt _ => rw [length_base64, salt.2]
  have hpeek := value.peek.2.1
  have hread := value.read.2.1
  have hrevoke := value.revoke.2.1
  simp only [bytes, Ascii.length_bytes, json, members, Json.printObject, Json.printRest,
    Json.printMember, Json.Scalar.print, codes, List.flatMap_cons, List.flatMap_nil,
    List.length_append, List.length_cons, List.length_nil, List.length_map, hid, hnonce, hpeek,
    hread, hrevoke]
  have hversion : (Decimal.codes 1).length ≤ 1 := Decimal.length_codes_le (by decide) (by decide)
  simp
  omega

end HeaderValue

end Protocol
