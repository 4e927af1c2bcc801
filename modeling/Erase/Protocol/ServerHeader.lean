import Erase.Protocol.HeaderValue
import Erase.Server.Protocol

open Server

namespace Protocol

namespace HeaderValue

def toServer (value : HeaderValue) : Server.Header where
  version := 1
  id := Ascii.string (base64 value.id)
  ttl := value.ttl
  views := value.views
  peek := Ascii.string value.peek.1
  read := Ascii.string value.read.1
  revoke := Ascii.string value.revoke.1
  kdf := Ascii.string value.kdfCodes
  salt := Ascii.string value.saltCodes
  nonce := Ascii.string (base64 value.nonce)

theorem eq_string_iff {text : String} {codes : List Nat} (h : Ascii.IsAscii codes)
    : text = Ascii.string codes ↔ asBytes text = Ascii.bytes codes := by
  constructor
  . rintro rfl
    exact Ascii.encode_toList_string h
  . intro hbytes
    rw [asBytes, ← Ascii.encode_chars h] at hbytes
    rw [Ascii.string, ← Utf8.encode_injective hbytes, String.ofList_toList]

theorem asBytes_string {codes : List Nat} (h : Ascii.IsAscii codes)
    : asBytes (Ascii.string codes) = Ascii.bytes codes := (eq_string_iff h).mp rfl

theorem base64Bytes_eq_ok_iff {text : String} {length : Nat} {bytes : Bytes}
    : base64Bytes text length = .ok bytes
        ↔ bytes.length = length ∧ text = Ascii.string (base64 bytes) := by
  have hascii := (isWord_base64 bytes).isAscii
  constructor
  . intro h
    simp only [base64Bytes, Except.guard_eq_ok] at h
    replace h := h.2
    split at h
    . contradiction
    . next decoded _ =>
      simp only [Except.guard_eq_ok, pure, Except.pure, Except.ok.injEq] at h
      rcases h with ⟨hchecks, rfl⟩
      push Not at hchecks
      exact ⟨hchecks.1, hchecks.2.symm⟩
  . rintro ⟨hlength, rfl⟩
    have hdecode : Base64.decodeStrict? Base64.urlSafe
        ((asBytes (Ascii.string (base64 bytes))).map UInt8.toNat) = some bytes := by
      rw [asBytes_string hascii, Ascii.map_toNat_bytes hascii, Base64.decodeStrict?_eq_some_iff]
      rfl
    unfold base64Bytes
    rw [if_neg, hdecode]
    . dsimp only
      rw [if_neg]
      . rfl
      . push Not
        exact ⟨hlength, rfl⟩
    . rw [not_not, asBytes_string hascii, Ascii.length_bytes, length_base64]
      omega

theorem isOk_base64Bytes_iff {text : String} {length : Nat}
    : isOk (base64Bytes text length) = true
        ↔ ∃ bytes : ByteString length, text = Ascii.string (base64 bytes) := by
  constructor
  . intro h
    cases hbytes : base64Bytes text length with
    | error e =>
      rw [hbytes] at h
      contradiction
    | ok bytes =>
      rw [base64Bytes_eq_ok_iff] at hbytes
      exact ⟨⟨bytes, hbytes.1⟩, hbytes.2⟩
  . rintro ⟨bytes, htext⟩
    rw [base64Bytes_eq_ok_iff.mpr ⟨bytes.2, htext⟩]
    rfl

theorem isHash_iff {text : String}
    : isHash text = true ↔ ∃ digest : HexDigest, text = Ascii.string digest.1 := by
  have hdigit (byte : UInt8) : ((48 ≤ byte.toNat && byte.toNat ≤ 57)
      || (97 ≤ byte.toNat && byte.toNat ≤ 102)) = Hex.isDigit byte.toNat := by
    rw [Hex.isDigit, Bool.or_comm]
  simp only [isHash, hdigit, Bool.and_eq_true, decide_eq_true_eq]
  constructor
  . rintro ⟨hlength, hall⟩
    have hdigits : ((asBytes text).map UInt8.toNat).all Hex.isDigit = true := by
      rw [List.all_map]
      exact hall
    let digest : HexDigest :=
      ⟨(asBytes text).map UInt8.toNat, by rw [List.length_map, hlength], hdigits⟩
    refine ⟨digest, (eq_string_iff (isWord_hex digest).isAscii).mpr ?_⟩
    simp [digest, Ascii.bytes, Function.comp_def]
  . rintro ⟨digest, rfl⟩
    have hascii := (isWord_hex digest).isAscii
    have hall := digest.2.2
    rw [asBytes_string hascii, Ascii.length_bytes]
    rw [← Ascii.map_toNat_bytes hascii, List.all_map] at hall
    exact ⟨digest.2.1, hall⟩

theorem string_codes (text : String) : Ascii.string (codes text) = text := by
  have hid : (codes text).map Char.ofNat = text.toList := by
    rw [codes, List.map_map]
    simp [Function.comp_def]
  rw [Ascii.string, Ascii.chars, hid, String.ofList_toList]

theorem fields_eq : Header.fields = names.map fun name => Ascii.string (codes name) := by
  simp only [string_codes, List.map_id']
  rfl

theorem toVec_toServer (value : HeaderValue) : value.toServer.toVec = value.bytes := by
  have hmembers : Header.fields.zip [
      SerdeJson.Scalar.number value.toServer.version,
      .string value.toServer.id,
      .number value.toServer.ttl,
      .number value.toServer.views,
      .string value.toServer.peek,
      .string value.toServer.read,
      .string value.toServer.revoke,
      .string value.toServer.kdf,
      .string value.toServer.salt,
      .string value.toServer.nonce] = value.members.map SerdeJson.memberOfCodes := by
    rw [fields_eq]
    rfl
  rw [Header.toVec, hmembers, SerdeJson.toVec_memberOfCodes value.isCompact_members]
  rfl

theorem fields?_members (value : HeaderValue)
    : SerdeJson.fields? Header.fields (.object (value.members.map fun member =>
        (member.1.map .unit, member.2.value))) = some (value.members.map fun member =>
          member.2.value) := by
  have hnames : Header.fields = value.members.map fun member => Ascii.string member.1 := by
    rw [fields_eq]
    rfl
  rw [hnames]
  exact SerdeJson.fields?_compact value.isCompact_members value.nodup_members

theorem fromSlice?_bytes (value : HeaderValue)
    : Header.fromSlice? value.bytes = some value.toServer := by
  have hplain : ∀ member ∈ value.members, member.1.all Json.isPlain = true ∧ member.2.IsPlain := by
    intro member hmember
    have hcompact := value.isCompact_members member hmember
    exact ⟨hcompact.key_isPlain, hcompact.isPlain⟩
  have httl := value.ttl.2
  have hviews := value.views.2
  unfold Header.fromSlice? SerdeJson.parse? bytes
  rw [Ascii.map_toNat_bytes value.isAscii_json, json, Json.parse?_printObject hplain,
    Option.bind_some, fields?_members, Option.bind_some]
  simp only [members, List.map_cons, List.map_nil, Header.ofValues?,
    SerdeJson.unsigned?_value (show 1 < 2 ^ 8 by decide),
    SerdeJson.unsigned?_value (show value.ttl.1 < 2 ^ 64 by omega),
    SerdeJson.unsigned?_value (show value.views.1 < 2 ^ 32 by omega),
    SerdeJson.string?_value (isWord_base64 value.id.1).isAscii,
    SerdeJson.string?_value (isWord_base64 value.nonce.1).isAscii,
    SerdeJson.string?_value (isWord_hex value.peek).isAscii,
    SerdeJson.string?_value (isWord_hex value.read).isAscii,
    SerdeJson.string?_value (isWord_hex value.revoke).isAscii,
    SerdeJson.string?_value value.isWord_kdfCodes.isAscii,
    SerdeJson.string?_value value.isWord_saltCodes.isAscii, Option.bind_eq_bind, Option.bind_some]
  rfl

theorem invalidSalt_eq_false_iff {header : Server.Header}
    : header.invalidSalt = false
        ↔ (header.kdf = "none" ∧ header.salt = "")
          ∨ (header.kdf = "argon2id"
            ∧ ∃ salt : ByteString 16, header.salt = Ascii.string (base64 salt)) := by
  unfold Header.invalidSalt
  split
  . next hkdf => simp [hkdf]
  . next hkdf =>
    rw [Bool.not_eq_false', isOk_base64Bytes_iff]
    simp [hkdf]
  . next hnone hargon =>
    simp only [Bool.true_eq_false, false_iff, not_or, not_and]
    exact ⟨fun h => absurd h hnone, fun h => absurd h hargon⟩

theorem isInvalid_eq_false_iff {header : Server.Header}
    : header.isInvalid = false ↔ ∃ value : HeaderValue, header = value.toServer := by
  simp only [Header.isInvalid, validId, Bool.or_eq_false_iff, Bool.not_eq_false', Bool.and_eq_true,
    decide_eq_true_eq, decide_eq_false_iff_not, not_not, isOk_base64Bytes_iff, isHash_iff,
    invalidSalt_eq_false_iff]
  constructor
  . rintro ⟨⟨⟨⟨⟨⟨⟨⟨hversion, id, hid⟩, httl⟩, hviews⟩, peek, hpeek⟩, read, hread⟩, revoke, hrevoke⟩,
      nonce, hnonce⟩, ⟨hkdf, hsalt⟩ | ⟨hkdf, salt, hsalt⟩⟩
    . refine ⟨⟨id, ⟨_, httl⟩, ⟨_, hviews⟩, peek, read, revoke, none, nonce⟩, ?_⟩
      cases header
      dsimp only at *
      subst_vars
      rfl
    . refine ⟨⟨id, ⟨_, httl⟩, ⟨_, hviews⟩, peek, read, revoke, some salt, nonce⟩, ?_⟩
      cases header
      dsimp only at *
      subst_vars
      rfl
  . rintro ⟨value, rfl⟩
    refine ⟨⟨⟨⟨⟨⟨⟨⟨rfl, _, rfl⟩, value.ttl.2⟩, value.views.2⟩, _, rfl⟩, _, rfl⟩, _, rfl⟩, _, rfl⟩, ?_⟩
    unfold toServer kdfCodes saltCodes
    cases value.salt with
    | none => exact Or.inl ⟨string_codes _, rfl⟩
    | some salt => exact Or.inr ⟨string_codes _, salt, rfl⟩

theorem header_iff {bytes : Bytes} {header : Server.Header}
    : Header.fromSlice? bytes = some header ∧ header.toVec = bytes ∧ header.isInvalid = false
        ↔ ∃ value : HeaderValue, bytes = value.bytes ∧ header = value.toServer := by
  rw [isInvalid_eq_false_iff]
  constructor
  . rintro ⟨-, rfl, value, rfl⟩
    exact ⟨value, value.toVec_toServer, rfl⟩
  . rintro ⟨value, rfl, rfl⟩
    exact ⟨value.fromSlice?_bytes, value.toVec_toServer, value, rfl⟩

end HeaderValue

end Protocol
