import Erase.Library.FlatObject
import Erase.Protocol.HeaderValue
import Erase.Shared.Base64Url

open Shared

namespace Protocol

namespace HeaderValue

def toShared (value : HeaderValue) : Shared.Header where
  id := Ascii.units (base64 value.id)
  ttl := value.ttl
  views := value.views
  peek := Ascii.units value.peek.1
  read := Ascii.units value.read.1
  revoke := Ascii.units value.revoke.1
  kdf := if value.salt.isSome then .argon2id else .none
  salt := Ascii.units value.saltCodes
  nonce := Ascii.units (base64 value.nonce)

theorem ofString_eq_units {text : String} (h : Ascii.IsAscii (codes text))
    : JsString.ofString text = Ascii.units (codes text) := by
  have hascii : ∀ c ∈ text.toList, c.toNat < 128 := by
    intro c hc
    exact h _ (List.mem_map_of_mem hc)
  rw [JsString.ofString, JsString.ofChars_of_ascii hascii, Ascii.units, codes, List.map_map]
  rfl

theorem kdf_toShared (value : HeaderValue)
    : value.toShared.kdf.toJs = Ascii.units value.kdfCodes := by
  unfold toShared kdfCodes Kdf.toJs
  cases value.salt with
  | none => exact ofString_eq_units (by decide)
  | some _ => exact ofString_eq_units (by decide)

theorem headerFields_eq
    : headerFields = names.map fun name => Ascii.units (codes name) := by
  unfold headerFields names
  apply List.map_congr_left
  intro name hname
  apply ofString_eq_units
  revert name
  decide

theorem serializeHeader_toShared (value : HeaderValue)
    : serializeHeader value.toShared = value.bytes := by
  have hmembers : headerFields.zip [
      JsValue.Scalar.number 1,
      .string value.toShared.id,
      .number value.toShared.ttl,
      .number value.toShared.views,
      .string value.toShared.peek,
      .string value.toShared.read,
      .string value.toShared.revoke,
      .string value.toShared.kdf.toJs,
      .string value.toShared.salt,
      .string value.toShared.nonce] = value.members.map JsValue.memberOfCodes := by
    rw [headerFields_eq, kdf_toShared]
    rfl
  rw [serializeHeader, hmembers, JsValue.stringify_memberOfCodes value.isCompact_members,
    encoderEncode, ← json, Ascii.scalars_units value.isAscii_json,
    Ascii.encode_chars value.isAscii_json]
  rfl

theorem utf8_bytes (value : HeaderValue)
    : utf8 value.bytes = .ok (Ascii.units value.json) := by
  rw [utf8, bytes, Ascii.decode?_bytes value.isAscii_json]
  dsimp only
  rw [Ascii.ofChars_chars value.isAscii_json]

def object (value : HeaderValue) : List (JsString × JsValue) :=
  value.members.map fun member => (Ascii.units member.1, JsValue.ofScalar member.2)

theorem lt_of_mem_members (value : HeaderValue)
    : ∀ member ∈ value.members, ∀ n, member.2 = .number n → n < 2 ^ 53 := by
  have httl := value.ttl.2
  have hviews := value.views.2
  intro member hmember n hn
  simp only [members, List.mem_cons, List.not_mem_nil, or_false] at hmember
  rcases hmember with rfl | rfl | rfl | rfl | rfl | rfl | rfl | rfl | rfl | rfl
  all_goals
    simp only [Json.Scalar.number.injEq, reduceCtorEq] at hn
    try omega

theorem isFlat_members (value : HeaderValue) : Json.IsFlat value.members where
  plain member hmember := ⟨value.isCompact_members member hmember, value.lt_of_mem_members member hmember⟩
  nodup := value.nodup_members

theorem parse?_json (value : HeaderValue)
    : JsValue.parse? (Ascii.units value.json) = some (.object value.object) :=
  JsValue.parse?_flat value.isFlat_members

theorem member?_object (value : HeaderValue) {name : String} {scalar : Json.Scalar}
    (hmember : (codes name, scalar) ∈ value.members)
    : JsValue.member? value.object (JsString.ofString name) = some (JsValue.ofScalar scalar) := by
  rw [ofString_eq_units (value.isCompact_members _ hmember).key_isAscii]
  exact JsValue.member?_ofFlat value.isFlat_members hmember

theorem number?_object (value : HeaderValue) {name : String} {n : Nat}
    (hmember : (codes name, .number n) ∈ value.members)
    : JsValue.number? value.object (JsString.ofString name) = some (JsNumber.ofNat n) := by
  rw [JsValue.number?, value.member?_object hmember]
  rfl

theorem string?_object (value : HeaderValue) {name : String} {text : List Nat}
    (hmember : (codes name, .text text) ∈ value.members)
    : JsValue.string? value.object (JsString.ofString name) = some (Ascii.units text) := by
  rw [JsValue.string?, value.member?_object hmember]
  rfl

theorem isHexHash_iff {text : JsString}
    : isHexHash text = true ↔ ∃ digest : HexDigest, text = Ascii.units digest.1 := by
  constructor
  . intro h
    simp only [isHexHash, Bool.and_eq_true, decide_eq_true_eq] at h
    have hall : (text.map UInt16.toNat).all Hex.isDigit = true := by
      rw [List.all_map]
      exact h.2
    refine ⟨⟨text.map UInt16.toNat, ?_, hall⟩, ?_⟩
    . rw [List.length_map]
      exact h.1
    . simp [Ascii.units, Function.comp_def]
  . rintro ⟨digest, rfl⟩
    have hall := digest.2.2
    rw [← Ascii.map_toNat_units (isWord_hex digest).isAscii, List.all_map] at hall
    simp only [isHexHash, Bool.and_eq_true, decide_eq_true_eq, Ascii.length_units]
    exact ⟨digest.2.1, hall⟩

theorem kdf?_kdfCodes (value : HeaderValue)
    : kdf? (Ascii.units value.kdfCodes) = some value.toShared.kdf := by
  rw [← kdf_toShared]
  cases value.toShared.kdf <;> decide

theorem checkedMembers?_object (value : HeaderValue)
    : checkedMembers? value.object = some ({ value.toShared with ttl := 0, views := 0 },
        JsNumber.ofNat value.ttl, JsNumber.ofNat value.views) := by
  have hversion : JsValue.number? value.object (JsString.ofString "version")
      = some (JsNumber.ofNat 1) := value.number?_object (by simp [members])
  have hid : JsValue.string? value.object (JsString.ofString "id")
      = some value.toShared.id := value.string?_object (by simp [members])
  have httl : JsValue.number? value.object (JsString.ofString "ttl")
      = some (JsNumber.ofNat value.ttl) := value.number?_object (by simp [members])
  have hviews : JsValue.number? value.object (JsString.ofString "views")
      = some (JsNumber.ofNat value.views) := value.number?_object (by simp [members])
  have hpeek : JsValue.string? value.object (JsString.ofString "peek")
      = some value.toShared.peek := value.string?_object (by simp [members])
  have hread : JsValue.string? value.object (JsString.ofString "read")
      = some value.toShared.read := value.string?_object (by simp [members])
  have hrevoke : JsValue.string? value.object (JsString.ofString "revoke")
      = some value.toShared.revoke := value.string?_object (by simp [members])
  have hkdf : (JsValue.string? value.object (JsString.ofString "kdf")).bind kdf?
      = some value.toShared.kdf := by
    have htext : JsValue.string? value.object (JsString.ofString "kdf")
        = some (Ascii.units value.kdfCodes) := value.string?_object (by simp [members])
    rw [htext, Option.bind_some, kdf?_kdfCodes]
  have hsalt : JsValue.string? value.object (JsString.ofString "salt")
      = some value.toShared.salt := value.string?_object (by simp [members])
  have hnonce : JsValue.string? value.object (JsString.ofString "nonce")
      = some value.toShared.nonce := value.string?_object (by simp [members])
  have hhashes : isHexHash value.toShared.peek ∧ isHexHash value.toShared.read
      ∧ isHexHash value.toShared.revoke :=
    ⟨isHexHash_iff.mpr ⟨_, rfl⟩, isHexHash_iff.mpr ⟨_, rfl⟩, isHexHash_iff.mpr ⟨_, rfl⟩⟩
  unfold checkedMembers?
  simp only [hversion, hid, httl, hviews, hpeek, hread, hrevoke, hkdf, hsalt, hnonce,
    Option.bind_eq_bind, Option.bind_some]
  rw [if_pos (by simpa using hhashes)]

theorem any_isNone_member? (value : HeaderValue)
    : headerFields.any (fun key => (JsValue.member? value.object key).isNone) = false := by
  rw [headerFields, List.any_map, List.any_eq_false]
  intro name hname
  have hkey : codes name ∈ value.members.map Prod.fst := by
    rw [map_fst_members]
    exact List.mem_map_of_mem hname
  rw [List.mem_map] at hkey
  rcases hkey with ⟨⟨key, scalar⟩, hmember, hkey⟩
  subst hkey
  simp [value.member?_object hmember]

theorem fromBase64Url_units (length : Nat) (hlength : 0 < length) (bytes : ByteString length)
    : fromBase64Url (Ascii.units (base64 bytes)) (some length) length = .ok bytes.1 := by
  rw [fromBase64Url_exact hlength]
  exact ⟨(toBase64Url_eq_units _).symm, bytes.2⟩

theorem validatePolicy_ofNat (value : HeaderValue)
    : validatePolicy (JsNumber.ofNat value.ttl) (JsNumber.ofNat value.views)
        = .ok (value.ttl.1, value.views.1) := by
  have httl := value.ttl.2
  have hviews := value.views.2
  unfold validatePolicy
  rw [JsNumber.safeInteger?_ofNat (by omega), JsNumber.safeInteger?_ofNat (by omega)]
  dsimp only
  rw [if_neg (by omega)]
  rfl

theorem validateSalt_eq_ok_iff {header : Shared.Header}
    : validateSalt header = .ok ()
        ↔ (header.kdf = .none ∧ header.salt = [])
          ∨ (header.kdf = .argon2id
            ∧ ∃ salt : ByteString 16, header.salt = Ascii.units (base64 salt)) := by
  unfold validateSalt
  cases hkdf : header.kdf with
  | none =>
    simp only [invalid, reduceCtorEq, if_true, if_false, Except.guard_eq_ok, false_and, or_false,
      true_and, not_not, pure, Except.pure, and_true]
  | argon2id =>
    simp only [invalid, reduceCtorEq, if_false, if_true, Except.guard_eq_ok, Except.bind_eq_ok,
      false_and, true_and, false_or, fromBase64Url_exact (show 0 < 16 by decide), pure,
      Except.pure, and_true]
    constructor
    . rintro ⟨-, salt, hsalt, hlength⟩
      exact ⟨⟨salt, hlength⟩, hsalt.trans (toBase64Url_eq_units salt)⟩
    . rintro ⟨salt, hsalt⟩
      have hvalue : header.salt = toBase64Url salt.1 := hsalt.trans (toBase64Url_eq_units _).symm
      refine ⟨?_, salt.1, hvalue, salt.2⟩
      rw [hvalue, toBase64Url_eq_nil]
      intro hnil
      have hlength := salt.2
      rw [hnil] at hlength
      contradiction

theorem validateHeader_toShared (value : HeaderValue)
    : validateHeader { value.toShared with ttl := 0, views := 0 } (JsNumber.ofNat value.ttl)
        (JsNumber.ofNat value.views) (Ascii.units value.json) = .ok value.toShared := by
  have hsalt : validateSalt value.toShared = .ok () := by
    rw [validateSalt_eq_ok_iff]
    unfold toShared saltCodes
    cases value.salt with
    | none => exact Or.inl ⟨rfl, rfl⟩
    | some salt => exact Or.inr ⟨rfl, salt, rfl⟩
  have hid : validateId value.toShared.id = .ok () := by
    unfold validateId
    rw [toShared, fromBase64Url_units 32 (by decide) value.id]
    rfl
  have hnonce := fromBase64Url_units 24 (by decide) value.nonce
  unfold validateHeader
  rw [hid, validatePolicy_ofNat]
  dsimp only [Except.ok_bind]
  change (fromBase64Url value.toShared.nonce (some 24) 24 >>= fun _ =>
    validateSalt value.toShared >>= fun _ =>
      utf8 (serializeHeader value.toShared) >>= fun text =>
        if text ≠ Ascii.units value.json then
          invalid "Noncanonical package header." >>= fun _ => .ok value.toShared
        else
          .ok value.toShared) = .ok value.toShared
  rw [toShared, hnonce, ← toShared, hsalt, serializeHeader_toShared, utf8_bytes]
  dsimp only [Except.ok_bind]
  rw [if_neg (not_not.mpr rfl)]

theorem parseHeader_bytes (value : HeaderValue)
    : parseHeader value.bytes = .ok value.toShared := by
  have hlength := value.length_bytes_bounds
  have hobject : ¬(value.object.length ≠ headerFields.length
      ∨ headerFields.any (fun key => (JsValue.member? value.object key).isNone) = true) := by
    rw [any_isNone_member?]
    simp [object, headerFields, members]
  unfold parseHeader
  rw [if_neg (by unfold maxHeaderBytes; omega), value.utf8_bytes]
  simp only [Except.ok_bind, value.parse?_json]
  rw [if_neg hobject, value.checkedMembers?_object]
  exact value.validateHeader_toShared

theorem isHexHash_of_checkedMembers? {obj : List (JsString × JsValue)} {members : Shared.Header}
    {ttl views : JsNumber} (h : checkedMembers? obj = some (members, ttl, views))
    : isHexHash members.peek = true ∧ isHexHash members.read = true
      ∧ isHexHash members.revoke = true := by
  simp only [checkedMembers?, Option.bind_eq_bind, Option.bind_eq_some_iff] at h
  rcases h with ⟨_, -, _, -, _, -, _, -, _, -, _, -, _, -, _, -, _, -, _, -, h⟩
  split at h
  . next hchecks =>
    simp only [Option.some.injEq, Prod.mk.injEq] at h
    rcases h with ⟨rfl, -, -⟩
    exact hchecks.2
  . contradiction

theorem validatePolicy_eq_ok {ttl views : JsNumber} {policy : Nat × Nat}
    (h : validatePolicy ttl views = .ok policy)
    : (60 ≤ policy.1 ∧ policy.1 ≤ 604800) ∧ (1 ≤ policy.2 ∧ policy.2 ≤ 100) := by
  unfold validatePolicy invalidPolicy at h
  split at h
  . rw [Except.ite_error_eq_ok] at h
    rcases h with ⟨hrange, h⟩
    simp only [Except.ok.injEq] at h
    subst h
    dsimp only
    omega
  . contradiction

theorem exists_of_validateHeader {members header : Shared.Header} {ttl views : JsNumber}
    {text : JsString} (hpeek : isHexHash members.peek = true)
    (hread : isHexHash members.read = true) (hrevoke : isHexHash members.revoke = true)
    (h : validateHeader members ttl views text = .ok header)
    : ∃ value : HeaderValue, header = value.toShared ∧ text = Ascii.units value.json := by
  rcases isHexHash_iff.mp hpeek with ⟨peek, hpeek⟩
  rcases isHexHash_iff.mp hread with ⟨read, hread⟩
  rcases isHexHash_iff.mp hrevoke with ⟨revoke, hrevoke⟩
  simp only [validateHeader, validateId, Except.bind_eq_ok, invalid, Except.guard_eq_ok,
    fromBase64Url_exact (show 0 < 32 by decide), fromBase64Url_exact (show 0 < 24 by decide),
    pure, Except.pure, Except.ok.injEq] at h
  rcases h with ⟨_, ⟨id, ⟨hid, hidLength⟩, -⟩, policy, hpolicy, nonce, ⟨hnonce, hnonceLength⟩, _,
    hsalt, reserialized, hutf8, hcanonical, hheader⟩
  have hrange := validatePolicy_eq_ok hpolicy
  rw [toBase64Url_eq_units] at hid hnonce
  have hvalue : ∃ value : HeaderValue, header = value.toShared := by
    rcases validateSalt_eq_ok_iff.mp hsalt with ⟨hkdf, hsalt⟩ | ⟨hkdf, salt, hsalt⟩
    . refine ⟨⟨⟨id, hidLength⟩, ⟨policy.1, hrange.1⟩, ⟨policy.2, hrange.2⟩, peek, read, revoke,
        none, ⟨nonce, hnonceLength⟩⟩, ?_⟩
      rw [← hheader, hid, hpeek, hread, hrevoke, hkdf, hsalt, hnonce]
      rfl
    . refine ⟨⟨⟨id, hidLength⟩, ⟨policy.1, hrange.1⟩, ⟨policy.2, hrange.2⟩, peek, read, revoke,
        some salt, ⟨nonce, hnonceLength⟩⟩, ?_⟩
      rw [← hheader, hid, hpeek, hread, hrevoke, hkdf, hsalt, hnonce]
      rfl
  rcases hvalue with ⟨value, hvalue⟩
  refine ⟨value, hvalue, ?_⟩
  rw [hheader, hvalue, serializeHeader_toShared, utf8_bytes, Except.ok.injEq] at hutf8
  rw [hutf8]
  exact (not_not.mp hcanonical).symm

theorem utf8_eq_ok {left : Bytes} {value : HeaderValue}
    (h : utf8 left = .ok (Ascii.units value.json))
    : left = value.bytes := by
  unfold utf8 at h
  split at h
  . next text hdecode =>
    rw [Except.ok.injEq, ← Ascii.ofChars_chars value.isAscii_json] at h
    rw [← Utf8.encode_of_decode?_eq_some hdecode, JsString.ofChars_injective h,
      Ascii.encode_chars value.isAscii_json]
    rfl
  . contradiction

theorem exists_of_parseHeader {bytes : Bytes} {header : Shared.Header}
    (h : parseHeader bytes = .ok header)
    : ∃ value : HeaderValue, bytes = value.bytes ∧ header = value.toShared := by
  simp only [parseHeader, invalid, Except.guard_eq_ok, Except.bind_eq_ok] at h
  rcases h with ⟨-, text, htext, h⟩
  split at h
  . next obj _ =>
    simp only [Except.guard_eq_ok] at h
    replace h := h.2
    split at h
    . contradiction
    . next members ttl views hmembers =>
      rcases isHexHash_of_checkedMembers? hmembers with ⟨hpeek, hread, hrevoke⟩
      rcases exists_of_validateHeader hpeek hread hrevoke h with ⟨value, hvalue, hjson⟩
      exact ⟨value, utf8_eq_ok (hjson ▸ htext), hvalue⟩
  . contradiction

theorem parseHeader_eq_ok_iff {bytes : Bytes} {header : Shared.Header}
    : parseHeader bytes = .ok header
        ↔ ∃ value : HeaderValue, bytes = value.bytes ∧ header = value.toShared := by
  constructor
  . exact exists_of_parseHeader
  . rintro ⟨value, rfl, rfl⟩
    exact value.parseHeader_bytes

end HeaderValue

end Protocol
