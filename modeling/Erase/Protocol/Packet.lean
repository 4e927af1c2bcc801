import Erase.Protocol.ServerHeader
import Erase.Protocol.SharedHeader

/-!
The packet format, and that both packet parsers accept exactly its language.
-/

namespace Protocol

def magic : Bytes := [69, 82, 83, 49]

structure IsFramed (bytes header ciphertext : Bytes) : Prop where
  layout : bytes = magic ++ Bytes.ofNatBE 4 header.length ++ header ++ ciphertext
  header_pos : 1 ≤ header.length
  header_le : header.length ≤ 2048
  length_le : bytes.length ≤ 67141632
  blocks : ∃ k, 1 ≤ k ∧ ciphertext.length = 16 + 4096 * k

namespace IsFramed

variable {bytes header ciphertext : Bytes}

theorem length_eq (h : IsFramed bytes header ciphertext)
    : bytes.length = 8 + header.length + ciphertext.length := by
  rw [h.layout]
  simp only [magic, List.length_append, List.length_cons, List.length_nil, Bytes.length_ofNatBE]

theorem length_ge (h : IsFramed bytes header ciphertext)
    : 8 + header.length + 4112 ≤ bytes.length := by
  rcases h.blocks with ⟨k, hk, hblocks⟩
  rw [h.length_eq]
  omega

theorem take_eq (h : IsFramed bytes header ciphertext) : bytes.take 4 = magic := by
  rw [h.layout]
  rfl

theorem length_field (h : IsFramed bytes header ciphertext)
    : Bytes.toNatBE ((bytes.drop 4).take 4) = header.length := by
  have hfield : (bytes.drop 4).take 4 = Bytes.ofNatBE 4 header.length := by
    rw [h.layout]
    rfl
  have hle := h.header_le
  rw [hfield, Bytes.toNatBE_ofNatBE]
  omega

theorem header_eq (h : IsFramed bytes header ciphertext)
    : (bytes.drop 8).take header.length = header := by
  have hdrop : bytes.drop 8 = header ++ ciphertext := by
    rw [h.layout]
    rfl
  rw [hdrop, List.take_left']
  rfl

theorem ciphertext_eq (h : IsFramed bytes header ciphertext)
    : bytes.drop (8 + header.length) = ciphertext := by
  have hdrop : bytes.drop 8 = header ++ ciphertext := by
    rw [h.layout]
    rfl
  rw [← List.drop_drop, hdrop, List.drop_left']
  rfl

theorem blocks_mod (h : IsFramed bytes header ciphertext)
    : (ciphertext.length - 16) % 4096 = 0 := by
  rcases h.blocks with ⟨k, hk, hblocks⟩
  omega

theorem of_slices {length : Nat} (hmax : bytes.length ≤ 67141632) (hmagic : bytes.take 4 = magic)
    (hlength : Bytes.toNatBE ((bytes.drop 4).take 4) = length) (hpos : 1 ≤ length) (hle : length ≤ 2048)
    (hmin : 8 + length + 4112 ≤ bytes.length) (hmod : (bytes.length - 8 - length - 16) % 4096 = 0)
    : IsFramed bytes ((bytes.drop 8).take length) (bytes.drop (8 + length)) := by
  have hheader : ((bytes.drop 8).take length).length = length := by
    simp only [List.length_take, List.length_drop]
    omega
  have hword : ((bytes.drop 4).take 4).length = 4 := by
    simp only [List.length_take, List.length_drop]
    omega
  constructor
  . have hfield : Bytes.ofNatBE 4 length = (bytes.drop 4).take 4 := by
      have hbytes := Bytes.ofNatBE_toNatBE ((bytes.drop 4).take 4)
      rw [hword, hlength] at hbytes
      exact hbytes
    have hsplit : bytes = bytes.take 4 ++ ((bytes.drop 4).take 4 ++ ((bytes.drop 8).take length
        ++ bytes.drop (8 + length))) := by
      have htail : (bytes.drop 8).take length ++ bytes.drop (8 + length) = bytes.drop 8 := by
        rw [← List.drop_drop, List.take_append_drop]
      have hrest : (bytes.drop 4).take 4 ++ bytes.drop 8 = bytes.drop 4 := by
        have hdrop : bytes.drop 8 = (bytes.drop 4).drop 4 := by rw [List.drop_drop]
        rw [hdrop, List.take_append_drop]
      rw [htail, hrest, List.take_append_drop]
    rw [hheader, hfield, ← hmagic, List.append_assoc, List.append_assoc]
    exact hsplit
  . omega
  . omega
  . exact hmax
  . refine ⟨(bytes.length - 8 - length - 16) / 4096, ?_, ?_⟩
    . omega
    . rw [List.length_drop]
      omega

end IsFramed

theorem sharedParsePacket_eq_ok_iff {bytes : Bytes} {parsed : Shared.ParsedPacket}
    : Shared.parsePacket bytes = .ok parsed
        ↔ ∃ (value : HeaderValue) (ciphertext : Bytes), IsFramed bytes value.bytes ciphertext
          ∧ parsed = ⟨value.toShared, value.bytes, ciphertext⟩ := by
  have hmaxPacket : Shared.maxPacketBytes = 67141632 := rfl
  have hmaxHeader : Shared.maxHeaderBytes = 2048 := rfl
  unfold Shared.parsePacket Shared.getUint32
  simp only [Shared.invalid, Except.guard_eq_ok, Except.bind_eq_ok]
  constructor
  . intro h
    rcases h with ⟨hstart, length, hlength, hbounds, hblocks, header, hheader, hparsed⟩
    push Not at hstart hbounds
    rw [Bytes.read_eq_some (by omega)] at hlength
    simp only [Except.ok.injEq] at hlength
    simp only [not_not, List.length_drop] at hblocks
    rcases HeaderValue.exists_of_parseHeader hheader with ⟨value, hvalue, hshared⟩
    refine ⟨value, bytes.drop (8 + length), ?_, ?_⟩
    . rw [← hvalue]
      apply IsFramed.of_slices (by omega) hstart.2.2 hlength (by omega) (by omega) (by omega)
      rw [Nat.sub_sub bytes.length]
      exact hblocks
    . rw [← hvalue, ← hshared]
      exact (Except.ok.inj hparsed).symm
  . intro h
    rcases h with ⟨value, ciphertext, hframed, rfl⟩
    have hmin := hframed.length_ge
    have hmax := hframed.length_le
    have hbounds := value.length_bytes_bounds
    refine ⟨?_, value.bytes.length, ?_, ?_, ?_, value.toShared, ?_, ?_⟩
    . push Not
      exact ⟨by omega, by omega, hframed.take_eq⟩
    . rw [Bytes.read_eq_some (by omega)]
      dsimp only
      rw [hframed.length_field]
    . push Not
      exact ⟨hbounds.1, hbounds.2, hmin⟩
    . rw [not_not, hframed.ciphertext_eq]
      exact hframed.blocks_mod
    . rw [hframed.header_eq]
      exact value.parseHeader_bytes
    . rw [hframed.header_eq, hframed.ciphertext_eq]
      rfl

theorem serverParsePacket_eq_ok_iff {bytes : Bytes} {packet : Server.Packet}
    : Server.parsePacket bytes = .ok packet
        ↔ ∃ (value : HeaderValue) (ciphertext : Bytes), IsFramed bytes value.bytes ciphertext
          ∧ packet = ⟨bytes, value.bytes, value.toServer⟩ := by
  have hmaxPacket : Server.maxPacketBytes = 67141632 := rfl
  have hmaxHeader : Server.maxHeaderBytes = 2048 := rfl
  unfold Server.parsePacket
  simp only [Server.fail, Except.guard_eq_ok, Except.bind_eq_ok, Server.usizeAdd_eq_ok_iff,
    Server.usizeSub_eq_ok_iff, Server.slice_eq_ok_iff, not_not, List.drop_zero, Nat.sub_zero,
    Nat.reduceSub]
  constructor
  . intro h
    rcases h with ⟨hmax, hmin, start, ⟨-, rfl⟩, hmagic, word, ⟨-, rfl⟩, hlength, _, ⟨-, rfl⟩, _,
      ⟨-, rfl⟩, hbody, _, ⟨-, rfl⟩, _, ⟨-, rfl⟩, _, ⟨-, rfl⟩, hblocks, _, ⟨-, rfl⟩, slice, ⟨-, rfl⟩,
      h⟩
    simp only [Nat.add_sub_cancel_left] at h
    split at h
    . contradiction
    . next header hheader =>
      simp only [Except.guard_eq_ok, not_not, Bool.not_eq_true] at h
      rcases HeaderValue.header_iff.mp ⟨hheader, h.1, h.2.1⟩ with ⟨value, hvalue, hserver⟩
      refine ⟨value, bytes.drop (8 + Bytes.toNatBE ((bytes.drop 4).take 4)), ?_, ?_⟩
      . rw [← hvalue]
        apply IsFramed.of_slices (by omega) hmagic rfl (by omega) (by omega) (by omega)
        exact hblocks
      . rw [← hvalue, ← hserver]
        exact (Except.ok.inj h.2.2).symm
  . intro h
    rcases h with ⟨value, ciphertext, hframed, rfl⟩
    have hmin := hframed.length_ge
    have hmax := hframed.length_le
    have hlength := hframed.length_eq
    have hbounds := value.length_bytes_bounds
    have hmod := hframed.blocks_mod
    have hcheck := HeaderValue.header_iff.mpr ⟨value, rfl, rfl⟩
    refine ⟨by omega, by omega, _, ⟨by omega, rfl⟩, hframed.take_eq, _, ⟨by omega, rfl⟩, ?_⟩
    rw [hframed.length_field]
    refine ⟨by omega, _, ⟨by omega, rfl⟩, _, ⟨by omega, rfl⟩, by omega, _, ⟨by omega, rfl⟩, _,
      ⟨by omega, rfl⟩, _, ⟨by omega, rfl⟩, ?_, _, ⟨by omega, rfl⟩, _, ⟨by omega, rfl⟩, ?_⟩
    . rw [hlength, Nat.add_assoc, Nat.add_sub_cancel_left, Nat.add_sub_cancel_left]
      exact hmod
    . rw [Nat.add_sub_cancel_left, hframed.header_eq, hcheck.1]
      simp only [Except.guard_eq_ok, not_not]
      exact ⟨hcheck.2.1, by simp [hcheck.2.2], rfl⟩

-- The two header types say the same.
structure SameHeader (left : Shared.Header) (right : Server.Header) : Prop where
  version : right.version = 1
  id : left.id = JsString.ofString right.id
  ttl : left.ttl = right.ttl
  views : left.views = right.views
  peek : left.peek = JsString.ofString right.peek
  read : left.read = JsString.ofString right.read
  revoke : left.revoke = JsString.ofString right.revoke
  kdf : left.kdf.toJs = JsString.ofString right.kdf
  salt : left.salt = JsString.ofString right.salt
  nonce : left.nonce = JsString.ofString right.nonce

namespace HeaderValue

theorem ofString_string {codes : List Nat} (h : IsWord codes)
    : Ascii.units codes = JsString.ofString (Ascii.string codes) :=
  (Ascii.ofString_string h.isAscii).symm

theorem ofString_encodeUrlSafe (bytes : Bytes)
    : JsString.ofString (Server.encodeUrlSafe bytes) = Shared.toBase64Url bytes := by
  rw [Shared.toBase64Url_eq_units]
  exact (ofString_string (isWord_base64 bytes)).symm

theorem sameHeader (value : HeaderValue) : SameHeader value.toShared value.toServer where
  version := rfl
  id := ofString_string (isWord_base64 _)
  ttl := rfl
  views := rfl
  peek := ofString_string (isWord_hex _)
  read := ofString_string (isWord_hex _)
  revoke := ofString_string (isWord_hex _)
  kdf := value.kdf_toShared.trans (ofString_string value.isWord_kdfCodes)
  salt := ofString_string value.isWord_saltCodes
  nonce := ofString_string (isWord_base64 _)

theorem base64_units_injective {left right : Bytes}
    (h : Ascii.units (base64 left) = Ascii.units (base64 right))
    : left = right :=
  base64_injective
    (Ascii.units_injOn (isWord_base64 left).isAscii (isWord_base64 right).isAscii h)

theorem hex_units_injective {left right : HexDigest}
    (h : Ascii.units left.1 = Ascii.units right.1)
    : left = right :=
  Subtype.ext (Ascii.units_injOn (isWord_hex left).isAscii (isWord_hex right).isAscii h)

theorem toShared_injective : Function.Injective toShared := by
  intro left right h
  simp only [toShared, Shared.Header.mk.injEq] at h
  rcases h with ⟨hid, httl, hviews, hpeek, hread, hrevoke, hkdf, hsalt, hnonce⟩
  have hsalts : left.salt = right.salt := by
    unfold saltCodes at hsalt
    cases hleft : left.salt with
    | none =>
      cases hright : right.salt with
      | none => rfl
      | some salt => simp [hleft, hright] at hkdf
    | some leftSalt =>
      cases hright : right.salt with
      | none => simp [hleft, hright] at hkdf
      | some rightSalt =>
        rw [hleft, hright] at hsalt
        rw [Subtype.ext (base64_units_injective hsalt)]
  cases left
  cases right
  simp only [mk.injEq]
  exact ⟨Subtype.ext (base64_units_injective hid), Subtype.ext httl, Subtype.ext hviews,
    hex_units_injective hpeek, hex_units_injective hread, hex_units_injective hrevoke, hsalts,
    Subtype.ext (base64_units_injective hnonce)⟩

theorem bytes_injective : Function.Injective bytes := by
  intro left right h
  apply toShared_injective
  have hleft := left.parseHeader_bytes
  rw [h, right.parseHeader_bytes] at hleft
  exact (Except.ok.inj hleft).symm

theorem parseHeader_iff_serializeHeader {bytes : Bytes} {header : Shared.Header}
    : Shared.parseHeader bytes = .ok header
        ↔ header ∈ Set.range toShared ∧ Shared.serializeHeader header = bytes := by
  rw [parseHeader_eq_ok_iff]
  constructor
  . intro h
    rcases h with ⟨value, rfl, rfl⟩
    exact ⟨⟨value, rfl⟩, value.serializeHeader_toShared⟩
  . intro h
    rcases h with ⟨⟨value, rfl⟩, rfl⟩
    exact ⟨value, value.serializeHeader_toShared, rfl⟩

theorem bijOn_serializeHeader
    : Set.BijOn Shared.serializeHeader (Set.range toShared)
        {bytes | ∃ header, Shared.parseHeader bytes = .ok header} := by
  refine ⟨?_, ?_, ?_⟩
  . intro header hheader
    exact ⟨header, parseHeader_iff_serializeHeader.mpr ⟨hheader, rfl⟩⟩
  . intro left hleft right hright heq
    have hparse := parseHeader_iff_serializeHeader.mpr ⟨hleft, heq⟩
    rw [parseHeader_iff_serializeHeader.mpr ⟨hright, rfl⟩] at hparse
    exact (Except.ok.inj hparse).symm
  . intro bytes hbytes
    rcases hbytes with ⟨header, hheader⟩
    exact ⟨header, parseHeader_iff_serializeHeader.mp hheader⟩

end HeaderValue

theorem isFramed_unique {bytes leftHeader leftCiphertext rightHeader rightCiphertext : Bytes}
    (hleft : IsFramed bytes leftHeader leftCiphertext)
    (hright : IsFramed bytes rightHeader rightCiphertext)
    : leftHeader = rightHeader ∧ leftCiphertext = rightCiphertext := by
  have hlength : leftHeader.length = rightHeader.length := by
    rw [← hleft.length_field, hright.length_field]
  constructor
  . rw [← hleft.header_eq, ← hright.header_eq, hlength]
  . rw [← hleft.ciphertext_eq, ← hright.ciphertext_eq, hlength]

theorem exists_sharedParsePacket_iff (bytes : Bytes)
    : (∃ parsed, Shared.parsePacket bytes = .ok parsed)
        ↔ ∃ (value : HeaderValue) (ciphertext : Bytes), IsFramed bytes value.bytes ciphertext := by
  simp only [sharedParsePacket_eq_ok_iff]
  constructor
  . intro h
    rcases h with ⟨_, value, ciphertext, hframed, -⟩
    exact ⟨value, ciphertext, hframed⟩
  . intro h
    rcases h with ⟨value, ciphertext, hframed⟩
    exact ⟨_, value, ciphertext, hframed, rfl⟩

theorem exists_serverParsePacket_iff (bytes : Bytes)
    : (∃ packet, Server.parsePacket bytes = .ok packet)
        ↔ ∃ (value : HeaderValue) (ciphertext : Bytes), IsFramed bytes value.bytes ciphertext := by
  simp only [serverParsePacket_eq_ok_iff]
  constructor
  . intro h
    rcases h with ⟨_, value, ciphertext, hframed, -⟩
    exact ⟨value, ciphertext, hframed⟩
  . intro h
    rcases h with ⟨value, ciphertext, hframed⟩
    exact ⟨_, value, ciphertext, hframed, rfl⟩

theorem parsers_accept_same_language
    : (∀ bytes, (∃ parsed, Shared.parsePacket bytes = .ok parsed)
        ↔ ∃ packet, Server.parsePacket bytes = .ok packet)
      ∧ (∀ bytes, (∃ packet, Server.parsePacket bytes = .ok packet)
        ↔ ∃ (value : HeaderValue) (ciphertext : Bytes), IsFramed bytes value.bytes ciphertext)
      ∧ (∀ bytes parsed packet,
        (Shared.parsePacket bytes = .ok parsed ∧ Server.parsePacket bytes = .ok packet)
        ↔ ∃ (value : HeaderValue) (ciphertext : Bytes), IsFramed bytes value.bytes ciphertext
          ∧ SameHeader value.toShared value.toServer
          ∧ parsed = ⟨value.toShared, value.bytes, ciphertext⟩
          ∧ packet = ⟨bytes, value.bytes, value.toServer⟩)
      ∧ (∀ bytes header, Shared.parseHeader bytes = .ok header
        ↔ header ∈ Set.range HeaderValue.toShared ∧ Shared.serializeHeader header = bytes)
      ∧ Set.BijOn Shared.serializeHeader (Set.range HeaderValue.toShared)
        {bytes | ∃ header, Shared.parseHeader bytes = .ok header}
      ∧ Function.Injective HeaderValue.toShared := by
  refine ⟨?_, exists_serverParsePacket_iff, ?_,
    fun _ _ => HeaderValue.parseHeader_iff_serializeHeader, HeaderValue.bijOn_serializeHeader,
    HeaderValue.toShared_injective⟩
  . intro bytes
    rw [exists_sharedParsePacket_iff, exists_serverParsePacket_iff]
  . intro bytes parsed packet
    rw [sharedParsePacket_eq_ok_iff, serverParsePacket_eq_ok_iff]
    constructor
    . intro h
      rcases h with ⟨⟨value, ciphertext, hframed, hparsed⟩, other, otherCiphertext, hother, hpacket⟩
      have hvalue := HeaderValue.bytes_injective (isFramed_unique hframed hother).1
      subst hvalue
      exact ⟨value, ciphertext, hframed, value.sameHeader, hparsed, hpacket⟩
    . intro h
      rcases h with ⟨value, ciphertext, hframed, -, hparsed, hpacket⟩
      exact ⟨⟨value, ciphertext, hframed, hparsed⟩, value, ciphertext, hframed, hpacket⟩

end Protocol
