import Erase.Protocol.Packet

/-!
Bytes have one spelling in base64url, which the clients and the server agree on.
-/

open Shared

namespace Protocol

-- A string that is taken for the bytes it spells: in the alphabet, without padding, and with nothing in the
-- bits that decoding discards.
structure Spells (value : JsString) (bytes : Bytes) : Prop where
  canonical : value = toBase64Url bytes
  alphabet : value.all isBase64Url = true
  unpadded : (61 : UInt16) ∉ value
  residue : value.length % 4 ≠ 1
  discarded : ∀ digits, Base64.digits? Base64.urlSafe (value.map UInt16.toNat) = some digits
    → Base64.trailingZero digits = true

theorem spells_toBase64Url (bytes : Bytes) : Spells (toBase64Url bytes) bytes where
  canonical := rfl
  alphabet := all_isBase64Url bytes
  unpadded hmem := by
    have hdigit := List.all_eq_true.mp (all_isBase64Url bytes) 61 hmem
    revert hdigit
    decide
  residue := by
    rw [length_toBase64Url]
    omega
  discarded digits hdigits := by
    have hascii := (HeaderValue.isWord_base64 bytes).isAscii
    rw [toBase64Url_eq_units] at hdigits
    have hcodes : (Ascii.units (Base64.encode Base64.urlSafe bytes)).map UInt16.toNat
        = (Base64.toDigits bytes).map Base64.urlSafe.code := Ascii.map_toNat_units hascii
    rw [hcodes, Base64.digits?_map_code] at hdigits
    cases hdigits
    exact Base64.trailingZero_toDigits bytes

theorem ofString_eq_toBase64Url {text : String} {bytes : Bytes}
    : JsString.ofString text = toBase64Url bytes ↔ text = Server.encodeUrlSafe bytes := by
  have hspelled := HeaderValue.ofString_encodeUrlSafe bytes
  constructor
  . intro h
    rw [← hspelled] at h
    exact String.toList_injective (JsString.ofChars_injective h)
  . rintro rfl
    exact hspelled

theorem base64Url_canonical
    : (∀ count bytes, 1 ≤ count → 1 ≤ bytes.length → bytes.length ≤ count
        → fromBase64Url (toBase64Url bytes) none count = .ok bytes)
      ∧ (∀ count expected value bytes, fromBase64Url value expected count = .ok bytes
        → Spells value bytes ∧ bytes.length ≤ count ∧ ∀ length ∈ expected, bytes.length = length)
      ∧ (∀ count expected value count' expected' value' bytes,
        fromBase64Url value expected count = .ok bytes → fromBase64Url value' expected' count' = .ok bytes
          → value = value')
      ∧ (∀ count, 1 ≤ count → ∀ text bytes, Server.base64Bytes text count = .ok bytes
        ↔ fromBase64Url (JsString.ofString text) (some count) count = .ok bytes)
      ∧ ∀ count value bytes, fromBase64Url value (some count) count = .ok bytes
        → ∃ text, value = JsString.ofString text := by
  have hspells : ∀ {count expected value bytes}, fromBase64Url value expected count = .ok bytes
      → value = toBase64Url bytes := fun h => (fromBase64Url_eq_ok_iff.mp h).1
  refine ⟨?_, ?_, ?_, ?_, ?_⟩
  . intro count bytes _ hpositive hle
    apply fromBase64Url_eq_ok_iff.mpr
    refine ⟨rfl, ?_, hle, nofun⟩
    rintro rfl
    simp at hpositive
  . intro count expected value bytes h
    rcases fromBase64Url_eq_ok_iff.mp h with ⟨rfl, -, hle, hexpected⟩
    exact ⟨spells_toBase64Url bytes, hle, hexpected⟩
  . intro count expected value count' expected' value' bytes h h'
    rw [hspells h, hspells h']
  . intro count hcount text bytes
    rw [HeaderValue.base64Bytes_eq_ok_iff, fromBase64Url_exact hcount, ofString_eq_toBase64Url]
    exact and_comm
  . intro count value bytes h
    exact ⟨Server.encodeUrlSafe bytes, (hspells h).trans (ofString_eq_toBase64Url.mpr rfl).symm⟩

-- Two bytes are the most that fit, and the last digit discards two bits.
theorem base64Url_canonical_ones
    : fromBase64Url (toBase64Url [255, 255]) none 2 = .ok [255, 255]
      ∧ Spells (JsString.ofString "__8") [255, 255]
      ∧ Server.base64Bytes "__8" 2 = .ok [255, 255] := by
  rcases base64Url_canonical with ⟨hround, hspells, -, hserver, -⟩
  have hones : fromBase64Url (JsString.ofString "__8") (some 2) 2 = .ok [255, 255] :=
    (fromBase64Url_exact (by decide)).mpr ⟨by decide, rfl⟩
  refine ⟨?_, ?_, ?_⟩
  . apply hround
    . decide
    . decide
    . decide
  . exact (hspells _ _ _ _ hones).1
  . exact (hserver 2 (by decide) _ _).mpr hones

example : fromBase64Url (JsString.ofString "__9") (some 2) 2 = invalid := by decide

end Protocol
