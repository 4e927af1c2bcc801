import Erase.Library.Except
import Erase.Shared.Content

namespace Shared

structure Unicode.Lawful (unicode : Unicode) : Prop where
  normalize_normalize : ∀ text, unicode.normalize (unicode.normalize text) = unicode.normalize text
  toLowerCase_ascii : ∀ text : JsString, (∀ unit ∈ text, unit.toNat < 128)
    → unicode.toLowerCase text = text.map foldUnit
  -- No character whose lower case is ASCII has more than one of it.
  length_toLowerCase_ascii : ∀ text : JsString, (∀ unit ∈ unicode.toLowerCase text, unit.toNat < 128)
    → (unicode.toLowerCase text).length ≤ text.length

theorem utf8_eq_ok_iff {bytes : Bytes} {text : JsString}
    : utf8 bytes = .ok text ↔ JsString.WellFormed text ∧ bytes = encoderEncode text := by
  unfold utf8 encoderEncode
  constructor
  . intro h
    split at h
    . next chars hdecode =>
      simp only [Except.ok.injEq] at h
      subst h
      rw [JsString.scalars_ofChars]
      exact ⟨JsString.wellFormed_ofChars chars, (Utf8.encode_of_decode?_eq_some hdecode).symm⟩
    . contradiction
  . intro h
    rcases h with ⟨hwellFormed, rfl⟩
    rw [Utf8.decode?_encode]
    dsimp only
    rw [hwellFormed]

theorem encodeText_eq_ok_iff {text : JsString} {bytes : Bytes}
    : encodeText text = .ok bytes ↔ JsString.WellFormed text ∧ bytes = encoderEncode text := by
  simp only [encodeText, invalid, Except.guard_eq_ok, Except.bind_eq_ok, utf8_eq_ok_iff, not_not,
    pure, Except.pure, Except.ok.injEq]
  constructor
  . intro h
    rcases h with ⟨_, ⟨hwellFormed, -⟩, rfl, hbytes⟩
    exact ⟨hwellFormed, hbytes.symm⟩
  . intro h
    exact ⟨text, ⟨h.1, rfl⟩, rfl, h.2.symm⟩

theorem length_le_length_encoderEncode {text : JsString} (h : JsString.WellFormed text)
    : text.length ≤ (encoderEncode text).length := by
  have hle := JsString.length_ofChars_le (JsString.scalars text)
  rw [h] at hle
  exact hle

theorem length_encoderEncode_le {text : JsString} (h : JsString.WellFormed text)
    : (encoderEncode text).length ≤ 3 * text.length := by
  have hle := JsString.length_encode_le (JsString.scalars text)
  rw [h] at hle
  exact hle

theorem encoderEncode_eq_nil {text : JsString} (h : JsString.WellFormed text)
    : (encoderEncode text).length = 0 ↔ text = [] := by
  constructor
  . intro hnil
    have hle := length_le_length_encoderEncode h
    exact List.eq_nil_of_length_eq_zero (by omega)
  . intro hnil
    subst hnil
    rfl

theorem wellFormed_of_ascii {text : JsString} (h : ∀ unit ∈ text, unit.toNat < 128)
    : JsString.WellFormed text ∧ (encoderEncode text).length = text.length := by
  have hascii : Ascii.IsAscii (text.map UInt16.toNat) := by
    intro code hcode
    rw [List.mem_map] at hcode
    rcases hcode with ⟨unit, hunit, rfl⟩
    exact h unit hunit
  have hunits : Ascii.units (text.map UInt16.toNat) = text := by
    simp [Ascii.units, Function.comp_def]
  rw [← hunits]
  constructor
  . rw [JsString.WellFormed, Ascii.scalars_units hascii, Ascii.ofChars_chars hascii]
  . rw [encoderEncode, Ascii.scalars_units hascii, Ascii.encode_chars hascii, Ascii.length_bytes,
      Ascii.length_units]

structure IsFilename (name : JsString) : Prop where
  ne_nil : name ≠ []
  ne_dot : name ≠ [46]
  ne_dots : name ≠ [46, 46]
  not_forbidden : name.any isForbidden = false
  not_ends : endsInDotOrSpace name = false
  not_reserved : isReserved name = false
  wellFormed : JsString.WellFormed name
  length_le : (encoderEncode name).length ≤ maxFilenameBytes

theorem normalizeFilename_eq_ok_iff {unicode : Unicode} {value name : JsString}
    : normalizeFilename unicode value = .ok name
        ↔ value.length ≤ 1024 ∧ name = unicode.normalize value ∧ IsFilename name := by
  simp only [normalizeFilename, invalid, invalidFilename, Except.guard_eq_ok, Except.bind_eq_ok,
    encodeText_eq_ok_iff, pure, Except.pure, Except.ok.injEq]
  constructor
  . intro h
    rcases h with ⟨hlength, hchecks, _, ⟨hwellFormed, rfl⟩, hbytes, rfl⟩
    push Not at hchecks hlength hbytes
    simp only [Bool.not_eq_true] at hchecks
    rcases hchecks with ⟨hnil, hdot, hdots, hforbidden, hends, hreserved⟩
    exact ⟨hlength, rfl, hnil, hdot, hdots, hforbidden, hends, hreserved, hwellFormed, hbytes⟩
  . intro h
    rcases h with ⟨hlength, rfl, h⟩
    refine ⟨by omega, ?_, _, ⟨h.wellFormed, rfl⟩, ?_, rfl⟩
    . push Not
      simp only [Bool.not_eq_true]
      exact ⟨h.ne_nil, h.ne_dot, h.ne_dots, h.not_forbidden, h.not_ends, h.not_reserved⟩
    . have := h.length_le
      omega

def normalizedMime (unicode : Unicode) (value : JsString) : JsString :=
  if value = [] then octetStream else unicode.toLowerCase value

theorem normalizeMime_eq_ok_iff {unicode : Unicode} {value mime : JsString}
    : normalizeMime unicode value = .ok mime
        ↔ value.length ≤ maxMimeBytes ∧ mime = normalizedMime unicode value
          ∧ isMime mime = true := by
  simp only [normalizeMime, invalid, Except.guard_eq_ok, pure, Except.pure, Except.ok.injEq, not_not]
  constructor
  . intro h
    rcases h with ⟨hlength, hmime, rfl⟩
    exact ⟨by omega, rfl, hmime⟩
  . intro h
    rcases h with ⟨hlength, rfl, hmime⟩
    exact ⟨by omega, hmime, rfl⟩

theorem isMimeUnit_lt {unit : UInt16} (h : isMimeUnit unit = true)
    : unit.toNat < 128 ∧ foldUnit unit = unit := by
  have hcases : (97 ≤ unit.toNat ∧ unit.toNat ≤ 122) ∨ (48 ≤ unit.toNat ∧ unit.toNat ≤ 57)
      ∨ unit ∈ ([33, 35, 36, 38, 94, 95, 46, 43, 45] : List UInt16) := by
    simp only [isMimeUnit, Bool.or_eq_true, Bool.and_eq_true, decide_eq_true_eq,
      UInt16.le_iff_toNat_le, List.contains_iff_mem] at h
    simpa [or_assoc] using h
  have hfold : ¬(65 ≤ unit.toNat ∧ unit.toNat ≤ 90) → foldUnit unit = unit := by
    intro hrange
    unfold foldUnit
    rw [if_neg]
    simpa [UInt16.le_iff_toNat_le] using hrange
  have hothers : ([33, 35, 36, 38, 94, 95, 46, 43, 45] : List UInt16).all (fun other =>
      other.toNat < 128 ∧ ¬(65 ≤ other.toNat ∧ other.toNat ≤ 90)) = true := by decide
  rw [List.all_eq_true] at hothers
  rcases hcases with hletter | hdigit | hother
  . exact ⟨by omega, hfold (by omega)⟩
  . exact ⟨by omega, hfold (by omega)⟩
  . have hmember := of_decide_eq_true (hothers unit hother)
    exact ⟨hmember.1, hfold hmember.2⟩

theorem mem_of_isMime {mime : JsString} (h : isMime mime = true)
    : mime ≠ [] ∧ ∀ unit ∈ mime, isMimeUnit unit = true ∨ unit = 47 := by
  unfold isMime at h
  rw [Bool.and_eq_true, decide_eq_true_eq] at h
  rcases h with ⟨hkind, hrest⟩
  constructor
  . intro hnil
    subst hnil
    contradiction
  . intro unit hunit
    rw [← List.takeWhile_append_dropWhile (p := isMimeUnit) (l := mime), List.mem_append] at hunit
    rcases hunit with htake | hdrop
    . exact Or.inl (List.all_eq_true.mp List.all_takeWhile unit htake)
    . split at hrest
      . next slash subtype heq =>
        simp only [Bool.and_eq_true, decide_eq_true_eq, List.all_eq_true] at hrest
        rw [heq, List.mem_cons] at hdrop
        rcases hdrop with hslash | hsubtype
        . exact Or.inr (hslash.trans hrest.1.1)
        . exact Or.inl (hrest.2 unit hsubtype)
      . contradiction

theorem isMime_ascii {mime : JsString} (h : isMime mime = true)
    : (∀ unit ∈ mime, unit.toNat < 128) ∧ mime.map foldUnit = mime := by
  have hunit : ∀ unit ∈ mime, unit.toNat < 128 ∧ foldUnit unit = id unit := by
    intro unit hunit
    rcases (mem_of_isMime h).2 unit hunit with hclass | hslash
    . exact isMimeUnit_lt hclass
    . subst hslash
      decide
  constructor
  . intro unit hmem
    exact (hunit unit hmem).1
  . rw [List.map_congr_left fun unit hmem => (hunit unit hmem).2, List.map_id]

end Shared
