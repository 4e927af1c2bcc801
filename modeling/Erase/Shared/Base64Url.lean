import Erase.Library.Except
import Erase.Shared.Encoding

namespace Shared

theorem replace_standard (digit : Fin 64) :
    (fun unit : UInt16 => if unit = 47 then 95 else unit)
        ((fun unit : UInt16 => if unit = 43 then 45 else unit)
          (UInt16.ofNat (Base64.standard.code digit)))
      = UInt16.ofNat (Base64.urlSafe.code digit)
      ∧ UInt16.ofNat (Base64.urlSafe.code digit) ≠ 61 := by
  revert digit
  decide

theorem replace_urlSafe (digit : Fin 64) :
    (fun unit : UInt16 => if unit = 95 then 47 else unit)
        ((fun unit : UInt16 => if unit = 45 then 43 else unit)
          (UInt16.ofNat (Base64.urlSafe.code digit)))
      = UInt16.ofNat (Base64.standard.code digit)
      ∧ (UInt16.ofNat (Base64.standard.code digit)).toNat = Base64.standard.code digit
      ∧ isBase64Url (UInt16.ofNat (Base64.urlSafe.code digit)) = true := by
  revert digit
  decide

theorem replaceAll_standard (digits : List (Fin 64)) :
    replaceAll (replaceAll (Ascii.units (digits.map Base64.standard.code)) 43 45) 47 95
      = Ascii.units (digits.map Base64.urlSafe.code) := by
  simp only [replaceAll, Ascii.units, List.map_map]
  apply List.map_congr_left
  intro digit _
  exact (replace_standard digit).1

theorem replaceAll_urlSafe (digits : List (Fin 64)) :
    replaceAll (replaceAll (Ascii.units (digits.map Base64.urlSafe.code)) 45 43) 95 47
      = Ascii.units (digits.map Base64.standard.code) := by
  simp only [replaceAll, Ascii.units, List.map_map]
  apply List.map_congr_left
  intro digit _
  exact (replace_urlSafe digit).1

theorem toBase64Url_eq_units (bytes : Bytes)
    : toBase64Url bytes = Ascii.units (Base64.encode Base64.urlSafe bytes) := by
  have hpad (count : Nat) : (replaceAll (replaceAll (Ascii.units (List.replicate count 61)) 43 45)
      47 95).filter (fun unit => unit ≠ 61) = [] := by
    simp [replaceAll, Ascii.units]
  have hsplit (left right : List Nat) :
      replaceAll (replaceAll (Ascii.units (left ++ right)) 43 45) 47 95
        = replaceAll (replaceAll (Ascii.units left) 43 45) 47 95
          ++ replaceAll (replaceAll (Ascii.units right) 43 45) 47 95 := by
    simp [replaceAll, Ascii.units]
  rw [toBase64Url, btoa, Base64.encodePadded, hsplit, List.filter_append, hpad, List.append_nil,
    Base64.encode, replaceAll_standard, Base64.encode]
  apply List.filter_eq_self.mpr
  intro unit hunit
  simp only [Ascii.units, List.map_map, List.mem_map, Function.comp_apply] at hunit
  rcases hunit with ⟨digit, -, rfl⟩
  simpa using (replace_standard digit).2

theorem length_toBase64Url (bytes : Bytes)
    : (toBase64Url bytes).length = (bytes.length * 4 + 2) / 3 := by
  rw [toBase64Url_eq_units, Ascii.length_units, Base64.length_encode]

theorem all_isBase64Url (bytes : Bytes) : (toBase64Url bytes).all isBase64Url = true := by
  rw [toBase64Url_eq_units, List.all_eq_true]
  intro unit hunit
  simp only [Ascii.units, Base64.encode, List.map_map, List.mem_map, Function.comp_apply] at hunit
  rcases hunit with ⟨digit, -, rfl⟩
  exact (replace_urlSafe digit).2.2

theorem toBase64Url_eq_nil {bytes : Bytes} : toBase64Url bytes = [] ↔ bytes = [] := by
  rw [← List.length_eq_zero_iff, length_toBase64Url, ← List.length_eq_zero_iff]
  omega

theorem map_toNat_standard (digits : List (Fin 64))
    : (Ascii.units (digits.map Base64.standard.code)).map UInt16.toNat
        = digits.map Base64.standard.code := by
  simp only [Ascii.units, List.map_map]
  apply List.map_congr_left
  intro digit _
  exact (replace_urlSafe digit).2.1

theorem atob_toBase64Url (bytes : Bytes)
    : atob (replaceAll (replaceAll (toBase64Url bytes) 45 43) 95 47
        ++ List.replicate ((4 - (toBase64Url bytes).length % 4) % 4) 61) = some bytes := by
  have hdigits := Base64.digits?_map_code Base64.standard (Base64.toDigits bytes)
  have hlength := Base64.length_toDigits bytes
  rw [toBase64Url_eq_units, Base64.encode, replaceAll_urlSafe, atob, List.map_append,
    map_toNat_standard, List.map_replicate, Ascii.length_units, List.length_map,
    ← (Base64.toDigits bytes).length_map Base64.standard.code]
  refine (Base64.decodeForgiving?_append hdigits ?_).trans (Base64.ofDigits?_toDigits bytes)
  rw [List.length_map, hlength]
  omega

theorem fromBase64Url_eq_ok_iff {value : JsString} {expectedBytes : Option Nat} {maxBytes : Nat}
    {bytes : Bytes}
    : fromBase64Url value expectedBytes maxBytes = .ok bytes
        ↔ value = toBase64Url bytes ∧ bytes ≠ [] ∧ bytes.length ≤ maxBytes
          ∧ ∀ expected ∈ expectedBytes, bytes.length = expected := by
  unfold fromBase64Url
  constructor
  . intro h
    simp only [invalid, Except.guard_eq_ok] at h
    rcases h with ⟨hguard, h⟩
    split at h
    . contradiction
    . next decoded _ =>
      simp only [Except.guard_eq_ok, pure, Except.pure, Except.ok.injEq] at h
      rcases h with ⟨hchecks, rfl⟩
      push Not at hguard hchecks
      have hvalue := hchecks.2.2
      refine ⟨hvalue.symm, ?_, hchecks.1, ?_⟩
      . intro hnil
        exact hguard.1 (hvalue ▸ toBase64Url_eq_nil.mpr hnil)
      . intro expected hmem
        have hany := hchecks.2.1
        rw [Option.mem_def.mp hmem] at hany
        simpa using hany
  . rintro ⟨rfl, hne, hmax, hexpected⟩
    have hlength := length_toBase64Url bytes
    have hguard : ¬(toBase64Url bytes = [] ∨ ¬(toBase64Url bytes).all isBase64Url = true
        ∨ (toBase64Url bytes).length > (maxBytes * 4 + 2) / 3
        ∨ (toBase64Url bytes).length % 4 = 1) := by
      rw [toBase64Url_eq_nil, all_isBase64Url, hlength]
      simp only [not_true_eq_false, false_or, hne]
      omega
    have hchecks : ¬(bytes.length > maxBytes
        ∨ (expectedBytes.any fun expected => bytes.length ≠ expected) = true
        ∨ toBase64Url bytes ≠ toBase64Url bytes) := by
      push Not
      refine ⟨hmax, ?_, rfl⟩
      cases expectedBytes with
      | none => simp
      | some expected => simpa using hexpected expected rfl
    rw [if_neg hguard, atob_toBase64Url]
    dsimp only
    rw [if_neg hchecks]
    rfl

theorem fromBase64Url_exact {value : JsString} {count : Nat} (hcount : 0 < count) {bytes : Bytes}
    : fromBase64Url value (some count) count = .ok bytes
        ↔ value = toBase64Url bytes ∧ bytes.length = count := by
  rw [fromBase64Url_eq_ok_iff]
  constructor
  . rintro ⟨hvalue, -, -, hlength⟩
    exact ⟨hvalue, hlength count rfl⟩
  . rintro ⟨hvalue, hlength⟩
    refine ⟨hvalue, ?_, by omega, ?_⟩
    . rintro rfl
      simp at hlength
      omega
    . intro expected hmem
      simp only [Option.mem_def, Option.some.injEq] at hmem
      omega

end Shared
