import Erase.Library.EcmaScript
import Erase.Library.SerdeJson

/-!
Flat objects on their way from the printer of `serde_json` to `JSON.parse`: every member arrives under its
name, whatever the others hold.
-/

namespace Json

-- A member that both sides of an exchange read alike.
structure IsPlainMember (member : List Nat × Scalar) : Prop where
  isCompact : IsCompact member
  exact : ∀ n, member.2 = .number n → n < 2 ^ 53

theorem isPlainMember_text {key text : List Nat} (hascii : Ascii.IsAscii key)
    (hplain : key.all isPlain = true) (hascii' : Ascii.IsAscii text) (hplain' : text.all isPlain = true)
    : IsPlainMember (key, .text text) where
  isCompact := ⟨hascii, hplain, hascii', hplain'⟩
  exact := nofun

theorem isPlainMember_number {key : List Nat} {n : Nat} (hascii : Ascii.IsAscii key)
    (hplain : key.all isPlain = true) (hn : n < 2 ^ 53) : IsPlainMember (key, .number n) where
  isCompact := ⟨hascii, hplain, trivial, trivial⟩
  exact other hother := by
    cases hother
    exact hn

structure IsFlat (members : List (List Nat × Scalar)) : Prop where
  plain : ∀ member ∈ members, IsPlainMember member
  nodup : (members.map Prod.fst).Nodup

theorem IsFlat.isCompact {members : List (List Nat × Scalar)} (h : IsFlat members)
    : ∀ member ∈ members, IsCompact member := fun member hmember => (h.plain member hmember).isCompact

end Json

namespace JsValue

def ofFlat (members : List (List Nat × Json.Scalar)) : List (JsString × JsValue) :=
  members.map fun member => (Ascii.units member.1, ofScalar member.2)

section

variable {members : List (List Nat × Json.Scalar)} {key : List Nat}

theorem parse?_flat (h : Json.IsFlat members)
    : parse? (Ascii.units (Json.printObject members)) = some (.object (ofFlat members)) :=
  parse?_stringify h.isCompact (fun member hmember => (h.plain member hmember).exact) h.nodup

theorem nodup_ofFlat (h : Json.IsFlat members) : ((ofFlat members).map Prod.fst).Nodup := by
  have hkeys : (ofFlat members).map Prod.fst = (members.map Prod.fst).map Ascii.units := by
    simp [ofFlat]
  rw [hkeys]
  apply List.Nodup.map_on _ h.nodup
  intro left hleft right hright heq
  rw [List.mem_map] at hleft hright
  rcases hleft with ⟨leftMember, hleft, rfl⟩
  rcases hright with ⟨rightMember, hright, rfl⟩
  exact Ascii.units_injOn (h.isCompact _ hleft).key_isAscii (h.isCompact _ hright).key_isAscii heq

theorem member?_ofFlat (h : Json.IsFlat members) {scalar : Json.Scalar} (hmem : (key, scalar) ∈ members)
    : member? (ofFlat members) (Ascii.units key) = some (ofScalar scalar) := by
  apply member?_of_mem (nodup_ofFlat h)
  rw [ofFlat, List.mem_map]
  exact ⟨_, hmem, rfl⟩

end

end JsValue

namespace SerdeJson

theorem decode?_toVec {members : List (List Nat × Json.Scalar)} (h : Json.IsFlat members)
    : (Utf8.decode? (toVec (members.map memberOfCodes))).map JsString.ofChars
        = some (Ascii.units (Json.printObject members)) := by
  have hascii := Json.isAscii_printObject h.isCompact
  rw [toVec_memberOfCodes h.isCompact, Ascii.decode?_bytes hascii, Option.map_some,
    Ascii.ofChars_chars hascii]

theorem head?_toVec (members : List (String × Scalar)) : (toVec members).head? = some 123 := by
  cases members <;> rfl

end SerdeJson
