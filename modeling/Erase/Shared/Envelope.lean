import Erase.Library.Except
import Erase.Shared.Content

/-!
The content envelope as a format, apart from the order of the writes and reads that handle it.
-/

namespace Shared

def fileBytes (file : PackedFile) : Bytes :=
  Bytes.ofNatBE 2 file.name.length ++ Bytes.ofNatBE 2 file.mime.length
  ++ Bytes.ofNatBE 4 file.data.length ++ file.name ++ file.mime ++ file.data

def envelope (text : Bytes) (files : List PackedFile) : Bytes :=
  [69, 67, 78, 49] ++ Bytes.ofNatBE 4 (logicalLength text files) ++ Bytes.ofNatBE 4 text.length
  ++ Bytes.ofNatBE 2 files.length ++ text ++ files.flatMap fileBytes

theorem length_fileBytes (file : PackedFile)
    : (fileBytes file).length = 8 + file.name.length + file.mime.length + file.data.length := by
  simp only [fileBytes, List.length_append, Bytes.length_ofNatBE]

theorem length_flatMap_fileBytes (files : List PackedFile)
    : (files.flatMap fileBytes).length
        = (files.map fun file =>
            8 + file.name.length + file.mime.length + file.data.length).sum := by
  rw [List.length_flatMap]
  simp only [length_fileBytes]

theorem length_envelope (text : Bytes) (files : List PackedFile)
    : (envelope text files).length = logicalLength text files := by
  simp only [envelope, List.length_append, Bytes.length_ofNatBE, length_flatMap_fileBytes,
    logicalLength, innerHeaderBytes, List.length_cons, List.length_nil]

theorem le_bucket (length : Nat) : length ≤ bucket length := by
  unfold bucket paddingBytes
  omega

theorem bucket_mono {left right : Nat} (h : left ≤ right) : bucket left ≤ bucket right := by
  unfold bucket paddingBytes
  omega

theorem bucket_mod (length : Nat) : bucket length % paddingBytes = 0 :=
  Nat.mul_mod_left _ _

theorem length_fillPadding (random : Nat → UInt8) (padded : Bytes) (n : Nat)
    : (fillPadding random padded n).length = padded.length := by
  fun_induction fillPadding random padded n with
  | case1 padded n hlt chunk ih =>
    rw [ih]
    simp only [chunk, List.length_append, List.length_take, List.length_map, List.length_range',
      List.length_drop]
    omega
  | case2 padded n hge => rfl

-- Writes one behind the other.
def setParts (buffer : Bytes) (offset : Nat) : List Bytes → Except JsError Bytes
  | [] => .ok buffer
  | part :: parts => do
    let buffer ← setPart buffer offset part
    setParts buffer (offset + part.length) parts

theorem setParts_append (left right : List Bytes) (buffer : Bytes) (offset : Nat)
    : setParts buffer offset (left ++ right)
        = setParts buffer offset left >>= fun buffer =>
            setParts buffer (offset + left.flatten.length) right := by
  induction left generalizing buffer offset with
  | nil => rfl
  | cons part parts ih =>
    simp only [List.cons_append, setParts, bind_assoc, ih, List.flatten_cons, List.length_append,
      Nat.add_assoc]

theorem setParts_extends {parts : List Bytes} {buffer front : Bytes} {offset : Nat}
    (hfront : front <+: buffer) (hoffset : front.length = offset)
    (hfit : offset + parts.flatten.length ≤ buffer.length)
    : ∃ out, setParts buffer offset parts = .ok out ∧ (front ++ parts.flatten) <+: out
        ∧ out.length = buffer.length := by
  induction parts generalizing buffer front offset with
  | nil => exact ⟨buffer, rfl, by simpa using hfront, rfl⟩
  | cons part parts ih =>
    rw [List.flatten_cons, List.length_append] at hfit
    have hpart : offset + part.length ≤ buffer.length := by omega
    rcases Bytes.write_extends hfront hoffset hpart with ⟨next, hwrite, hextends, hlength⟩
    have hnext : (front ++ part).length = offset + part.length := by
      rw [List.length_append, hoffset]
    rcases ih hextends hnext (by omega) with ⟨out, hparts, hout, houtLength⟩
    refine ⟨out, ?_, ?_, ?_⟩
    . rw [setParts, setPart, hwrite]
      exact hparts
    . rw [List.flatten_cons, ← List.append_assoc]
      exact hout
    . omega

-- Writes that fill the buffer leave nothing of it.
theorem setParts_full {parts : List Bytes} {buffer : Bytes}
    (hlength : parts.flatten.length = buffer.length)
    : setParts buffer 0 parts = .ok parts.flatten := by
  have hnil : ([] : Bytes).length = 0 := rfl
  have hfit : 0 + parts.flatten.length ≤ buffer.length := by omega
  rcases setParts_extends List.nil_prefix hnil hfit with ⟨out, hout, hextends, houtLength⟩
  rw [List.nil_append] at hextends
  rw [hout, hextends.eq_of_length (hlength.trans houtLength.symm)]

def fileParts (file : PackedFile) : List Bytes := [
  Bytes.ofNatBE 2 file.name.length,
  Bytes.ofNatBE 2 file.mime.length,
  Bytes.ofNatBE 4 file.data.length,
  file.name,
  file.mime,
  file.data]

def headParts (text : Bytes) (files : List PackedFile) : List Bytes := [
  [69, 67, 78, 49],
  Bytes.ofNatBE 4 (logicalLength text files),
  Bytes.ofNatBE 4 text.length,
  Bytes.ofNatBE 2 files.length,
  text]

def parts (text : Bytes) (files : List PackedFile) : List Bytes :=
  headParts text files ++ files.flatMap fileParts

theorem length_headParts (text : Bytes) (files : List PackedFile)
    : (headParts text files).flatten.length = innerHeaderBytes + text.length := by
  simp only [headParts, List.flatten_cons, List.flatten_nil, List.length_append,
    Bytes.length_ofNatBE, List.length_cons, List.length_nil, innerHeaderBytes]
  omega

theorem flatten_fileParts (file : PackedFile) : (fileParts file).flatten = fileBytes file := by
  simp [fileParts, fileBytes]

theorem flatten_flatMap_fileParts (files : List PackedFile)
    : (files.flatMap fileParts).flatten = files.flatMap fileBytes := by
  induction files with
  | nil => rfl
  | cons file files ih => simp [flatten_fileParts, ih]

theorem flatten_parts (text : Bytes) (files : List PackedFile)
    : (parts text files).flatten = envelope text files := by
  simp [parts, headParts, envelope, flatten_flatMap_fileParts]

theorem writeFiles_eq_setParts (files : List PackedFile) (buffer : Bytes) (offset : Nat)
    : writeFiles buffer offset files = setParts buffer offset (files.flatMap fileParts) := by
  induction files generalizing buffer offset with
  | nil => rfl
  | cons file files ih =>
    rw [List.flatMap_cons, setParts_append, flatten_fileParts, length_fileBytes]
    simp only [writeFiles, setUint16, setUint32, fileParts, setParts, bind_assoc,
      Bytes.length_ofNatBE, Nat.add_assoc, Nat.reduceAdd, Except.ok_bind, ih]

theorem layOut_eq_setParts (random : Nat → UInt8) (text : Bytes) (files : List PackedFile)
    : layOut random text files
        = setParts (fillPadding random (List.replicate (bucket (logicalLength text files)) 0)
            (logicalLength text files)) 0 (parts text files) := by
  rw [parts, setParts_append, length_headParts]
  simp only [layOut, setUint16, setUint32, headParts, setParts, bind_assoc, Except.ok_bind,
    writeFiles_eq_setParts, innerHeaderBytes, Nat.zero_add, Bytes.length_ofNatBE, List.length_cons,
    List.length_nil, Nat.reduceAdd]

theorem layOut_extends (random : Nat → UInt8) (text : Bytes) (files : List PackedFile)
    : ∃ out, layOut random text files = .ok out ∧ envelope text files <+: out
        ∧ out.length = bucket (logicalLength text files) := by
  rw [layOut_eq_setParts, ← flatten_parts]
  have hfill := length_fillPadding random
    (List.replicate (bucket (logicalLength text files)) 0) (logicalLength text files)
  rw [List.length_replicate] at hfill
  have hfit : 0 + (parts text files).flatten.length
      ≤ (fillPadding random (List.replicate (bucket (logicalLength text files)) 0)
        (logicalLength text files)).length := by
    rw [flatten_parts, length_envelope, hfill, Nat.zero_add]
    apply le_bucket
  rcases setParts_extends List.nil_prefix rfl hfit with ⟨out, hout, hextends, hlength⟩
  exact ⟨out, hout, hextends, hlength.trans hfill⟩

end Shared
