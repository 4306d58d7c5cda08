import Mathlib.Data.List.Infix
import Mathlib.Data.Nat.Notation

/-!
# Bytes

C++ text is a sequence of bytes; a literal of the source is the UTF-8 of its characters.
-/

namespace SciForge

/-- A `std::string`, or the content of a C string. -/
abbrev Bytes := List UInt8

/-- The UTF-8 encoding. -/
def utf8 (text : List Char) : Bytes := text.flatMap String.utf8EncodeChar

/-- The bytes of a literal. -/
def bytes (literal : String) : Bytes := utf8 literal.toList

/-- The text whose UTF-8 the bytes are, when there is one. -/
def decodeUtf8 (b : Bytes) : Option (List Char) := b.toByteArray.utf8Decode?.map Array.toList

lemma decodeUtf8_utf8 (text : List Char) : decodeUtf8 (utf8 text) = some text := by
  have h : (utf8 text).toByteArray.utf8Decode? = some text.toArray := List.utf8Decode?_utf8Encode
  rw [decodeUtf8, h]
  rfl

lemma decodeUtf8_eq_some {b : Bytes} {text : List Char} : decodeUtf8 b = some text ↔ b = utf8 text := by
  constructor
  · intro h
    obtain ⟨chars, hchars, rfl⟩ := Option.map_eq_some_iff.mp h
    have hencode : b.toByteArray.utf8Decode?.isSome := by rw [hchars]; rfl
    have hbytes := ByteArray.utf8Encode_get_utf8Decode? (h := hencode)
    simp only [hchars, Option.get_some] at hbytes
    have hdata := congrArg (fun bytes => bytes.data.toList) hbytes
    simpa [List.utf8Encode, utf8] using hdata.symm
  · rintro rfl
    exact decodeUtf8_utf8 text

lemma utf8_nil : utf8 [] = [] := rfl

lemma utf8_append (text text' : List Char) : utf8 (text ++ text') = utf8 text ++ utf8 text' := List.flatMap_append

lemma utf8_cons (c : Char) (text : List Char) : utf8 (c :: text) = String.utf8EncodeChar c ++ utf8 text :=
  List.flatMap_cons

lemma utf8EncodeChar_ascii {c : Char} (hc : c.toNat < 0x80) : String.utf8EncodeChar c = [UInt8.ofNat c.toNat] := by
  have hle : c.val.toNat ≤ 0x7f := Nat.le_of_lt_succ hc
  simp only [String.utf8EncodeChar, if_pos hle]
  rfl

lemma le_of_mem_utf8EncodeChar {c : Char} (hc : 0x80 ≤ c.toNat) {b : UInt8} (hb : b ∈ String.utf8EncodeChar c) :
    0x80 ≤ b.toNat := by
  have hgt : ¬c.val.toNat ≤ 0x7f := Nat.not_le.mpr hc
  simp only [String.utf8EncodeChar, if_neg hgt] at hb
  split at hb
  · simp only [List.mem_cons, List.not_mem_nil, or_false] at hb
    rcases hb with rfl | rfl <;> simp only [UInt8.toNat_ofNat'] <;> omega
  · split at hb
    · simp only [List.mem_cons, List.not_mem_nil, or_false] at hb
      rcases hb with rfl | rfl | rfl <;> simp only [UInt8.toNat_ofNat'] <;> omega
    · simp only [List.mem_cons, List.not_mem_nil, or_false] at hb
      rcases hb with rfl | rfl | rfl | rfl <;> simp only [UInt8.toNat_ofNat'] <;> omega

namespace Bytes

/-- `text.find(wanted)`: the first position that holds `wanted`, `none` for `npos`. -/
def find (text wanted : Bytes) : Option ℕ :=
  (List.range (text.length + 1)).find? (fun position => wanted.isPrefixOf (text.drop position))

lemma find_eq_none {text wanted : Bytes} : text.find wanted = none ↔ ¬wanted <:+: text := by
  rw [find, List.find?_eq_none]
  constructor
  · rintro h ⟨before, after, rfl⟩
    apply h before.length
    · rw [List.mem_range, List.length_append, List.length_append]
      omega
    · rw [List.isPrefixOf_iff_prefix, List.append_assoc, List.drop_left]
      exact List.prefix_append wanted after
  · intro h position _ hp
    obtain ⟨after, hafter⟩ := List.isPrefixOf_iff_prefix.mp hp
    exact h ⟨text.take position, after, by rw [List.append_assoc, hafter, List.take_append_drop]⟩

end Bytes

end SciForge
