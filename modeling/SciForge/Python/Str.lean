import Mathlib.Data.List.Lex
import Mathlib.Data.Fintype.Basic
import Mathlib.Order.Fin.Basic

/-!
# Python text

A Python `str` is a sequence of code points, lone surrogates included, ordered by code point.
-/

namespace SciForge

/-- One code point, `0 ≤ c ≤ 0x10FFFF`. -/
abbrev PyChar := Fin 0x110000

instance : LawfulBEq PyChar := inferInstance

/-- A Python `str`. -/
abbrev PyStr := List PyChar

/-- The code point of a Unicode scalar value. -/
def ord (c : Char) : PyChar :=
  ⟨c.toNat, by
    have hv := c.valid
    simp only [UInt32.isValidChar, Nat.isValidChar] at hv
    change c.val.toNat < 0x110000
    omega⟩

/-- The `str` a literal denotes. -/
def py (s : String) : PyStr := s.toList.map ord

end SciForge
