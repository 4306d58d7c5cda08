import SciForge.Python.Str
import Mathlib.Data.Int.Basic

/-!
# `int(text, base)`

The built-in conversion of text: whitespace around, an optional sign, a `0x` or `0o` prefix in that
base, digits with single underscores between them, and at most 4300 digits in base ten.
-/

namespace SciForge

/-- The part of the Unicode database `int` reads, for the characters outside ASCII. -/
structure UnicodeTable where
  isSpace : PyChar → Bool
  decimal : PyChar → Option (Fin 10)

/-- Decimal digits and spaces of any script as their ASCII ones, any other character as `?`. -/
def UnicodeTable.toAscii (u : UnicodeTable) (c : PyChar) : PyChar :=
  if c.val < 127 then c
  else if u.isSpace c then ord ' '
  else
    match u.decimal c with
    | some d => ⟨48 + d.val, by omega⟩
    | none => ord '?'

/-- A text that is ASCII already is left as it is. -/
def UnicodeTable.asciiText (u : UnicodeTable) (text : PyStr) : PyStr :=
  if text.all (fun c => c.val < 128) then text else text.map u.toAscii

def isAsciiSpace (c : PyChar) : Bool := c.val = 32 || (9 ≤ c.val && c.val ≤ 13)

/-- The value of a digit in bases up to 36. -/
def digitValue (c : PyChar) : Option ℕ :=
  if 48 ≤ c.val ∧ c.val ≤ 57 then some (c.val - 48)
  else if 97 ≤ c.val ∧ c.val ≤ 122 then some (c.val - 87)
  else if 65 ≤ c.val ∧ c.val ≤ 90 then some (c.val - 55)
  else none

/-- The digits of `text` in `base`, an underscore only between two of them, and what follows. -/
def scanDigits (base : ℕ) (digits : List ℕ) (text : PyStr) : Option (List ℕ × PyStr) :=
  match text with
  | [] => some (digits, [])
  | c :: rest =>
    if c = ord '_' then
      match rest with
      | [] => none
      | c' :: rest' =>
        match digitValue c' with
        | some d => if d < base then scanDigits base (digits ++ [d]) rest' else none
        | none => none
    else
      match digitValue c with
      | some d => if d < base then scanDigits base (digits ++ [d]) rest else some (digits, c :: rest)
      | none => some (digits, c :: rest)

def ofDigits (base : ℕ) (digits : List ℕ) : ℕ := digits.foldl (fun n d => n * base + d) 0

def intMaxStrDigits : ℕ := 4300

def splitSign (text : PyStr) : Bool × PyStr :=
  match text with
  | c :: rest => if c = ord '-' then (true, rest) else if c = ord '+' then (false, rest) else (false, c :: rest)
  | [] => (false, [])

/-- A base prefix, and one underscore after it. -/
def dropBasePrefix (base : ℕ) (text : PyStr) : PyStr :=
  let letters := if base = 16 then [ord 'x', ord 'X'] else if base = 8 then [ord 'o', ord 'O'] else []
  match text with
  | zero :: letter :: rest =>
    if zero = ord '0' ∧ letter ∈ letters then
      match rest with
      | c :: rest' => if c = ord '_' then rest' else c :: rest'
      | [] => []
    else zero :: letter :: rest
  | _ => text

/-- `int(text, base)`, `none` for a `ValueError`. -/
def pyInt (u : UnicodeTable) (text : PyStr) (base : ℕ) : Option ℤ :=
  let (negative, unsigned) := splitSign ((u.asciiText text).dropWhile isAsciiSpace)
  let body := dropBasePrefix base unsigned
  match body with
  | [] => none
  | c :: _ =>
    if c = ord '_' then none
    else
      match scanDigits base [] body with
      | some (d :: digits, rest) =>
        if rest.dropWhile isAsciiSpace ≠ [] ∨ (base = 10 ∧ intMaxStrDigits < (d :: digits).length) then none
        else
          let n := ofDigits base (d :: digits)
          some (if negative then -(n : ℤ) else n)
      | _ => none

/-- `chr(n)`, `none` for a `ValueError`. -/
def pyChr (n : ℤ) : Option PyChar :=
  if h : 0 ≤ n ∧ n < 0x110000 then some ⟨n.toNat, by omega⟩ else none

end SciForge
