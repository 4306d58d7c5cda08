import Mathlib.Data.List.Basic

/-!
# The checkout scan of check-pins

The awk program of `check-pins.sh` that reads the checkouts of SciForge off the lines of a workflow file.
-/

namespace SciForge.Tools.PinScan

abbrev Line := List Char

/-- `[[:space:]]`. -/
def isSpace (c : Char) : Bool := c = ' ' || (9 ≤ c.val && c.val ≤ 13)

/-- `["\047]`. -/
def isQuote (c : Char) : Bool := c = '\x22' || c = '\x27'

/-- `["\047]?`, and what follows. -/
def dropQuote : Line → Line
  | [] => []
  | c :: rest => if isQuote c then rest else c :: rest

/-- `/^[[:space:]]*-[[:space:]]/`. -/
def opens (line : Line) : Bool :=
  match line.dropWhile isSpace with
  | '-' :: c :: _ => isSpace c
  | _ => false

/-- `/repository:[[:space:]]*["\047]?RECHE23\/sciforge["\047]?([[:space:]]|$)/` at the start of the text. -/
def mentionsHere (text : Line) : Bool :=
  ((text.dropPrefix? "repository:".toList).bind fun rest =>
    (dropQuote (rest.dropWhile isSpace)).dropPrefix? "RECHE23/sciforge".toList).any
      fun rest => (dropQuote rest).head?.all isSpace

/-- The same anywhere in the line. -/
def mentions (line : Line) : Bool := line.tails.any mentionsHere

/-- `/^[[:space:]]*ref:/`, and what follows. -/
def refText (line : Line) : Option Line := (line.dropWhile isSpace).dropPrefix? "ref:".toList

/-- The value of a `ref:` line: the quotes removed, cut at the first blank. -/
def refValue (text : Line) : Line := ((text.dropWhile isSpace).filter (!isQuote ·)).takeWhile (!isSpace ·)

/-- `[0-9]+`, and what follows. -/
def dropNumber (text : Line) : Option Line :=
  if text.head?.any Char.isDigit then some (text.dropWhile Char.isDigit) else none

/-- `/^v[0-9]+\.[0-9]+\.[0-9]+$/`. -/
def isVersion (text : Line) : Bool :=
  (do
    let major ← text.dropPrefix? ['v']
    let rest ← dropNumber major
    let minor ← rest.dropPrefix? ['.']
    let rest ← dropNumber minor
    let patch ← rest.dropPrefix? ['.']
    dropNumber patch) == some []

/-- A record: a version, or `UNPINNED` with no ref or with one that is no version. -/
inductive Record
  | pinned (version : Line) (line : ℕ)
  | noRef (line : ℕ)
  | otherRef (line : ℕ) (value : Line)
deriving DecidableEq

/-- The variables of the program and the records so far. -/
structure Scan where
  nr : ℕ
  repo : Bool
  repoLn : ℕ
  refV : Line
  refLn : ℕ
  records : List Record

namespace Scan

/-- The record of the step that ends. -/
def record (s : Scan) : Record :=
  if isVersion s.refV then .pinned s.refV s.refLn
  else if s.refV = [] then .noRef s.repoLn
  else .otherRef s.refLn s.refV

def flush (s : Scan) : Scan :=
  ⟨s.nr, false, 0, [], 0, if s.repo then s.records ++ [s.record] else s.records⟩

/-- One line: the rules in their order. -/
def read (s : Scan) (line : Line) : Scan :=
  let s := { s with nr := s.nr + 1 }
  let s := if opens line then s.flush else s
  let s := if mentions line then { s with repo := true, repoLn := s.nr } else s
  match refText line with
  | some text => { s with refV := refValue text, refLn := s.nr }
  | none => s

/-- Before the line after the first `n`. -/
def start (n : ℕ) : Scan := ⟨n, false, 0, [], 0, []⟩

end Scan

/-- The records of a file, the last step ending with it. -/
def scan (lines : List Line) : List Record := (lines.foldl Scan.read (.start 0)).flush.records

/-! ### What the patterns accept -/

end SciForge.Tools.PinScan
