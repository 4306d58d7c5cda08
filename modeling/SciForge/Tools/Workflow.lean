import SciForge.Tools.PinScan
import Mathlib.Data.List.DropRight

/-!
# Workflow files

Jobs as keys and lists of steps, line by line, and what YAML reads as the value of a key.
-/

namespace SciForge.Tools.PinScan

/-! ### Values -/

/-- The text before a comment. -/
def uncomment : Line → Line
  | [] => []
  | c :: rest => if isSpace c && rest.head? == some '#' then [] else c :: uncomment rest

/-- A quoted scalar from its content on: only a comment follows it on the line. One with an escape is not read. -/
def quoted (quote : Char) (text : Line) : Option Line :=
  match text.dropWhile (· ≠ quote) with
  | [] => none
  | _ :: rest =>
    if (uncomment rest).all isSpace && !(quote == '\x22' && (text.takeWhile (· ≠ quote)).contains '\\') then
      some (text.takeWhile (· ≠ quote))
    else none

/-- What starts a collection, an anchor, an alias, a tag or a block, and no plain scalar. -/
def isIndicator (c : Char) : Bool := ",[]\x7b\x7d&*!|>%@`".toList.contains c

/-- The scalar after a key, where it is one on the line. -/
def scalar (value : Line) : Option Line :=
  match value.dropWhile isSpace with
  | [] => some []
  | c :: rest =>
    if isQuote c then quoted c rest
    else if isIndicator c then none
    else some (((uncomment value).dropWhile isSpace).rdropWhile isSpace)

/-- `|` or `>` after a key: the deeper lines below it are its text. -/
def opensBlock (value : Line) : Bool := (value.dropWhile isSpace).head?.any (fun c => c == '|' || c == '>')

/-! ### Lines -/

/-- A key that is a plain scalar in front of its `:`. -/
def plainKey (key : Line) : Bool :=
  key.all (fun c => !isSpace c && c != ':') && key.head?.any (fun c => !isIndicator c && !isQuote c && c != '#')

/-- What may stand after the key: a scalar after `repository` and `ref`, no mapping and no alias after another. -/
def inlineValue (key value : Line) : Bool :=
  value.head?.all isSpace && !value.contains '\n' &&
    if key = "repository".toList ∨ key = "ref".toList then (scalar value).isSome
    else (value.dropWhile isSpace).head?.all (fun c => c != '\x7b' && c != '*')

/-- A `key: value` line. -/
structure Entry where
  indent : ℕ
  key : Line
  value : Line
  plain : plainKey key = true
  inline : inlineValue key value = true

def Entry.text (e : Entry) : Line := e.key ++ ':' :: e.value

def Entry.line (e : Entry) : Line := List.replicate e.indent ' ' ++ e.text

/-- A line of a step or of a job: a key, or a line that is none and no list item. -/
inductive Row
  | key (e : Entry)
  | other (line : Line) (item : opens line = false)

namespace Row

def line : Row → Line
  | .key e => e.line
  | .other line _ => line

def entry : Row → Option Entry
  | .key e => some e
  | .other _ _ => none

end Row

/-- A blank line or a comment. -/
def skipped (line : Line) : Bool := (line.dropWhile isSpace).head?.all (· == '#')

/-- The lines that are no keys are blank, comments, or text in the block of the last key, by its column. -/
def regular (block : Option ℕ) : List Row → Bool
  | [] => true
  | .key e :: rest =>
    block.all (fun column => decide (e.indent ≤ column)) &&
      regular (if opensBlock e.value then some e.indent else none) rest
  | .other line _ :: rest =>
    (skipped line || block.any (fun column => decide (column < (line.takeWhile (· == ' ')).length))) &&
      regular block rest

/-! ### Jobs -/

/-- Keys by their columns, each with the keys it is under, the nearest first. -/
def nested (above : List (ℕ × Line)) : List (ℕ × Entry × ℕ) → List (List Line × Entry × ℕ)
  | [] => []
  | (column, entry) :: rest =>
    let above := above.dropWhile (fun key => decide (column ≤ key.1))
    (above.map Prod.snd, entry) :: nested ((column, entry.1.key) :: above) rest

/-- A step: the key on its `- ` line, then its other lines, their keys at the column of the first or under another. -/
structure Step where
  gap : ℕ
  opening : Entry
  rest : List Row
  inside : (rest.filterMap Row.entry).all (fun e => decide (opening.indent + 2 + gap ≤ e.indent)) = true
  read : regular (if opensBlock opening.value then some (opening.indent + 2 + gap) else none) rest = true

namespace Step

def openingLine (s : Step) : Line :=
  List.replicate s.opening.indent ' ' ++ '-' :: ' ' :: (List.replicate s.gap ' ' ++ s.opening.text)

def lines (s : Step) : List Line := s.openingLine :: s.rest.map Row.line

/-- The keys with their lines in a file that has `n` lines before the step. -/
def keys (s : Step) (n : ℕ) : List (Entry × ℕ) :=
  ((.key s.opening :: s.rest).zipIdx (n + 1)).filterMap (fun row => row.1.entry.map (·, row.2))

/-- The first key stands behind the dash. -/
def columns (s : Step) (n : ℕ) : List (ℕ × Entry × ℕ) :=
  (s.keys n).map (fun entry => (if entry.2 = n + 1 then s.opening.indent + 2 + s.gap else entry.1.indent, entry))

/-- The key under the others. -/
def find (s : Step) (n : ℕ) (above : List Line) (key : Line) : Option (Entry × ℕ) :=
  ((nested [] (s.columns n)).find? (fun entry => entry.1 = above && entry.2.1.key = key)).map Prod.snd

/-- The step's own key: the input of its action, or a key of the step itself. -/
def own (s : Step) (n : ℕ) (key : String) : Option (Entry × ℕ) :=
  (s.find n ["with".toList] key.toList).or (s.find n [] key.toList)

/-- The step checks SciForge out. -/
def sciforge (s : Step) : Bool :=
  (s.own 0 "repository").any (fun entry => scalar entry.1.value = some "RECHE23/sciforge".toList)

/-- The version of the step's own ref. -/
def pin (s : Step) (n : ℕ) : Option (Line × ℕ) :=
  (s.own n "ref").bind fun entry => ((scalar entry.1.value).filter isVersion).map (·, entry.2)

end Step

/-- A job with its keys and then its steps, or a call of a reusable workflow with keys alone. -/
inductive Job
  | steps (keys : List Row) (steps : List Step)
  | call (keys : List Row)

/-- A line outside the steps, or a step. -/
inductive Piece
  | outside (row : Row)
  | step (s : Step)

def Piece.lines : Piece → List Line
  | .outside row => [row.line]
  | .step s => s.lines

def Job.pieces : Job → List Piece
  | .steps keys list => keys.map .outside ++ list.map .step
  | .call keys => keys.map .outside

def pieces (jobs : List Job) : List Piece := jobs.flatMap Job.pieces

def lines (jobs : List Job) : List Line := (pieces jobs).flatMap Piece.lines

/-- The lines up to the next step. -/
def rowsFirst : List Piece → List Row
  | .outside row :: rest => row :: rowsFirst rest
  | _ => []

/-- A step in its file: the lines before it, and those after it up to the next step. -/
structure Placed where
  before : ℕ
  step : Step
  after : List Row

/-- The steps of what follows the first `n` lines. -/
def placed (n : ℕ) : List Piece → List Placed
  | [] => []
  | .outside _ :: rest => placed (n + 1) rest
  | .step s :: rest => ⟨n, s, rowsFirst rest⟩ :: placed (n + s.lines.length) rest

end SciForge.Tools.PinScan
