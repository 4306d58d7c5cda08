import SciForge.Tools.PinScan
import SciForge.Tools.Versions
import Mathlib.Data.Int.Basic
import Mathlib.Data.List.Dedup
import Mathlib.Data.Char
import Mathlib.Data.List.Lex

/-!
# The pin check

`check-pins.sh`: the references to SciForge it reads off the files of a consumer, the order of versions it compares a
floor in, and its verdict.
-/

namespace SciForge.Tools.PinScan

/-! ### Lines with a reference -/

/-- The last place in the line where the pattern matches: `sed` with a greedy `.*` in front. -/
def lastHere {α : Type} (here : Line → Option α) (line : Line) : Option α := (line.tails.filterMap here).getLast?

/-- What `IFS=: read -r ln rest` leaves of a matched line: a single `:` at its end is taken off. -/
def readRest (line : Line) : Line :=
  if line.getLast? = some ':' ∧ ':' ∉ line.dropLast then line.dropLast else line

/-- `grep` for one pattern, then `sed` for another; a line `sed` does not match stays as it is. -/
def fieldOf {α : Type} (grep : Line → Option α) (sed : Line → Option Line) (line : Line) : Option Line :=
  if (lastHere grep line).isSome then some ((lastHere sed (readRest line)).getD (readRest line)) else none

/-- `[^[:space:]"']`. -/
def isRefChar (c : Char) : Bool := !isSpace c && !isQuote c

/-- `RECHE23/sciforge/[^@[:space:]]+@`, and the ref after it. -/
def usesHere (text : Line) : Option Line :=
  (text.dropPrefix? "RECHE23/sciforge/".toList).bind fun rest =>
    match rest.takeWhile (fun c => c ≠ '@' && !isSpace c), rest.dropWhile (fun c => c ≠ '@' && !isSpace c) with
    | _ :: _, '@' :: after => some (after.takeWhile isRefChar)
    | _, _ => none

/-- `sciforge-ref:[[:space:]]*["']?`, and the ref after it. -/
def inputHere (text : Line) : Option Line :=
  (text.dropPrefix? "sciforge-ref:".toList).map fun rest =>
    (dropQuote (rest.dropWhile isSpace)).takeWhile isRefChar

/-- `v[0-9]+\.[0-9]+\.[0-9]+`, and what follows. -/
def dropVersion (text : Line) : Option Line := do
  let major ← text.dropPrefix? ['v']
  let rest ← dropNumber major
  let minor ← rest.dropPrefix? ['.']
  let rest ← dropNumber minor
  let patch ← rest.dropPrefix? ['.']
  dropNumber patch

/-- The version in front of the text. -/
def versionHere (text : Line) : Option Line :=
  (dropVersion text).map fun rest => text.take (text.length - rest.length)

/-- `set\([[:space:]]*SCIFORGE_TAG[[:space:]]+"?v[0-9]+\.[0-9]+\.[0-9]+`. -/
def tagHere (text : Line) : Option Line := do
  let rest ← text.dropPrefix? "set(".toList
  let rest ← (rest.dropWhile isSpace).dropPrefix? "SCIFORGE_TAG".toList
  if rest.head?.any isSpace then
    let value := rest.dropWhile isSpace
    versionHere ((value.dropPrefix? ['\x22']).getD value)
  else none

/-- `sciforge-build[[:space:]]*>=`, and what follows. -/
def requiresHere (text : Line) : Option Line := do
  let rest ← text.dropPrefix? "sciforge-build".toList
  (rest.dropWhile isSpace).dropPrefix? ">=".toList

/-- `sciforge-build[[:space:]]*>=[[:space:]]*([0-9][0-9.]*)`. -/
def floorHere (text : Line) : Option Line := do
  let rest ← requiresHere text
  let value := rest.dropWhile isSpace
  if value.head?.any Char.isDigit then return value.takeWhile (fun c => c.isDigit || c = '.') else none

def usesRef (line : Line) : Option Line := fieldOf usesHere usesHere line

def inputRef (line : Line) : Option Line := fieldOf inputHere inputHere line

def floorRef (line : Line) : Option Line := fieldOf requiresHere floorHere line

/-- The first version on a line with `set(SCIFORGE_TAG v…`. -/
def cmakeRef (line : Line) : Option Line :=
  if (lastHere tagHere line).isSome then some (((readRest line).tails.filterMap versionHere).head?.getD []) else none

/-! ### The records -/

/-- What a record says: a version, a reference that pins none (with its text), a floor. -/
inductive Said
  | pin (version : Line)
  | unpinned (ref : Line)
  | floor (version : Line)
deriving DecidableEq

/-- A record with its file, line and form. -/
structure Found where
  said : Said
  file : Line
  line : ℕ
  form : String
deriving DecidableEq

/-- `pin_or_unpinned`. -/
def pinOrUnpinned (ref : Line) : Said := if isVersion ref then .pin ref else .unpinned ref

/-- The lines of a file with a reference, as records. -/
def scanLines (file : Line) (form : String) (ref : Line → Option Line) (said : Line → Said) (lines : List Line) :
    List Found :=
  (lines.zipIdx 1).filterMap fun entry => (ref entry.1).map fun text => ⟨said text, file, entry.2, form⟩

/-- A record of the checkout scan. -/
def Record.found (file : Line) : Record → Found
  | .pinned version line => ⟨.pin version, file, line, "checkout"⟩
  | .noRef line => ⟨.unpinned [], file, line, "checkout with no ref"⟩
  | .otherRef line value => ⟨.unpinned value, file, line, "checkout ref"⟩

/-- The files of a consumer that are read: their names and lines. -/
structure Consumer where
  workflows : List (Line × List Line)
  pyproject : Option (Line × List Line)
  cmake : List (Line × List Line)

/-- `scan`. -/
def Consumer.scan (repo : Consumer) : List Found :=
  (repo.workflows.flatMap fun file =>
    scanLines file.1 "uses" usesRef pinOrUnpinned file.2 ++
      scanLines file.1 "sciforge-ref" inputRef pinOrUnpinned file.2 ++
      (PinScan.scan file.2).map (Record.found file.1)) ++
  (repo.pyproject.toList.flatMap fun file => scanLines file.1 "FLOOR" floorRef .floor file.2) ++
  repo.cmake.flatMap fun file => scanLines file.1 "cmake" cmakeRef .pin file.2

/-! ### The order of versions -/

/-- The number `sort -n` reads off a field: after blanks and a sign, the digits in front, 0 without any. -/
def numeric (field : Line) : ℤ :=
  match field.dropWhile (fun c => c = ' ' || c = '\t') with
  | '-' :: digits => -(Nat.ofDigitChars 10 (digits.takeWhile Char.isDigit) 0 : ℤ)
  | digits => (Nat.ofDigitChars 10 (digits.takeWhile Char.isDigit) 0 : ℤ)

/-- The keys of `sort -t. -k1,1n -k2,2n -k3,3n`. -/
def sortKeys (line : Line) : List ℤ := [0, 1, 2].map fun i => numeric (((line.splitOn '.')[i]?).getD [])

/-- `sort` puts the first line before the second: by the keys, then character by character. -/
def sortsBefore (a b : Line) : Bool := decide (sortKeys a < sortKeys b ∨ (sortKeys a = sortKeys b ∧ a ≤ b))

/-- The floor is another text than the version, and the last of the two once sorted. -/
def floorAbove (floor version : Line) : Bool := floor ≠ version && !sortsBefore floor version

/-! ### The verdict -/

/-- The SciForge checkout the script runs from: whether there is one with a history that is not the consumer itself,
what `git describe` says of it, whether a tracked file is modified, and SCIFORGE_UNPINNED_OK. -/
structure Checkout where
  judged : Bool
  describe : Line
  modified : Bool
  unpinnedOk : Bool

def Checkout.at (c : Checkout) : Line := if c.modified then c.describe ++ ", modified".toList else c.describe

/-- `sibling`: a checkout at the version passes, another one only with a warning. -/
def Checkout.sibling (c : Checkout) (version : Line) : Bool := !c.judged || c.at = version || c.unpinnedOk

/-- What `check` prints, with the data of each message. -/
inductive Verdict
  | unpinned (records : List Found)
  | none
  | drift (versions : ℕ) (records : List Found)
  | floor (record : Found) (version : Line)
  | sibling (location version : Line)
  | ok (version : Line) (sites : ℕ)

def Found.version (f : Found) : Option Line :=
  match f.said with
  | .pin version => some version
  | _ => .none

def Found.isUnpinned (f : Found) : Bool :=
  match f.said with
  | .unpinned _ => true
  | _ => false

/-- A floor above the version. -/
def Found.isAbove (version : Line) (f : Found) : Bool :=
  match f.said with
  | .floor floor => floorAbove floor version
  | _ => false

/-- `check`. -/
def check (repo : Consumer) (checkout : Checkout) : Verdict :=
  let records := repo.scan
  let pins := records.filter (fun f => f.version.isSome)
  let unpinned := records.filter Found.isUnpinned
  if unpinned ≠ [] then .unpinned unpinned
  else
    match (pins.filterMap Found.version).dedup with
    | [] => .none
    | [version] =>
      match records.find? (Found.isAbove (version.drop 1)) with
      | some record => .floor record version
      | .none => if checkout.sibling version then .ok version pins.length else .sibling checkout.at version
    | versions => .drift versions.length pins

/-- The exit status is 0. -/
def Verdict.passes : Verdict → Bool
  | .none | .ok _ _ => true
  | _ => false

end SciForge.Tools.PinScan
