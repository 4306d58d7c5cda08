import SciForge.Python.Str
import Mathlib.Data.Finset.Sort
import Mathlib.Data.Prod.Lex
import Mathlib.Data.List.Sort

/-!
# The exhaustive enumerator

`atoms`, `elements`, `seqs` and `alts` list the strings their generators yield, each with its size,
in the order of the loops. `enumeratePatterns` collects them in a set and sorts it, `enumerateInputs`
does so for the texts to match.
-/

namespace SciForge.Corpus

def tier1Atoms (alphabet : PyStr) : List PyStr :=
  alphabet.map (fun letter => [letter]) ++
    [py ".", py "[" ++ alphabet ++ py "]", py "[^" ++ alphabet ++ py "]"]

def quants : List PyStr := [py "*", py "+", py "?"]

def anchors : List PyStr := [py "^", py "$"]

def maxBranches : ℕ := 3

def maxSeq : ℕ := 4

mutual

/-- Leaf atoms, and with a budget of two or more the parenthesised groups. -/
def atoms (budget : ℤ) (alphabet : PyStr) (emptyBranches : Bool) : List (PyStr × ℕ) :=
  if budget < 1 then []
  else
    (tier1Atoms alphabet).map (fun atom => (atom, 1)) ++
      if 2 ≤ budget then
        (alts (budget - 1) alphabet maxBranches emptyBranches).map
          (fun (inner, size) => (py "(" ++ inner ++ py ")", size + 1))
      else []
termination_by (budget.toNat, 0, 0)
decreasing_by
  apply Prod.Lex.left
  omega

def elements (budget : ℤ) (alphabet : PyStr) (emptyBranches : Bool) : List (PyStr × ℕ) :=
  if budget < 1 then []
  else
    anchors.map (fun anchor => (anchor, 1)) ++
      (atoms budget alphabet emptyBranches).flatMap (fun (atom, size) =>
        (atom, size) ::
          if (size : ℤ) + 1 ≤ budget then quants.map (fun quant => (atom ++ quant, size + 1)) else [])
termination_by (budget.toNat, 1, 0)
decreasing_by
  apply Prod.Lex.right
  apply Prod.Lex.left
  omega

def seqs (budget : ℤ) (alphabet : PyStr) (depth : ℕ) (emptyBranches : Bool) : List (PyStr × ℕ) :=
  (elements budget alphabet emptyBranches).flatMap (fun (element, size) =>
    (element, size) ::
      if 1 < depth then
        (seqs (budget - size) alphabet (depth - 1) emptyBranches).map
          (fun (rest, restSize) => (element ++ rest, size + restSize))
      else [])
termination_by (budget.toNat, 2, depth)
decreasing_by
  · rcases Nat.lt_or_ge (budget - size).toNat budget.toNat with h | h
    · exact Prod.Lex.left _ _ h
    · rw [show (budget - size).toNat = budget.toNat by omega]
      apply Prod.Lex.right
      apply Prod.Lex.right
      omega
  · apply Prod.Lex.right
    apply Prod.Lex.left
    omega

def alts (budget : ℤ) (alphabet : PyStr) (branches : ℕ) (emptyBranches : Bool) : List (PyStr × ℕ) :=
  (seqs budget alphabet maxSeq emptyBranches).flatMap (fun (sequence, size) =>
    (sequence, size) ::
      if 1 < branches ∧ (size : ℤ) + 1 ≤ budget then
        (alts (budget - size - 1) alphabet (branches - 1) emptyBranches).map
          (fun (rest, restSize) => (sequence ++ py "|" ++ rest, size + 1 + restSize)) ++
          if emptyBranches then [(sequence ++ py "|", size + 1)] else []
      else []) ++
    if emptyBranches ∧ 1 < branches ∧ 1 ≤ budget then
      (alts (budget - 1) alphabet (branches - 1) emptyBranches).map
        (fun (rest, restSize) => (py "|" ++ rest, 1 + restSize))
    else []
termination_by (budget.toNat, 3, branches)
decreasing_by
  · apply Prod.Lex.left
    omega
  · apply Prod.Lex.right
    apply Prod.Lex.left
    omega
  · apply Prod.Lex.left
    omega

end

/-- The sorted, de-duplicated patterns of at most `k` constructs. -/
def enumeratePatterns (k : ℤ) (alphabet : PyStr) (tier : ℕ) : List PyStr :=
  let seen : Finset PyStr :=
    ((alts k alphabet maxBranches (decide (2 ≤ tier))).map (fun (pattern, _size) => pattern)).toFinset
  seen.sort (· ≤ ·)

/-- `itertools.product(alphabet, repeat=length)`, each tuple joined. -/
def product (alphabet : PyStr) : ℕ → List PyStr
  | 0 => [[]]
  | length + 1 => (product alphabet length).flatMap (fun combo => alphabet.map (fun letter => combo ++ [letter]))

/-- The list before the loop over `extra`. -/
def baseInputs (n : ℕ) (alphabet : PyStr) : List PyStr :=
  [] :: (List.range' 1 n).flatMap (product alphabet)

/-- The sort key `(len(s), s)`. -/
def inputKey (s : PyStr) : ℕ ×ₗ PyStr := toLex (s.length, s)

/-- Every string of length at most `n`, and each with `extra` appended, sorted by `inputKey`. -/
def enumerateInputs (n : ℕ) (alphabet extra : PyStr) : List PyStr :=
  let base := baseInputs n alphabet
  let inputs := if extra ≠ [] then base ++ base.map (fun text => text ++ extra) else base
  inputs.dedup.insertionSort (fun s t => inputKey s ≤ inputKey t)

def countInputs (n : ℕ) (alphabet extra : PyStr) : ℕ :=
  let a := alphabet.length
  let base := if 1 < a then (a ^ (n + 1) - 1) / (a - 1) else n + 1
  if extra = [] then base else base * 2

end SciForge.Corpus
