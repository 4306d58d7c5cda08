import SciForge.Corpus.Exhaustive

/-!
# The pattern grammar

The strings each tier stands for, with the cost of a derivation in constructs, stated without the
generators: a branch and a sequence are counted, never budgeted.
-/

namespace SciForge.Corpus

mutual

/-- `Atom alphabet emptyBranches s c`: `s` is an atom of cost `c`. -/
inductive Atom (alphabet : PyStr) (emptyBranches : Bool) : PyStr → ℕ → Prop
  | letter {x} : x ∈ alphabet → Atom alphabet emptyBranches [x] 1
  | dot : Atom alphabet emptyBranches (py ".") 1
  | oneOf : Atom alphabet emptyBranches (py "[" ++ alphabet ++ py "]") 1
  | noneOf : Atom alphabet emptyBranches (py "[^" ++ alphabet ++ py "]") 1
  | group {n s c} : Branches alphabet emptyBranches n true s c → n ≤ 3 →
      Atom alphabet emptyBranches (py "(" ++ s ++ py ")") (c + 1)

inductive Element (alphabet : PyStr) (emptyBranches : Bool) : PyStr → ℕ → Prop
  | caret : Element alphabet emptyBranches (py "^") 1
  | dollar : Element alphabet emptyBranches (py "$") 1
  | atom {s c} : Atom alphabet emptyBranches s c → Element alphabet emptyBranches s c
  | star {s c} : Atom alphabet emptyBranches s c → Element alphabet emptyBranches (s ++ py "*") (c + 1)
  | plus {s c} : Atom alphabet emptyBranches s c → Element alphabet emptyBranches (s ++ py "+") (c + 1)
  | opt {s c} : Atom alphabet emptyBranches s c → Element alphabet emptyBranches (s ++ py "?") (c + 1)

/-- `Sequence … n s c`: `s` is `n ≥ 1` elements in a row. -/
inductive Sequence (alphabet : PyStr) (emptyBranches : Bool) : ℕ → PyStr → ℕ → Prop
  | one {s c} : Element alphabet emptyBranches s c → Sequence alphabet emptyBranches 1 s c
  | cons {n s c t d} : Element alphabet emptyBranches s c →
      Sequence alphabet emptyBranches n t d →
      Sequence alphabet emptyBranches (n + 1) (s ++ t) (c + d)

/-- One branch, with whether it is non-empty. An empty branch costs nothing and exists in tier 2. -/
inductive Branch (alphabet : PyStr) (emptyBranches : Bool) : Bool → PyStr → ℕ → Prop
  | seq {n s c} : Sequence alphabet emptyBranches n s c → n ≤ 4 →
      Branch alphabet emptyBranches true s c
  | empty : emptyBranches = true → Branch alphabet emptyBranches false [] 0

/-- `Branches … n some s c`: `s` is `n ≥ 1` branches joined by `|`; `some` says one is non-empty. -/
inductive Branches (alphabet : PyStr) (emptyBranches : Bool) : ℕ → Bool → PyStr → ℕ → Prop
  | one {b s c} : Branch alphabet emptyBranches b s c → Branches alphabet emptyBranches 1 b s c
  | cons {b s c n e t d} : Branch alphabet emptyBranches b s c →
      Branches alphabet emptyBranches n e t d →
      Branches alphabet emptyBranches (n + 1) (b || e) (s ++ py "|" ++ t) (c + 1 + d)

end

/-- The strings of cost at most `k`: one to three branches, at least one of them non-empty. -/
def Derivable (alphabet : PyStr) (emptyBranches : Bool) (k : ℤ) (s : PyStr) : Prop :=
  ∃ n c, n ≤ 3 ∧ Branches alphabet emptyBranches n true s c ∧ (c : ℤ) ≤ k

section

variable {alphabet : PyStr} {emptyBranches : Bool}

/-! ### Every derivation costs something -/

lemma Atom.cost_pos {s c} (h : Atom alphabet emptyBranches s c) : 1 ≤ c := by
  cases h <;> omega

lemma Element.cost_pos {s c} (h : Element alphabet emptyBranches s c) : 1 ≤ c := by
  cases h with
  | atom ha => exact ha.cost_pos
  | _ => omega

lemma Sequence.cost_pos {n s c} (h : Sequence alphabet emptyBranches n s c) : 1 ≤ c := by
  cases h with
  | one he => exact he.cost_pos
  | cons he _ =>
    have := he.cost_pos
    omega

lemma Sequence.length_pos {n s c} (h : Sequence alphabet emptyBranches n s c) : 1 ≤ n := by
  cases h <;> omega

lemma Branches.length_pos {n b s c} (h : Branches alphabet emptyBranches n b s c) : 1 ≤ n := by
  cases h <;> omega

lemma Branches.cost_pos {n b s c} (h : Branches alphabet emptyBranches n b s c) :
    b = true → 1 ≤ c := by
  intro hb
  cases h with
  | one hbr =>
    cases hbr with
    | seq hs _ => exact hs.cost_pos
    | empty _ => cases hb
  | cons _ _ => omega

lemma Branches.all_empty {n b s c} (h : Branches alphabet emptyBranches n b s c) (hb : b = false) :
    s = List.replicate (n - 1) (ord '|') ∧ c = n - 1 := by
  induction n generalizing b s c with
  | zero => exact absurd h.length_pos (by omega)
  | succ n ih =>
    cases h with
    | one hbr =>
      cases hbr with
      | seq _ _ => cases hb
      | empty _ => simp
    | cons hbr hrest =>
      obtain ⟨hb1, hb2⟩ := Bool.or_eq_false_iff.mp hb
      cases hbr with
      | seq _ _ => cases hb1
      | empty _ =>
        obtain ⟨hs, hc⟩ := ih hrest hb2
        have hn := hrest.length_pos
        refine ⟨?_, by omega⟩
        rw [hs, show n + 1 - 1 = (n - 1) + 1 by omega, List.replicate_succ]
        rfl

lemma Branches.nonempty {n b s c} (h : Branches alphabet false n b s c) : b = true := by
  induction n generalizing b s c with
  | zero => exact absurd h.length_pos (by omega)
  | succ n ih =>
    cases h with
    | one hbr =>
      cases hbr with
      | seq _ _ => rfl
      | empty he => cases he
    | cons hbr hrest =>
      rw [ih hrest, Bool.or_true]

end

end SciForge.Corpus
