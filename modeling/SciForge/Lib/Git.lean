import Mathlib.Logic.Function.Basic
import Mathlib.Tactic.SplitIfs

/-!
# A git repository's files

HEAD, the index and the work tree, what `git status --porcelain` lists of them, and the commands that move files
between them. Contents are opaque; a listed path comes with how it changed, not with what it holds.
-/

namespace SciForge.Git

/-- A tree of files by path. -/
abbrev Tree (P B : Type) := P → Option B

/-- The commit at HEAD, the index, the work tree, and the ignore rules: the paths they match, by the work tree they
are read from. -/
structure Repo (P B C : Type) where
  head : C
  index : Tree P B
  work : Tree P B
  ignore : Tree P B → P → Bool

inductive Change
  | unchanged
  | added
  | modified
  | deleted
deriving DecidableEq

/-- A line of the listing: a tracked file with its change in the index and in the work tree, or `??`. -/
inductive Code
  | tracked (staged unstaged : Change)
  | untracked
deriving DecidableEq

variable {P B C : Type}

namespace Repo

def ignored (r : Repo P B C) (path : P) : Bool := r.ignore r.work path

/-- Tracked, or untracked and not ignored. -/
def visible (r : Repo P B C) (path : P) : Bool := (r.index path).isSome || !r.ignored path

/-- The content of a tracked or an untracked non-ignored file. -/
def content (r : Repo P B C) (path : P) : Option B := if r.visible path then r.work path else none

/-! ### Commands -/

/-- `git checkout -- .`, as far as it gets. -/
def checkout (r : Repo P B C) (scope : P → Bool) : Repo P B C :=
  { r with work := fun path => if scope path && (r.index path).isSome then r.index path else r.work path }

/-- `git clean -fd` on the paths in `scope`, by the rules it finds. -/
def clean (r : Repo P B C) (scope : P → Bool) : Repo P B C :=
  { r with work := fun path =>
      if (r.index path).isNone && !r.ignored path && scope path then none else r.work path }

/-- `git add -A` on the paths in `scope`. -/
def add (r : Repo P B C) (scope : P → Bool) : Repo P B C :=
  { r with index := fun path => if scope path && r.visible path then r.work path else r.index path }

def write [DecidableEq P] (r : Repo P B C) (path : P) (text : Option B) : Repo P B C :=
  { r with work := Function.update r.work path text }

/-- The work tree with the tracked files as the index has them. -/
def overlaid (r : Repo P B C) : Tree P B := fun path => (r.index path).or (r.work path)

lemma work_checkout {r : Repo P B C} {scope : P → Bool}
    (h : ∀ path, (r.index path).isSome = true → r.work path ≠ r.index path → scope path = true) :
    (r.checkout scope).work = r.overlaid := by
  funext path
  unfold checkout overlaid
  dsimp only
  cases hentry : r.index path with
  | none => rw [Option.isSome_none, Bool.and_false, if_neg Bool.false_ne_true, Option.none_or]
  | some b =>
    rw [Option.isSome_some, Bool.and_true, Option.some_or]
    split
    · rfl
    · next hscope =>
      by_contra hdiffers
      exact hscope (h path (by rw [hentry]; rfl) (by rwa [hentry]))

end Repo

/-! ### The listing -/

variable [DecidableEq B]

def change : Option B → Option B → Change
  | none, none => .unchanged
  | none, some _ => .added
  | some _, none => .deleted
  | some old, some new => if old = new then .unchanged else .modified

lemma change_eq_unchanged {old new : Option B} : change old new = .unchanged ↔ old = new := by
  cases old <;> cases new <;> simp [change]

namespace Repo

/-- The change of a tracked file in the work tree; a path that is not in the index has none. -/
def unstaged (r : Repo P B C) (path : P) : Change :=
  if (r.index path).isSome then change (r.index path) (r.work path) else .unchanged

/-- The lines `git status --porcelain` has for a path. -/
def status (tree : C → Tree P B) (r : Repo P B C) (path : P) : List Code :=
  (if change (tree r.head path) (r.index path) = .unchanged ∧ r.unstaged path = .unchanged then []
    else [.tracked (change (tree r.head path) (r.index path)) (r.unstaged path)]) ++
  (if (r.index path).isNone ∧ (r.work path).isSome ∧ r.ignored path = false then [.untracked] else [])

/-- Nothing is listed. -/
def Clean (tree : C → Tree P B) (r : Repo P B C) : Prop := ∀ path, r.status tree path = []

variable {tree : C → Tree P B} {r : Repo P B C} {path : P}

lemma unstaged_eq_unchanged :
    r.unstaged path = .unchanged ↔ ((r.index path).isSome → r.index path = r.work path) := by
  unfold unstaged
  split_ifs with h
  · simp [change_eq_unchanged, h]
  · simp [h]

lemma status_eq_nil :
    r.status tree path = [] ↔ tree r.head path = r.index path ∧ ((r.index path).isSome → r.index path = r.work path) ∧
      ¬((r.index path).isNone ∧ (r.work path).isSome ∧ r.ignored path = false) := by
  rw [← change_eq_unchanged, ← unstaged_eq_unchanged, ← and_assoc]
  unfold status
  split_ifs with hsame huntracked huntracked
  · exact iff_of_false (List.cons_ne_nil _ _) (fun h => h.2 huntracked)
  · exact iff_of_true rfl ⟨hsame, huntracked⟩
  · exact iff_of_false (List.cons_ne_nil _ _) (fun h => hsame h.1)
  · exact iff_of_false (List.cons_ne_nil _ _) (fun h => hsame h.1)

/-- A path that is not listed holds what HEAD has of it. -/
lemma content_of_unlisted (h : r.status tree path = []) : r.content path = tree r.head path := by
  obtain ⟨hindex, htracked, huntracked⟩ := status_eq_nil.mp h
  rw [hindex]
  unfold content visible
  cases hentry : r.index path with
  | none =>
    cases hignored : r.ignored path with
    | false => simpa [hentry, hignored] using huntracked
    | true => simp
  | some b => simpa [hentry, eq_comm] using htracked

/-- Tracked files are as the index has them, and no untracked file is not ignored. -/
structure Settled (r : Repo P B C) : Prop where
  tracked : ∀ path, (r.index path).isSome → r.work path = r.index path
  untracked : ∀ path, r.index path = none → r.ignored path = false → r.work path = none

omit [DecidableEq B] in
lemma settled_iff : r.Settled ↔ ∀ path, r.content path = r.index path := by
  constructor
  · intro h path
    unfold content visible
    cases hentry : r.index path with
    | some b => simp [h.tracked path, hentry]
    | none =>
      cases hignored : r.ignored path with
      | true => simp
      | false => simp [h.untracked path hentry hignored]
  · intro h
    constructor
    · intro path hpath
      rw [← h path, content, visible, hpath, Bool.true_or, if_pos rfl]
    · intro path hpath hignored
      have hcontent := h path
      rwa [content, visible, hpath, hignored, Option.isSome_none, Bool.false_or, Bool.not_false, if_pos rfl] at hcontent

lemma Clean.settled (h : r.Clean tree) : r.Settled := by
  constructor
  · intro path hpath
    exact ((status_eq_nil.mp (h path)).2.1 hpath).symm
  · intro path hpath hignored
    have huntracked := (status_eq_nil.mp (h path)).2.2
    simpa [hpath, hignored] using huntracked

/-- With HEAD and the listing the same, only a listed file can hold something else. -/
lemma listed_of_content_ne {r' : Repo P B C} (hhead : r'.head = r.head)
    (hstatus : r'.status tree path = r.status tree path) (h : r'.content path ≠ r.content path) :
    r.status tree path ≠ [] := by
  intro hnil
  rw [content_of_unlisted hnil, content_of_unlisted (hstatus.trans hnil), hhead] at h
  exact h rfl

end Repo

end SciForge.Git
