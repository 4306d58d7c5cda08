import SciForge.Tools.Release
import SciForge.Lib.Glob
import SciForge.Lib.Machine

/-!
# The CI gate of a release

Which commits `release.sh` tags: those whose workflows succeeded on them, or, where a workflow skips paths, on the newest
commit before them that it ran on, when only such paths changed since.
-/

namespace SciForge.Tools.Release

abbrev Path := List Char

/-! ### The state of a workflow -/

/-- A run as `gh run list` gives it, the newest first. -/
structure CiRun where
  status : String
  conclusion : String

def notRun : String := "not run"

def success : String := "success"

/-- The state of the newest run. -/
def ciState : List CiRun → String
  | [] => notRun
  | run :: _ => if run.status ≠ "completed" then run.status else run.conclusion

/-- What changed between two commits. A rename is listed under its new name. -/
inductive Change
  | path (p : Path)
  | renamed (old new : Path)

/-- `git diff --name-only`. -/
def Change.name : Change → Path
  | .path p => p
  | .renamed _ new => new

def Change.touches : Change → Path → Prop
  | .path p, q => q = p
  | .renamed old new, q => q = old ∨ q = new

/-- `read -r -a patterns <<< "$ignored"`: the words of the first line. -/
def ignoredPatterns (ignored : List Char) : List Glob.Pattern :=
  (((ignored.takeWhile (· ≠ '\n')).splitOnP (fun c => c = ' ' || c = '\t')).filter (· ≠ [])).map Glob.read

def onlyIgnored (patterns : List Glob.Pattern) (changes : List Change) : Bool :=
  changes.all (fun change => patterns.any (Glob.accepts · change.name))

variable {C : Type}

/-- What the script asks: the runs of a workflow on a commit, none when `gh` fails; the first parents of HEAD, newest
first; what changed from a commit to HEAD. -/
structure Ci (C : Type) where
  runs : String → C → Option (List CiRun)
  head : C
  older : List C
  diff : C → List Change

namespace Ci

variable (ci : Ci C)

def state (workflow : String) (c : C) : Option String := (ci.runs workflow c).map ciState

/-- The loop over the earlier commits; it ends at the first one the workflow ran on. -/
def earlierState (ignored : List Char) (workflow : String) : List C → Option String
  | [] => some notRun
  | c :: rest =>
    match ci.state workflow c with
    | none => none
    | some earlier =>
      if earlier = notRun then earlierState ignored workflow rest
      else some (if onlyIgnored (ignoredPatterns ignored) (ci.diff c) then earlier else notRun)

/-- The state that decides, none when `gh` fails. -/
def decisive (ignored : List Char) (workflow : String) : Option String :=
  match ci.state workflow ci.head with
  | none => none
  | some state =>
    if state = notRun ∧ ignored ≠ [] then ci.earlierState ignored workflow (ci.older.take 100) else some state

/-- The workflow lets the release through. -/
def green (ignored : List Char) (workflow : String) : Bool := ci.decisive ignored workflow = some success

/-! ### When the gate opens -/

/-- Only ignored paths are listed between the commit and HEAD. -/
def Skipped (ignored : List Char) (c : C) : Prop :=
  ∀ change ∈ ci.diff c, ∃ p ∈ ignoredPatterns ignored, Glob.Matches p change.name

lemma onlyIgnored_iff (ignored : List Char) (c : C) :
    onlyIgnored (ignoredPatterns ignored) (ci.diff c) = true ↔ ci.Skipped ignored c := by
  unfold onlyIgnored Skipped
  simp only [List.all_eq_true, List.any_eq_true, Glob.accepts_iff]

lemma success_ne_notRun : success ≠ notRun := by decide

/-- The newest of the commits that the workflow ran on, or that `gh` could not read. -/
def Newest (workflow : String) (commits : List C) (c : C) : Prop :=
  ∃ newer rest, commits = newer ++ c :: rest ∧ (∀ d ∈ newer, ci.state workflow d = some notRun) ∧
    ci.state workflow c ≠ some notRun

lemma newest_cons (workflow : String) (first : C) (commits : List C) (c : C) :
    ci.Newest workflow (first :: commits) c ↔ (c = first ∧ ci.state workflow first ≠ some notRun) ∨
      (ci.state workflow first = some notRun ∧ ci.Newest workflow commits c) := by
  constructor
  · rintro ⟨newer, rest, h, hnewer, hc⟩
    cases newer with
    | nil =>
      obtain ⟨rfl, rfl⟩ := List.cons.inj h
      exact .inl ⟨rfl, hc⟩
    | cons d newer =>
      obtain ⟨rfl, rfl⟩ := List.cons.inj h
      exact .inr ⟨hnewer first List.mem_cons_self, newer, rest, rfl,
        fun e he => hnewer e (List.mem_cons_of_mem _ he), hc⟩
  · rintro (⟨rfl, hc⟩ | ⟨hfirst, newer, rest, rfl, hnewer, hc⟩)
    · exact ⟨[], commits, rfl, fun _ hd => absurd hd List.not_mem_nil, hc⟩
    · exact ⟨first :: newer, rest, rfl, List.forall_mem_cons.mpr ⟨hfirst, hnewer⟩, hc⟩

lemma earlierState_iff (ignored : List Char) (workflow : String) (commits : List C) :
    ci.earlierState ignored workflow commits = some success ↔ ∃ c, ci.Newest workflow commits c ∧
      ci.state workflow c = some success ∧ ci.Skipped ignored c := by
  induction commits with
  | nil =>
    constructor
    · intro h
      exact absurd (Option.some.inj h).symm success_ne_notRun
    · rintro ⟨c, ⟨newer, rest, h, -⟩, -⟩
      cases newer <;> cases h
  | cons first commits ih =>
    simp only [newest_cons, earlierState]
    cases hstate : ci.state workflow first with
    | none => simp [hstate]
    | some earlier =>
      dsimp only
      by_cases hrun : earlier = notRun
      · subst hrun
        rw [if_pos rfl, ih]
        simp
      · have hskipped := ci.onlyIgnored_iff ignored first
        rw [if_neg hrun]
        cases honly : onlyIgnored (ignoredPatterns ignored) (ci.diff first) with
        | true => simp [hrun, hstate, hskipped.mp honly]
        | false =>
          have hnot : ¬ci.Skipped ignored first := fun h => Bool.false_ne_true (honly.symm.trans (hskipped.mpr h))
          simp [hrun, hnot, success_ne_notRun.symm]

/-- A workflow lets through exactly a HEAD it succeeded on, or one it did not run on when the newest of the hundred
commits before it that it ran on is one it succeeded on and only ignored paths are listed as changed since. -/
theorem green_iff (ignored : List Char) (workflow : String) :
    ci.green ignored workflow = true ↔ ci.state workflow ci.head = some success ∨
      (ci.state workflow ci.head = some notRun ∧ ignored ≠ [] ∧ ∃ c, ci.Newest workflow (ci.older.take 100) c ∧
        ci.state workflow c = some success ∧ ci.Skipped ignored c) := by
  unfold green decisive
  rw [decide_eq_true_iff, ← earlierState_iff]
  cases hstate : ci.state workflow ci.head with
  | none => simp
  | some state =>
    dsimp only
    by_cases hrun : state = notRun
    · subst hrun
      by_cases hignored : ignored = []
      · rw [if_neg (fun h => h.2 hignored)]
        simp [hignored]
      · rw [if_pos ⟨rfl, hignored⟩]
        simp [hignored, success_ne_notRun.symm]
    · rw [if_neg (fun h => hrun h.1)]
      simp [hrun]

/-! ### What is tagged -/

/-- The diff touches every path whose content changed. -/
def Complete {B : Type} (tree : C → Git.Tree Path B) : Prop :=
  ∀ c path, tree c path ≠ tree ci.head path → ∃ change ∈ ci.diff c, change.touches path

/-- A HEAD that gets through holds, for each workflow, what a commit the workflow succeeded on held, but for ignored
paths, and for paths renamed to ignored ones. -/
theorem released_tree {B : Type} {tree : C → Git.Tree Path B} (hdiff : ci.Complete tree) (ignored : List Char)
    {workflows : List String} (hgreen : workflows.all (ci.green ignored) = true) :
    ∀ workflow ∈ workflows, ∃ c, (c = ci.head ∨ c ∈ ci.older.take 100) ∧ ci.state workflow c = some success ∧
      ∀ path, tree c path ≠ tree ci.head path →
        (∃ p ∈ ignoredPatterns ignored, Glob.Matches p path) ∨
        ∃ new, .renamed path new ∈ ci.diff c ∧ ∃ p ∈ ignoredPatterns ignored, Glob.Matches p new := by
  intro workflow hworkflow
  rcases (ci.green_iff ignored workflow).mp (List.all_eq_true.mp hgreen workflow hworkflow) with
    hhead | ⟨-, -, c, ⟨newer, rest, holder, -⟩, hc, hskipped⟩
  · exact ⟨ci.head, .inl rfl, hhead, fun path hpath => absurd rfl hpath⟩
  · have hmem : c ∈ ci.older.take 100 := by
      rw [holder]
      exact List.mem_append_right _ List.mem_cons_self
    refine ⟨c, .inr hmem, hc, fun path hpath => ?_⟩
    obtain ⟨change, hchange, htouches⟩ := hdiff c path hpath
    have hname := hskipped change hchange
    cases change with
    | path p =>
      obtain rfl : path = p := htouches
      exact .inl hname
    | renamed old new =>
      rcases htouches with rfl | rfl
      · exact .inr ⟨new, hchange, hname⟩
      · exact .inl hname

lemma ignoredPatterns_docs : ignoredPatterns "*.md docs/*".toList =
    [.star :: Glob.literal ".md".toList, Glob.literal "docs/".toList ++ [.star]] := by decide

lemma skipped_docs (c : C) : ci.Skipped "*.md docs/*".toList c ↔
    ∀ change ∈ ci.diff c, ".md".toList <:+ change.name ∨ "docs/".toList <+: change.name := by
  unfold Skipped
  simp only [ignoredPatterns_docs, List.mem_cons, List.not_mem_nil, or_false, exists_eq_or_imp, exists_eq_left,
    Glob.matches_ending, Glob.matches_start]

/-- A workflow that ran on commit 1 and not on HEAD, a change of the README later. -/
def docsCi : Ci ℕ where
  runs _ c := some (if c = 1 then [⟨"completed", "success"⟩] else [])
  head := 2
  older := [1]
  diff _ := [.path "README.md".toList]

def docsTree : ℕ → Git.Tree Path ℕ := fun c path => if path = "README.md".toList then some c else some 0

theorem released_tree_docs : ∃ c, (c = docsCi.head ∨ c ∈ docsCi.older.take 100) ∧
    docsCi.state "ci.yml" c = some success ∧ ∀ path, docsTree c path ≠ docsTree docsCi.head path →
      (∃ p ∈ ignoredPatterns "*.md docs/*".toList, Glob.Matches p path) ∨
      ∃ new, .renamed path new ∈ docsCi.diff c ∧ ∃ p ∈ ignoredPatterns "*.md docs/*".toList, Glob.Matches p new := by
  have hdiff : docsCi.Complete docsTree := by
    intro c path hne
    refine ⟨.path "README.md".toList, List.mem_cons_self, ?_⟩
    by_contra hpath
    exact hne ((if_neg hpath).trans (if_neg hpath).symm)
  have hgreen : ["ci.yml"].all (docsCi.green "*.md docs/*".toList) = true := by
    rw [List.all_cons, List.all_nil, Bool.and_true]
    refine (docsCi.green_iff _ _).mpr (.inr ⟨rfl, List.cons_ne_nil _ _, 1, ⟨[], [], rfl, ?_, by decide⟩, rfl, ?_⟩)
    · exact fun _ hd => absurd hd List.not_mem_nil
    · refine (docsCi.skipped_docs 1).mpr fun change hchange => .inl ?_
      rw [List.mem_singleton.mp hchange]
      decide
  exact docsCi.released_tree hdiff _ hgreen "ci.yml" List.mem_cons_self

end Ci

/-- The commands of the script that ask about the workflows pass them all exactly when each lets it through. -/
lemma workflows_run {B C : Type} [DecidableEq C] (cfg : Settings) (objects : Objects B C) (green : String → Bool)
    (o : Outcome B) {workflows : List String} {s : Script B C} (hat : s.pc = .workflows workflows) :
    (∃ s', Machine.run (Script.step cfg objects) s
      (workflows.map fun workflow => .command { o with ok := green workflow }) = some s' ∧ s'.pc = .workflows []) ↔
        workflows.all green = true := by
  induction workflows generalizing s with
  | nil => exact iff_of_true ⟨s, rfl, hat⟩ rfl
  | cons workflow rest ih =>
    have hstep : s.step cfg objects (.command { o with ok := green workflow }) =
        some (s.guard (green workflow) (.workflows rest)) := by
      unfold Script.step Script.command
      simp only [hat]
    rw [List.map_cons, Machine.run_cons hstep, List.all_cons]
    cases hgreen : green workflow with
    | true =>
      rw [Bool.true_and]
      exact ih rfl
    | false =>
      rw [Bool.false_and]
      refine iff_of_false ?_ Bool.false_ne_true
      rintro ⟨s', hrun, hpc⟩
      cases rest with
      | nil =>
        obtain rfl := Option.some.inj hrun
        cases hpc
      | cons second rest =>
        rw [List.map_cons] at hrun
        obtain ⟨s₁, hexit, hrun⟩ := Option.bind_eq_some_iff.mp hrun
        obtain rfl := Option.some.inj hexit
        cases rest with
        | nil =>
          obtain rfl := Option.some.inj hrun
          cases hpc
        | cons third rest => cases hrun

end SciForge.Tools.Release
