import SciForge.Tools.GateLock
import SciForge.Lib.Git
import Mathlib.Data.Fintype.Basic

/-!
# The verdict and the tree

What a gate's exit code says of the tree between its two snapshots, `git rev-parse HEAD` with `git status
--porcelain`, over all interleavings with commits and edits.
-/

namespace SciForge.Tools

variable {P S R T : Type}

/-! ### What a gate saw -/

/-- The tree at the first and at the last snapshot of a gate, and the steps it ran with their results. -/
structure Record (S R : Type) where
  first : Option R
  last : Option R
  ran : List (S × Bool)

/-- Nothing yet. -/
def Record.empty : Record S R := ⟨none, none, []⟩

/-- All the steps ran, in order, and succeeded. -/
def Record.Passed (rec : Record S R) (steps : List S) : Prop := rec.ran = steps.map (·, true)

namespace Yard

/-- What an event adds to the record of `p`. -/
def note [DecidableEq P] (y : Yard P S R T) (p : P) (e : Event P R) (rec : Record S R) : Record S R :=
  match e with
  | .advance q green =>
    if q = p then
      match y.pc p with
      | .snapshotBefore => { rec with first := some y.repo }
      | .inStep _ (step :: _) => { rec with ran := rec.ran ++ [(step, green)] }
      | .snapshotAfter _ _ => { rec with last := some y.repo }
      | _ => rec
    else rec
  | _ => rec

variable [DecidableEq P] [DecidableEq T] {steps : P → List S} {snapshot : R → T}

/-- A step of the yard, with the record of `p`. -/
def watched (steps : P → List S) (snapshot : R → T) (p : P) (w : Yard P S R T × Record S R) (e : Event P R) :
    Option (Yard P S R T × Record S R) :=
  (w.1.step steps snapshot e).map (fun y' => (y', w.1.note p e w.2))

/-! ### Program counters -/

/-- Where a command takes its gate. -/
def Next (steps : P → List S) (snapshot : R → T) (y : Yard P S R T) (p : P) (green : Bool) (next : Pc P S T) : Prop :=
  match y.pc p with
  | .start => next = .writePid ∨ next = .readHolder
  | .readHolder => ∃ holder, next = .testHolder holder
  | .testHolder _ => next = .exited 1 ∨ next = .removeStale
  | .removeStale => next = .mkdirAgain
  | .mkdirAgain => next = .writePid ∨ next = .exited 1
  | .writePid => next = .setTrap
  | .setTrap => next = .snapshotBefore
  | .snapshotBefore => next = .betweenSteps (snapshot y.repo) (steps p)
  | .betweenSteps before [] => next = .snapshotAfter before 0
  | .betweenSteps before (step :: rest) => next = .inStep before (step :: rest)
  | .inStep before rest => next = if green then .betweenSteps before rest.tail else .snapshotAfter before 1
  | .snapshotAfter before status => next = .exitTrap (if snapshot y.repo ≠ before ∨ status ≠ 0 then 1 else 0)
  | .exitTrap code => next = .exited code
  | .exited _ | .killed => False

omit [DecidableEq T] in
lemma pc_mkdir (y : Yard P S R T) (p : P) (made taken : Pc P S T) :
    ∃ next, (y.mkdir p made taken).pc = Function.update y.pc p next ∧ (next = made ∨ next = taken) := by
  unfold mkdir
  split
  · exact ⟨made, pc_setPc _ p made, .inl rfl⟩
  · exact ⟨taken, pc_setPc y p taken, .inr rfl⟩

lemma pc_advance {y y' : Yard P S R T} {p : P} {green : Bool} (h : y.advance steps snapshot p green = some y') :
    ∃ next, y'.pc = Function.update y.pc p next ∧ y.Next steps snapshot p green next := by
  have hpc : y.pc p = (y.gate p).pc := rfl
  unfold Next
  rw [hpc]
  unfold advance at h
  cases hat : (y.gate p).pc with
  | start | mkdirAgain =>
    rw [hat] at h
    obtain rfl := Option.some.inj h
    exact pc_mkdir y p _ _
  | readHolder =>
    rw [hat] at h
    obtain rfl := Option.some.inj h
    exact ⟨_, pc_setPc y p _, _, rfl⟩
  | testHolder holder =>
    rw [hat] at h
    cases holder with
    | none =>
      obtain rfl := Option.some.inj h
      exact ⟨_, pc_setPc y p _, .inl rfl⟩
    | some q =>
      obtain rfl := Option.some.inj h
      refine ⟨_, pc_setPc y p _, ?_⟩
      by_cases hlive : (y.gate q).pc.live = true <;> simp [hlive]
  | removeStale | writePid | exitTrap code =>
    rw [hat] at h
    obtain rfl := Option.some.inj h
    exact ⟨_, pc_setPc _ p _, rfl⟩
  | setTrap | snapshotBefore | inStep before rest | snapshotAfter before status =>
    rw [hat] at h
    obtain rfl := Option.some.inj h
    exact ⟨_, pc_setPc y p _, rfl⟩
  | betweenSteps before rest =>
    rw [hat] at h
    cases rest with
    | nil =>
      obtain rfl := Option.some.inj h
      exact ⟨_, pc_setPc y p _, rfl⟩
    | cons step rest =>
      obtain rfl := Option.some.inj h
      exact ⟨_, pc_setPc y p _, rfl⟩
  | exited code | killed =>
    rw [hat] at h
    cases h

/-! ### The record along a run -/

/-- The gate took both snapshots, and its code is 0 when they agree and every step passed. -/
def Judged (snapshot : R → T) (mine : List S) (rec : Record S R) (code : ℕ) : Prop :=
  ∃ first last, rec.first = some first ∧ rec.last = some last ∧ (code = 0 ∨ code = 1) ∧
    (code = 0 ↔ snapshot last = snapshot first ∧ rec.Passed mine)

/-- In its steps: the first snapshot taken, the steps before `rest` done. -/
def Underway (snapshot : R → T) (mine : List S) (rec : Record S R) (before : T) (rest : List S) : Prop :=
  ∃ first done, rec = ⟨some first, none, done.map (·, true)⟩ ∧ snapshot first = before ∧ done ++ rest = mine

/-- What the record of a gate holds, by where it stands. -/
def Follows (snapshot : R → T) (mine : List S) (rec : Record S R) : Pc P S T → Prop
  | .betweenSteps before rest => Underway snapshot mine rec before rest
  | .inStep before rest => Underway snapshot mine rec before rest ∧ rest ≠ []
  | .snapshotAfter before status =>
    ∃ first, rec.first = some first ∧ snapshot first = before ∧ rec.last = none ∧ (status = 0 ↔ rec.Passed mine)
  | .exitTrap code => Judged snapshot mine rec code
  | .exited code => rec = .empty ∧ code = 1 ∨ Judged snapshot mine rec code
  | .killed => True
  | _ => rec = .empty

lemma follows_advance {y : Yard P S R T} {p : P} {green : Bool} {next : Pc P S T} {rec : Record S R}
    (h : Follows snapshot (steps p) rec (y.pc p)) (hnext : y.Next steps snapshot p green next) :
    Follows snapshot (steps p) (y.note p (.advance p green) rec) next := by
  unfold note
  dsimp only
  rw [if_pos rfl]
  unfold Next at hnext
  cases hat : y.pc p with
  | start =>
    rw [hat] at h hnext
    rcases hnext with rfl | rfl <;> exact h
  | readHolder =>
    rw [hat] at h hnext
    obtain ⟨holder, rfl⟩ := hnext
    exact h
  | testHolder holder =>
    rw [hat] at h hnext
    rcases hnext with rfl | rfl
    · exact .inl ⟨h, rfl⟩
    · exact h
  | removeStale | writePid | setTrap =>
    rw [hat] at h hnext
    obtain rfl := hnext
    exact h
  | mkdirAgain =>
    rw [hat] at h hnext
    rcases hnext with rfl | rfl
    · exact h
    · exact .inl ⟨h, rfl⟩
  | snapshotBefore =>
    rw [hat] at h hnext
    obtain rfl := hnext
    obtain rfl : rec = .empty := h
    exact ⟨y.repo, [], rfl, rfl, rfl⟩
  | betweenSteps before rest =>
    rw [hat] at h hnext
    cases rest with
    | nil =>
      obtain rfl := hnext
      obtain ⟨first, done, rfl, hfirst, hdone⟩ := h
      refine ⟨first, rfl, hfirst, rfl, iff_of_true rfl ?_⟩
      rw [List.append_nil] at hdone
      rw [← hdone]
      rfl
    | cons step rest =>
      obtain rfl := hnext
      exact ⟨h, List.cons_ne_nil _ _⟩
  | inStep before rest =>
    rw [hat] at h hnext
    obtain ⟨⟨first, done, rfl, hfirst, hdone⟩, hne⟩ := h
    cases rest with
    | nil => exact absurd rfl hne
    | cons step rest =>
      obtain rfl := hnext
      cases green with
      | true =>
        refine ⟨first, done ++ [step], ?_, hfirst, by simpa using hdone⟩
        simp
      | false =>
        refine ⟨first, rfl, hfirst, rfl, iff_of_false Nat.one_ne_zero ?_⟩
        intro hpassed
        have hmem : (step, false) ∈ (steps p).map (·, true) :=
          hpassed ▸ List.mem_append_right _ (List.mem_singleton_self _)
        simp at hmem
  | snapshotAfter before status =>
    rw [hat] at h hnext
    obtain rfl := hnext
    obtain ⟨first, hrec, rfl, hlast, hstatus⟩ := h
    refine ⟨first, y.repo, hrec, rfl, ?_, ?_⟩
    · split <;> simp
    · have hpassed : Record.Passed { rec with last := some y.repo } (steps p) ↔ status = 0 := hstatus.symm
      rw [hpassed]
      by_cases hsame : snapshot y.repo = snapshot first <;> by_cases hzero : status = 0 <;> simp [hsame, hzero]
  | exitTrap code =>
    rw [hat] at h hnext
    obtain rfl := hnext
    exact .inr h
  | exited code | killed =>
    rw [hat] at hnext
    cases hnext

lemma follows_step {p : P} {w w' : Yard P S R T × Record S R} {e : Event P R}
    (h : Follows snapshot (steps p) w.2 (w.1.pc p)) (hstep : watched steps snapshot p w e = some w') :
    Follows snapshot (steps p) w'.2 (w'.1.pc p) := by
  obtain ⟨y', hy', rfl⟩ := Option.map_eq_some_iff.mp hstep
  have hkilled : ∀ q, Follows snapshot (steps p) w.2 ((w.1.setPc q .killed).pc p) := by
    intro q
    rw [pc_setPc]
    by_cases hqp : p = q
    · rw [hqp, Function.update_self]
      trivial
    · rwa [Function.update_of_ne hqp]
  unfold step at hy'
  cases e with
  | advance q green =>
    dsimp only at hy'
    split at hy'
    · cases hy'
    obtain ⟨next, hpc, hnext⟩ := pc_advance hy'
    dsimp only
    rw [hpc]
    by_cases hqp : q = p
    · subst hqp
      rw [Function.update_self]
      exact follows_advance h hnext
    · rw [Function.update_of_ne (Ne.symm hqp), note]
      rwa [if_neg hqp]
  | trap q =>
    dsimp only at hy'
    split at hy'
    · obtain rfl := Option.some.inj hy'
      dsimp only
      rw [pc_setPending]
      exact h
    · cases hy'
  | signal q =>
    dsimp only at hy'
    split at hy'
    · cases hy'
    split at hy'
    · obtain rfl := Option.some.inj hy'
      dsimp only
      rw [pc_setPending]
      exact h
    · obtain rfl := Option.some.inj hy'
      exact hkilled q
  | kill q =>
    dsimp only at hy'
    split at hy'
    · obtain rfl := Option.some.inj hy'
      exact hkilled q
    · cases hy'
  | edit repo =>
    obtain rfl := Option.some.inj hy'
    exact h

lemma follows_run {p : P} {repo : R} {events : List (Event P R)} {y : Yard P S R T} {rec : Record S R}
    (hrun : Machine.run (watched steps snapshot p) (initial repo, .empty) events = some (y, rec)) :
    Follows snapshot (steps p) rec (y.pc p) := by
  have hstart : Follows snapshot (steps p) (.empty : Record S R) ((initial repo : Yard P S R T).pc p) := rfl
  exact Machine.run_invariant (C := fun _ _ => True)
    (I := fun w : Yard P S R T × Record S R => Follows snapshot (steps p) w.2 (w.1.pc p))
    (fun _ _ _ h _ hstep => follows_step h hstep) hstart (Machine.meets_of_forall (fun _ _ => trivial) events _) hrun

end Yard

/-! ### A still tree -/

section

variable {F B C : Type} [DecidableEq B]

/-- `git rev-parse HEAD` and `git status --porcelain`. -/
def snapshot (tree : C → Git.Tree F B) (r : Git.Repo F B C) : C × (F → List Git.Code) := (r.head, r.status tree)

omit [DecidableEq B] in
/-- HEAD, or the content of a tracked or an untracked non-ignored file, is not what it was. -/
def Differs (r r' : Git.Repo F B C) : Prop := r'.head ≠ r.head ∨ ∃ path, r'.content path ≠ r.content path

/-- HEAD and the listing are what they were, and a file that is listed holds something else. -/
def Masked (tree : C → Git.Tree F B) (r r' : Git.Repo F B C) : Prop :=
  r'.head = r.head ∧ (∀ path, r'.status tree path = r.status tree path) ∧
    ∃ path, r.status tree path ≠ [] ∧ r'.content path ≠ r.content path

lemma masked_iff {tree : C → Git.Tree F B} {r r' : Git.Repo F B C} :
    Masked tree r r' ↔ snapshot tree r' = snapshot tree r ∧ Differs r r' := by
  constructor
  · rintro ⟨hhead, hstatus, path, -, hpath⟩
    exact ⟨Prod.ext hhead (funext hstatus), .inr ⟨path, hpath⟩⟩
  · rintro ⟨hsame, hdiffers⟩
    have hhead : r'.head = r.head := congrArg Prod.fst hsame
    have hstatus : ∀ path, r'.status tree path = r.status tree path := congrFun (congrArg Prod.snd hsame)
    obtain ⟨path, hpath⟩ := hdiffers.resolve_left (fun h => h hhead)
    exact ⟨hhead, hstatus, path, Git.Repo.listed_of_content_ne hhead (hstatus path) hpath, hpath⟩

/-- A gate passes only on a still tree: it fails when the tree of its last snapshot differs from that of its
first, and passes only with every step run and green. -/
def Vouches (mine : List S) (rec : Record S (Git.Repo F B C)) (code : ℕ) : Prop :=
  (∀ first last, rec.first = some first → rec.last = some last → Differs first last → code = 1) ∧
    (code = 0 → rec.Passed mine)

/-- In every run of any gates, a gate that exits vouches for its tree exactly when its steps did not all pass
over a change the snapshots mask. -/
theorem still_tree_iff [DecidableEq P] [DecidableEq (C × (F → List Git.Code))] (tree : C → Git.Tree F B)
    (steps : P → List S) (repo : Git.Repo F B C) {p : P} {events : List (Event P (Git.Repo F B C))}
    {y : Yard P S (Git.Repo F B C) (C × (F → List Git.Code))} {rec : Record S (Git.Repo F B C)} {code : ℕ}
    (hrun : Machine.run (Yard.watched steps (snapshot tree) p) (Yard.initial repo, .empty) events = some (y, rec))
    (hexit : y.pc p = .exited code) :
    Vouches (steps p) rec code ↔ ¬(rec.Passed (steps p) ∧
      ∃ first last, rec.first = some first ∧ rec.last = some last ∧ Masked tree first last) := by
  have hfollows := Yard.follows_run hrun
  rw [hexit] at hfollows
  rcases hfollows with ⟨rfl, rfl⟩ | ⟨first, last, hfirst, hlast, hcode, hzero⟩
  · refine iff_of_true ⟨fun _ _ h _ _ => (nomatch h), fun h => (nomatch h)⟩ ?_
    rintro ⟨-, first, last, h, -⟩
    cases h
  constructor
  · rintro ⟨hmoved, -⟩ ⟨hpassed, first', last', hfirst', hlast', hmasked⟩
    obtain rfl : first = first' := Option.some.inj (hfirst.symm.trans hfirst')
    obtain rfl : last = last' := Option.some.inj (hlast.symm.trans hlast')
    obtain ⟨hsame, hdiffers⟩ := masked_iff.mp hmasked
    have hone := hmoved first last hfirst hlast hdiffers
    rw [hzero.mpr ⟨hsame, hpassed⟩] at hone
    cases hone
  · intro hclear
    refine ⟨fun first' last' hfirst' hlast' hdiffers => ?_, fun h => (hzero.mp h).2⟩
    obtain rfl : first = first' := Option.some.inj (hfirst.symm.trans hfirst')
    obtain rfl : last = last' := Option.some.inj (hlast.symm.trans hlast')
    refine hcode.resolve_left (fun h => hclear ?_)
    obtain ⟨hsame, hpassed⟩ := hzero.mp h
    exact ⟨hpassed, first, last, hfirst, hlast, masked_iff.mpr ⟨hsame, hdiffers⟩⟩

end

/-- One tracked file, committed as 0. -/
def oneFile (text : ℕ) : Git.Repo Unit ℕ ℕ := ⟨0, fun _ => some 0, fun _ => some text, fun _ _ => false⟩

def oneCommit (_ : ℕ) : Git.Tree Unit ℕ := fun _ => some 0

/-- A gate of one step alone in its yard, the tree becoming `during` while the step runs. -/
def editedRun (during : Git.Repo Unit ℕ ℕ) : List (Event Unit (Git.Repo Unit ℕ ℕ)) :=
  List.replicate 5 (.advance () true) ++ .edit during :: List.replicate 4 (.advance () true)

theorem still_tree_clean : ∃ y rec,
    Machine.run (Yard.watched (fun _ => ["lint"]) (snapshot oneCommit) ()) (Yard.initial (oneFile 0), .empty)
      (editedRun (oneFile 1)) = some (y, rec) ∧ (y.pc () = .exited 1 ∧ Vouches ["lint"] rec 1) := by
  refine ⟨_, _, rfl, rfl, (still_tree_iff oneCommit (fun _ => ["lint"]) (oneFile 0)
    (rfl : Machine.run _ _ (editedRun (oneFile 1)) = some (_, _)) rfl).mpr ?_⟩
  rintro ⟨-, first, last, hfirst, hlast, -, hstatus, -⟩
  cases hfirst
  cases hlast
  exact absurd (hstatus ()) (by decide)

/-- A file that is already modified is edited again while the gate runs: the listing stays, and the gate passes. -/
theorem gate_passes_on_masked_edit : ∃ y rec,
    Machine.run (Yard.watched (fun _ => ["lint"]) (snapshot oneCommit) ()) (Yard.initial (oneFile 1), .empty)
      (editedRun (oneFile 2)) = some (y, rec) ∧ y.pc () = .exited 0 ∧ rec.first = some (oneFile 1) ∧
      rec.last = some (oneFile 2) ∧ Differs (oneFile 1) (oneFile 2) :=
  ⟨_, _, rfl, rfl, rfl, rfl, .inr ⟨(), by decide⟩⟩

end SciForge.Tools
