import SciForge.Lib.Machine
import Mathlib.Logic.Function.Basic
import Mathlib.Tactic.Cases

/-!
# Releasing the GIL

`scoped_gil_release` and `gil_release` in the C++ code that Python threads call: what a call does with the GIL on every
way out of its scopes, and what threads that make such calls do together.
-/

namespace SciForge.Binding

/-- C++ code, as far as the GIL goes: code that calls Python, code that does not, a throw, code in a row, the scope of a
`scoped_gil_release(above)`, a `try` block with its handler. -/
inductive Code
  | python
  | work
  | throws
  | seq (first second : Code)
  | release (above : Bool) (body : Code)
  | attempt (body handler : Code)

/-- `gil_release`. -/
def Code.gilRelease (body : Code) : Code := .release true body

/-- `PyEval_SaveThread`, `PyEval_RestoreThread`, and a call of Python. -/
inductive GilAction
  | save
  | restore
  | python
deriving DecidableEq

/-- What running the code does, and whether an exception leaves it. The destructor runs either way. -/
def Code.run : Code → List GilAction × Bool
  | .python => ([.python], false)
  | .work => ([], false)
  | .throws => ([], true)
  | .seq first second =>
    let (done, thrown) := first.run
    if thrown then (done, true) else (done ++ second.run.1, second.run.2)
  | .release above body =>
    let (done, thrown) := body.run
    (if above then .save :: (done ++ [.restore]) else done, thrown)
  | .attempt body handler =>
    let (done, thrown) := body.run
    if thrown then (done ++ handler.run.1, handler.run.2) else (done, false)

/-- Inside a scope that released the GIL there is no call of Python, and no scope that releases it again. -/
def Code.PureInside (released : Bool) : Code → Prop
  | .python => released = false
  | .work | .throws => True
  | .seq first second => first.PureInside released ∧ second.PureInside released
  | .release true body => released = false ∧ body.PureInside true
  | .release false body => body.PureInside released
  | .attempt body handler => body.PureInside released ∧ handler.PureInside released

/-! ### Threads -/

/-- A thread between two calls, waiting for the GIL, or in one. -/
inductive Status
  | between (calls : List Code)
  | inCall (rest : List GilAction) (calls : List Code)

/-- Who holds the GIL, where each thread is, whether the interpreter finalizes, and whether the process was ended. -/
structure Threads (P : Type) where
  owner : Option P
  thread : P → Status
  finalizing : Bool
  fatal : Bool

/-- A thread goes on, or makes the interpreter finalize. -/
inductive ThreadEvent (P : Type)
  | advance (p : P)
  | finalize (p : P)

namespace Threads

variable {P : Type} [DecidableEq P]

def move (s : Threads P) (p : P) (owner : Option P) (status : Status) : Threads P :=
  { s with owner := owner, thread := Function.update s.thread p status }

/-- The next move of a thread: `none` where it waits. Python ends the process when the GIL is let go of, used or kept by a
thread that does not hold it, or taken twice. -/
def advance (s : Threads P) (p : P) : Option (Threads P) :=
  if s.fatal then none
  else
    match s.thread p with
    | .between [] => none
    | .between (call :: calls) =>
      if s.owner = none ∧ s.finalizing = false then some (s.move p (some p) (.inCall call.run.1 calls)) else none
    | .inCall [] calls =>
      if s.owner = some p then some (s.move p none (.between calls)) else some { s with fatal := true }
    | .inCall (.save :: rest) calls =>
      if s.owner = some p then some (s.move p none (.inCall rest calls)) else some { s with fatal := true }
    | .inCall (.restore :: rest) calls =>
      -- a thread that asks for the GIL of a finalizing interpreter is ended, here in a destructor
      if s.owner = some p ∨ s.finalizing = true then some { s with fatal := true }
      else if s.owner = none then some (s.move p (some p) (.inCall rest calls))
      else none
    | .inCall (.python :: rest) calls =>
      if s.owner = some p then some (s.move p (some p) (.inCall rest calls)) else some { s with fatal := true }

def step (s : Threads P) : ThreadEvent P → Option (Threads P)
  | .advance p => s.advance p
  | .finalize p => if s.owner = some p then some { s with finalizing := true } else none

/-- Every thread before its first call. -/
def start (calls : P → List Code) : Threads P := ⟨none, fun p => .between (calls p), false, false⟩

end Threads

/-- The thread has made its calls. -/
def Status.finished : Status → Bool
  | .between [] => true
  | _ => false

/-! ### One call -/

/-- Actions that fit a thread that holds the GIL, or does not, and leave it holding it. -/
def Fits : Bool → List GilAction → Prop
  | true, [] => True
  | true, .save :: rest => Fits false rest
  | true, .python :: rest => Fits true rest
  | false, .restore :: rest => Fits true rest
  | _, _ => False

lemma fits_run {code : Code} {released : Bool} (h : code.PureInside released) {after : List GilAction}
    (hafter : Fits (!released) after) : Fits (!released) (code.run.1 ++ after) := by
  induction code generalizing released after with
  | python =>
    obtain rfl : released = false := h
    exact hafter
  | work => exact hafter
  | throws => exact hafter
  | seq first second ihfirst ihsecond =>
    unfold Code.run
    cases hthrown : first.run.2 with
    | true =>
      simp only [hthrown, if_true]
      exact ihfirst h.1 hafter
    | false =>
      simp only [hthrown, Bool.false_eq_true, if_false, List.append_assoc]
      exact ihfirst h.1 (ihsecond h.2 hafter)
  | release above body ih =>
    unfold Code.run
    cases above with
    | true =>
      obtain ⟨rfl, hbody⟩ := h
      have hrestore : Fits false (.restore :: after) := hafter
      have hinside := ih hbody hrestore
      simp only [if_true, List.cons_append, List.append_assoc, List.nil_append]
      exact hinside
    | false =>
      simp only [Bool.false_eq_true, if_false]
      exact ih h hafter
  | attempt body handler ihbody ihhandler =>
    unfold Code.run
    cases hthrown : body.run.2 with
    | true =>
      simp only [hthrown, if_true, List.append_assoc]
      exact ihbody h.1 (ihhandler h.2 hafter)
    | false =>
      simp only [hthrown, Bool.false_eq_true, if_false]
      exact ihbody h.1 hafter

/-! ### Threads together -/

namespace Threads

variable {P : Type} [DecidableEq P]

/-- A thread between calls does not hold the GIL, one in a call goes on with actions that fit; its further calls are
pure inside their released scopes. -/
def Fitting (s : Threads P) (p : P) : Prop :=
  match s.thread p with
  | .between calls => s.owner ≠ some p ∧ ∀ call ∈ calls, call.PureInside false
  | .inCall rest calls => Fits (decide (s.owner = some p)) rest ∧ ∀ call ∈ calls, call.PureInside false

structure Sound (s : Threads P) : Prop where
  alive : s.fatal = false
  fitting : ∀ p, s.Fitting p

lemma sound_start {calls : P → List Code} (h : ∀ p, ∀ call ∈ calls p, call.PureInside false) :
    (start calls).Sound := by
  refine ⟨rfl, fun p => ?_⟩
  have hnobody : (start calls).owner ≠ some p := fun howner => (nomatch howner : False)
  exact ⟨hnobody, h p⟩

lemma sound_move {s : Threads P} (hs : s.Sound) {p : P} {owner : Option P} {status : Status}
    (hbefore : s.owner = none ∨ s.owner = some p) (hafter : owner = none ∨ owner = some p)
    (hp : (s.move p owner status).Fitting p) : (s.move p owner status).Sound := by
  refine ⟨hs.alive, fun q => ?_⟩
  by_cases hq : q = p
  · exact hq ▸ hp
  · have hold := hs.fitting q
    have hnot : s.owner ≠ some q := by
      rcases hbefore with h | h
      · rw [h]
        exact fun h => nomatch h
      · rw [h]
        exact fun h => hq (Option.some.inj h).symm
    have hnot' : owner ≠ some q := by
      rcases hafter with rfl | rfl
      · exact fun h => nomatch h
      · exact fun h => hq (Option.some.inj h).symm
    have hthread : (s.move p owner status).thread q = s.thread q := Function.update_of_ne hq _ _
    have howner : (s.move p owner status).owner = owner := rfl
    unfold Fitting at hold ⊢
    rw [hthread, howner]
    cases hstatus : s.thread q with
    | between calls =>
      rw [hstatus] at hold
      exact ⟨hnot', hold.2⟩
    | inCall rest calls =>
      rw [hstatus] at hold
      refine ⟨?_, hold.2⟩
      have hfits := hold.1
      rw [decide_eq_false hnot] at hfits
      rw [decide_eq_false hnot']
      exact hfits

lemma fitting_move {s : Threads P} {p : P} {owner : Option P} {status : Status}
    (h : match status with
      | .between calls => owner ≠ some p ∧ ∀ call ∈ calls, call.PureInside false
      | .inCall rest calls => Fits (decide (owner = some p)) rest ∧ ∀ call ∈ calls, call.PureInside false) :
    (s.move p owner status).Fitting p := by
  unfold Fitting
  have hthread : (s.move p owner status).thread p = status := Function.update_self _ _ _
  rw [hthread]
  exact h

lemma sound_advance {s s' : Threads P} (hs : s.Sound) (hgoing : s.finalizing = false) {p : P}
    (h : s.advance p = some s') : s'.Sound := by
  have hp := hs.fitting p
  unfold Fitting at hp
  unfold advance at h
  rw [hs.alive, hgoing] at h
  simp only [Bool.false_eq_true, if_false] at h
  cases hstatus : s.thread p with
  | between calls =>
    rw [hstatus] at h hp
    cases calls with
    | nil => cases h
    | cons call calls =>
      dsimp only at h
      split at h
      · next hfree =>
        obtain rfl := Option.some.inj h
        refine sound_move hs (.inl hfree.1) (.inr rfl) (fitting_move ⟨?_, fun c hc => hp.2 c (List.mem_cons_of_mem _ hc)⟩)
        have hend : Fits (!false) [] := trivial
        have hcall := fits_run (hp.2 call List.mem_cons_self) hend
        rw [List.append_nil] at hcall
        rw [decide_eq_true rfl]
        exact hcall
      · cases h
  | inCall rest calls =>
    rw [hstatus] at h hp
    obtain ⟨hfits, hcalls⟩ := hp
    by_cases howner : s.owner = some p
    · rw [decide_eq_true howner] at hfits
      match rest with
      | [] =>
        dsimp only at h
        rw [if_pos howner] at h
        obtain rfl := Option.some.inj h
        exact sound_move hs (.inr howner) (.inl rfl) (fitting_move ⟨fun h => (nomatch h), hcalls⟩)
      | .save :: rest =>
        dsimp only at h
        rw [if_pos howner] at h
        obtain rfl := Option.some.inj h
        exact sound_move hs (.inr howner) (.inl rfl) (fitting_move ⟨hfits, hcalls⟩)
      | .python :: rest =>
        dsimp only at h
        rw [if_pos howner] at h
        obtain rfl := Option.some.inj h
        refine sound_move hs (.inr howner) (.inr rfl) (fitting_move ⟨?_, hcalls⟩)
        rw [decide_eq_true rfl]
        exact hfits
      | .restore :: rest => exact hfits.elim
    · rw [decide_eq_false howner] at hfits
      match rest with
      | .restore :: rest =>
        dsimp only at h
        rw [if_neg (by simp [howner])] at h
        split at h
        · next hfree =>
          obtain rfl := Option.some.inj h
          refine sound_move hs (.inl hfree) (.inr rfl) (fitting_move ⟨?_, hcalls⟩)
          rw [decide_eq_true rfl]
          exact hfits
        · cases h
      | [] => exact hfits.elim
      | .save :: rest => exact hfits.elim
      | .python :: rest => exact hfits.elim

lemma finalizing_advance {s s' : Threads P} {p : P} (h : s.advance p = some s') : s'.finalizing = s.finalizing := by
  unfold advance at h
  split at h
  · cases h
  · split at h
    · cases h
    · split at h <;> cases h
      rfl
    · split at h <;> cases h <;> rfl
    · split at h <;> cases h <;> rfl
    · split at h
      · cases h
        rfl
      · split at h <;> cases h
        rfl
    · split at h <;> cases h <;> rfl

/-- Until the interpreter finalizes, a step keeps the threads sound. -/
lemma sound_step {s s' : Threads P} {e : ThreadEvent P} (hs : s.finalizing = false → s.Sound) (h : s.step e = some s')
    (hgoing : s'.finalizing = false) : s'.Sound := by
  cases e with
  | advance p =>
    have hbefore := (finalizing_advance h).symm.trans hgoing
    exact sound_advance (hs hbefore) hbefore h
  | finalize p =>
    unfold step at h
    dsimp only at h
    split at h
    · obtain rfl := Option.some.inj h
      cases hgoing
    · cases h

lemma moves_of_owner {s : Threads P} (hs : s.Sound) {p : P} (howner : s.owner = some p) :
    (s.advance p).isSome = true := by
  have hp := hs.fitting p
  unfold Fitting at hp
  unfold advance
  rw [hs.alive]
  simp only [Bool.false_eq_true, if_false]
  cases hstatus : s.thread p with
  | between calls =>
    rw [hstatus] at hp
    exact absurd howner hp.1
  | inCall rest calls =>
    match rest with
    | [] | .save :: _ | .python :: _ => simp [howner]
    | .restore :: _ => simp [howner]

lemma moves_of_free {s : Threads P} (hs : s.Sound) (hgoing : s.finalizing = false) (hfree : s.owner = none) {p : P}
    (hp : (s.thread p).finished = false) : (s.advance p).isSome = true := by
  unfold advance
  rw [hs.alive, hgoing]
  simp only [Bool.false_eq_true, if_false]
  cases hstatus : s.thread p with
  | between calls =>
    rw [hstatus] at hp
    cases calls with
    | nil => cases hp
    | cons call calls => simp [hfree]
  | inCall rest calls =>
    match rest with
    | [] | .save :: _ | .python :: _ => simp [hfree]
    | .restore :: _ => simp [hfree]

/-- Any threads, making any calls whose released scopes neither call Python nor release again, interleaved in any way,
with exceptions wherever they are thrown: until the interpreter finalizes, Python does not end the process, a thread in
a call of Python holds the GIL, a thread that has made its calls does not, and while one has not, some thread can go
on. -/
theorem gil_kept {calls : P → List Code} (h : ∀ p, ∀ call ∈ calls p, call.PureInside false)
    {events : List (ThreadEvent P)} {s : Threads P} (hrun : Machine.run step (start calls) events = some s)
    (hgoing : s.finalizing = false) :
    s.fatal = false ∧
    (∀ p rest later, s.thread p = .inCall (.python :: rest) later → s.owner = some p) ∧
    (∀ p, (s.thread p).finished = true → s.owner ≠ some p) ∧
    ((∃ p, (s.thread p).finished = false) → ∃ p, (s.advance p).isSome = true) := by
  have hs : s.Sound := Machine.run_invariant (C := fun _ _ => True) (I := fun s => s.finalizing = false → s.Sound)
    (fun _ _ _ hs _ hstep => sound_step hs hstep) (fun _ => sound_start h)
    (Machine.meets_of_forall (fun _ _ => trivial) _ _) hrun hgoing
  refine ⟨hs.alive, fun p rest later hp => ?_, fun p hp => ?_, ?_⟩
  · have hfits := hs.fitting p
    unfold Fitting at hfits
    rw [hp] at hfits
    by_contra howner
    rw [decide_eq_false howner] at hfits
    exact hfits.1
  · have hfits := hs.fitting p
    unfold Fitting at hfits
    cases hstatus : s.thread p with
    | between calls =>
      rw [hstatus] at hfits
      exact hfits.1
    | inCall rest calls =>
      rw [hstatus] at hp
      cases hp
  · rintro ⟨p, hp⟩
    cases howner : s.owner with
    | none => exact ⟨p, moves_of_free hs hgoing howner hp⟩
    | some q => exact ⟨q, moves_of_owner hs howner⟩

/-- Two threads, each in a call that throws from inside its released scope and calls Python in the handler. -/
theorem gil_kept_thrown :
    let call : Code := .seq .python (.attempt (.gilRelease (.seq .work .throws)) .python)
    let events := [true, true, true, false, false].map ThreadEvent.advance
    ∃ s, Machine.run step (start fun _ : Bool => [call]) events = some s ∧
      s.fatal = false ∧ s.owner = some false ∧ s.advance true = none := by
  intro call events
  have hpure : ∀ _ : Bool, ∀ c ∈ [call], c.PureInside false := by
    intro _ c hc
    obtain rfl := List.mem_singleton.mp hc
    exact ⟨rfl, ⟨rfl, trivial, trivial⟩, rfl⟩
  have hrun : Machine.run step (start fun _ : Bool => [call]) events = some _ := rfl
  exact ⟨_, hrun, (gil_kept hpure hrun rfl).1, rfl, rfl⟩

end Threads

end SciForge.Binding
