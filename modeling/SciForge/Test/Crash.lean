import SciForge.Test.RunAll
import Mathlib.Logic.Function.Basic

/-!
# A crash in a test

What becomes of a signal that ends the run: the handlers `run_all` installs, the line `report_crash` prints, and the
handler it hands the signal to. A handler of someone else is one that `std::signal` installs and goes by the number of
the signal: it prints what it prints, and exits, raises a signal or returns. What `sigaction` adds (where the fault was, a
stack for the handler) is left out.
-/

namespace SciForge.Test

/-- The signals `run_all` installs its handler for. -/
inductive CrashSignal
  | segv
  | abrt
  | fpe
  | ill
deriving DecidableEq

def CrashSignal.number : CrashSignal → ℤ
  | .segv => 11
  | .abrt => 6
  | .fpe => 8
  | .ill => 4

/-- What a signal is set to: `SIG_DFL`, `SIG_IGN`, `report_crash`, or a handler of someone else. -/
inductive Disposition (F : Type)
  | dfl
  | ign
  | reportCrash
  | other (handler : F)

/-- `crash_handlers`; `none` is `SIG_ERR`. -/
structure CrashHandlers (F : Type) where
  segv : Option (Disposition F)
  abrt : Option (Disposition F)
  fpe : Option (Disposition F)
  ill : Option (Disposition F)

/-- What a process keeps for its signals: what each is set to, `previous_handlers`, and `reported`. -/
structure Signals (F : Type) where
  disposition : CrashSignal → Disposition F
  previousHandlers : CrashHandlers F
  reported : Bool

variable {F : Type}

/-- `previous_handlers` at the start of a process. -/
def CrashHandlers.initial : CrashHandlers F := ⟨some .dfl, some .dfl, some .dfl, some .dfl⟩

/-- The field `report_crash` reads. -/
def CrashHandlers.previous (handlers : CrashHandlers F) (sig : CrashSignal) : Option (Disposition F) :=
  if sig = .segv then handlers.segv
  else if sig = .abrt then handlers.abrt
  else if sig = .fpe then handlers.fpe
  else handlers.ill

namespace Signals

/-- `std::signal`, which takes these signals. -/
def signal (s : Signals F) (sig : CrashSignal) (handler : Disposition F) : Option (Disposition F) × Signals F :=
  (some (s.disposition sig), { s with disposition := Function.update s.disposition sig handler })

/-- The start of `run_all`. -/
def install (s : Signals F) : Signals F :=
  let (segv, s) := s.signal .segv .reportCrash
  let (abrt, s) := s.signal .abrt .reportCrash
  let (fpe, s) := s.signal .fpe .reportCrash
  let (ill, s) := s.signal .ill .reportCrash
  { s with previousHandlers := ⟨segv, abrt, fpe, ill⟩ }

end Signals

def Globals.print (g : Globals) (line : Bytes) : Globals := { g with printed := g.printed ++ [line] }

/-- The line that names a test, a signal and the last check, at line 0 when none ran. -/
def crashLine (test : Bytes) (sig : CrashSignal) (file : Bytes) (line : ℤ) : Bytes :=
  bytes "  CRASH [" ++ test ++ bytes "] signal " ++ decimal sig.number ++ bytes ", after the check at " ++
    (if line = 0 then bytes "[none]" else file) ++ bytes ":" ++ decimal line ++ bytes "\n"

/-- `report_crash` up to its `std::raise`. -/
def reportCrash (g : Globals) (s : Signals F) (sig : CrashSignal) : Globals × Signals F :=
  let g := if s.reported then g else g.print (crashLine g.currentTest sig g.lastFile g.lastLine)
  let previous := s.previousHandlers.previous sig
  (g, ({ s with reported := true }.signal sig (previous.getD .dfl)).2)

/-! ### Delivery -/

/-- How a handler of someone else ends. -/
inductive Reaction
  | exits (code : ℤ)
  | raises (sig : CrashSignal)
  | returns

/-- How a crash ends: the process is ended by a signal's default, it exits, or the test goes on. -/
inductive Ended
  | killed (sig : CrashSignal)
  | exited (code : ℤ)
  | resumed
deriving DecidableEq

/-- What a signal leads to, with the lines printed by then, within a number of deliveries. -/
def deliver (react : F → CrashSignal → List Bytes × Reaction) :
    ℕ → Globals → Signals F → CrashSignal → Option (Ended × List Bytes)
  | 0, _, _, _ => none
  | fuel + 1, g, s, sig =>
    match s.disposition sig with
    | .dfl => some (.killed sig, g.printed)
    | .ign => some (.resumed, g.printed)
    | .reportCrash =>
      let (g, s) := reportCrash g s sig
      deliver react fuel g s sig
    | .other handler =>
      let (lines, reaction) := react handler sig
      let g := { g with printed := g.printed ++ lines }
      match reaction with
      | .exits code => some (.exited code, g.printed)
      | .raises next => deliver react fuel g s next
      | .returns => some (.resumed, g.printed)

/-! ### The handlers installed -/

variable {s o : Signals F} {sig : CrashSignal}

lemma install_disposition (s : Signals F) (sig : CrashSignal) : s.install.disposition sig = .reportCrash := by
  cases sig <;> rfl

lemma install_previous (s : Signals F) (sig : CrashSignal) :
    s.install.previousHandlers.previous sig = some (s.disposition sig) := by
  cases sig <;> rfl

/-- Each signal is set as it was before `run_all`, or to `report_crash`, which hands it to what it was set to. -/
def Behind (s o : Signals F) : Prop :=
  ∀ sig, s.disposition sig = o.disposition sig ∨
    (s.disposition sig = .reportCrash ∧ (s.previousHandlers.previous sig).getD .dfl = o.disposition sig)

lemma behind_install (o : Signals F) : Behind o.install o := by
  intro sig
  refine .inr ⟨install_disposition o sig, ?_⟩
  rw [install_previous, Option.getD_some]

lemma behind_reportCrash (h : Behind s o) (hsig : s.disposition sig = .reportCrash)
    (hfirst : o.disposition sig ≠ .reportCrash) (g : Globals) :
    Behind (reportCrash g s sig).2 o ∧ (reportCrash g s sig).2.disposition sig = o.disposition sig := by
  have hprevious : (s.previousHandlers.previous sig).getD .dfl = o.disposition sig := by
    rcases h sig with hsame | ⟨-, hprevious⟩
    · exact absurd (hsame.symm.trans hsig) hfirst
    · exact hprevious
  have hset : (reportCrash g s sig).2.disposition = Function.update s.disposition sig (o.disposition sig) := by
    rw [← hprevious]
    rfl
  constructor
  · intro other
    rw [hset]
    by_cases heq : other = sig
    · subst heq
      exact .inl (Function.update_self _ _ _)
    · rw [Function.update_of_ne heq]
      exact h other
  · rw [hset, Function.update_self]

/-! ### Handing on -/

variable {react : F → CrashSignal → List Bytes × Reaction} {ended : Ended × List Bytes}

/-- After its line, `report_crash` is not seen: a signal leads to what it led to before `run_all`. -/
lemma deliver_of_original (hfirst : ∀ sig, o.disposition sig ≠ .reportCrash) {fuel : ℕ} {g : Globals}
    (hs : s.reported = true) (hbehind : Behind s o) (h : deliver react fuel g o sig = some ended) :
    ∃ fuel', deliver react fuel' g s sig = some ended := by
  induction fuel generalizing g s sig with
  | zero => cases h
  | succ fuel ih =>
    -- a signal that is set as it was
    have hsame : ∀ s : Signals F, s.reported = true → Behind s o → s.disposition sig = o.disposition sig →
        ∃ fuel', deliver react fuel' g s sig = some ended := by
      intro s hs hbehind heq
      rw [deliver] at h
      cases hset : o.disposition sig with
      | dfl =>
        rw [hset] at h heq
        exact ⟨1, by rw [deliver, heq]; exact h⟩
      | ign =>
        rw [hset] at h heq
        exact ⟨1, by rw [deliver, heq]; exact h⟩
      | reportCrash => exact absurd hset (hfirst sig)
      | other handler =>
        rw [hset] at h heq
        cases hreact : (react handler sig).2 with
        | exits code =>
          refine ⟨1, ?_⟩
          rw [deliver, heq]
          simpa only [hreact] using h
        | returns =>
          refine ⟨1, ?_⟩
          rw [deliver, heq]
          simpa only [hreact] using h
        | raises next =>
          simp only [hreact] at h
          obtain ⟨fuel', hfuel⟩ := ih hs hbehind h
          refine ⟨fuel' + 1, ?_⟩
          rw [deliver, heq]
          simpa only [hreact] using hfuel
    rcases hbehind sig with heq | ⟨hset, -⟩
    · exact hsame s hs hbehind heq
    · -- one delivery more, which prints nothing
      obtain ⟨hbehind', heq⟩ := behind_reportCrash hbehind hset (hfirst sig) g
      obtain ⟨fuel', hfuel⟩ := hsame (reportCrash g s sig).2 rfl hbehind' heq
      refine ⟨fuel' + 1, ?_⟩
      rw [deliver, hset]
      have hquiet : (reportCrash g s sig).1 = g := by
        unfold reportCrash
        rw [if_pos hs]
      simpa only [hquiet] using hfuel

lemma original_of_deliver (hfirst : ∀ sig, o.disposition sig ≠ .reportCrash) {fuel : ℕ} {g : Globals}
    (hs : s.reported = true) (hbehind : Behind s o) (h : deliver react fuel g s sig = some ended) :
    ∃ fuel', deliver react fuel' g o sig = some ended := by
  induction fuel generalizing g s sig with
  | zero => cases h
  | succ fuel ih =>
    rw [deliver] at h
    rcases hbehind sig with heq | ⟨hset, -⟩
    · cases hset : o.disposition sig with
      | dfl =>
        rw [heq, hset] at h
        exact ⟨1, by rw [deliver, hset]; exact h⟩
      | ign =>
        rw [heq, hset] at h
        exact ⟨1, by rw [deliver, hset]; exact h⟩
      | reportCrash => exact absurd hset (hfirst sig)
      | other handler =>
        rw [heq, hset] at h
        cases hreact : (react handler sig).2 with
        | exits code =>
          refine ⟨1, ?_⟩
          rw [deliver, hset]
          simpa only [hreact] using h
        | returns =>
          refine ⟨1, ?_⟩
          rw [deliver, hset]
          simpa only [hreact] using h
        | raises next =>
          simp only [hreact] at h
          obtain ⟨fuel', hfuel⟩ := ih hs hbehind h
          refine ⟨fuel' + 1, ?_⟩
          rw [deliver, hset]
          simpa only [hreact] using hfuel
    · rw [hset] at h
      have hquiet : (reportCrash g s sig).1 = g := by
        unfold reportCrash
        rw [if_pos hs]
      simp only [hquiet] at h
      exact ih rfl (behind_reportCrash hbehind hset (hfirst sig) g).1 h

lemma deliver_second (react : F → CrashSignal → List Bytes × Reaction) (fuel : ℕ) (g : Globals) {s : Signals F}
    (hset : s.disposition sig = .reportCrash) (hprevious : s.previousHandlers.previous sig = some .reportCrash) :
    deliver react fuel g s sig = none := by
  induction fuel generalizing g s with
  | zero => rfl
  | succ fuel ih =>
    rw [deliver, hset]
    refine ih (reportCrash g s sig).1 ?_ hprevious
    have hagain : (reportCrash g s sig).2.disposition sig = (s.previousHandlers.previous sig).getD .dfl :=
      Function.update_self _ _ _
    exact hagain.trans (by rw [hprevious, Option.getD_some])

/-! ### The test and the check named -/

section Check

variable {W D E : Type} (double : Double D)

lemma runAssertion_last {g g' : Globals} {located : Located D E} (h : g.runAssertion double located = some g') :
    g'.currentTest = g.currentTest ∧ g'.lastFile = located.file ∧ g'.lastLine = located.line := by
  have hpassed : ∀ {g'}, g.passed located.file located.line = some g' →
      g'.currentTest = g.currentTest ∧ g'.lastFile = located.file ∧ g'.lastLine = located.line := by
    intro g' h
    obtain ⟨n, -, rfl⟩ := Option.map_eq_some_iff.mp h
    exact ⟨rfl, rfl, rfl⟩
  have hfailed : ∀ {message g'}, g.reportFailure located.file located.line message = some g' →
      g'.currentTest = g.currentTest ∧ g'.lastFile = located.file ∧ g'.lastLine = located.line := by
    intro message g' h
    obtain ⟨n, -, rfl⟩ := Option.map_eq_some_iff.mp h
    exact ⟨rfl, rfl, rfl⟩
  have hcheck : ∀ {condition expr g'}, g.check condition located.file located.line expr = some g' →
      g'.currentTest = g.currentTest ∧ g'.lastFile = located.file ∧ g'.lastLine = located.line := by
    intro condition expr g' h
    unfold Globals.check at h
    split at h
    · exact hpassed h
    · exact hfailed h
  unfold Globals.runAssertion at h
  split at h
  · exact hcheck h
  · unfold Globals.checkEq at h
    split at h
    · exact hpassed h
    · exact hfailed h
  · unfold Globals.checkNear at h
    split at h
    · exact hpassed h
    · exact hfailed h
  · exact hcheck h

/-- The place of the last of the checks run, line 0 when there is none. -/
def lastCheck (run : List (Located D E)) : Bytes × ℤ :=
  (run.getLast?.map fun located => (located.file, located.line)).getD ([], 0)

lemma runAssertions_last {g g' : Globals} {run : List (Located D E)}
    (h : g.runAssertions double run = some g') : g'.currentTest = g.currentTest ∧
      (g'.lastFile, g'.lastLine) =
        (run.getLast?.map fun located => (located.file, located.line)).getD (g.lastFile, g.lastLine) := by
  induction run generalizing g with
  | nil =>
    obtain rfl := Option.some.inj h
    exact ⟨rfl, rfl⟩
  | cons located run ih =>
    obtain ⟨g₁, hfirst, hrest⟩ := Option.bind_eq_some_iff.mp h
    obtain ⟨htest, hfile, hline⟩ := runAssertion_last double hfirst
    obtain ⟨htest', hlast⟩ := ih hrest
    refine ⟨htest'.trans htest, ?_⟩
    cases run with
    | nil => rw [hlast, List.getLast?_nil, Option.map_none, Option.getD_none, hfile, hline]; rfl
    | cons next run => rw [hlast, List.getLast?_cons_cons]; rfl

/-- A signal that comes after some checks of a test, in the first `run_all` of a process: it leads to what it would have
led to without the framework, after one line that names the test, the signal and the last check. In a second `run_all`
it leads to nothing, however long one waits. -/
theorem crash_handed_on (react : F → CrashSignal → List Bytes × Reaction) {signals : Signals F}
    (hfirst : ∀ sig, signals.disposition sig ≠ .reportCrash) (hreported : signals.reported = false) (loop : Loop W)
    (name : Bytes) {run : List (Located D E)} {g : Globals}
    (hrun : (loop.globals.enter name).runAssertions double run = some g) (sig : CrashSignal) (ended : Ended × List Bytes) :
    ((∃ fuel, deliver react fuel g signals.install sig = some ended) ↔
      ∃ fuel, deliver react fuel (g.print (crashLine name sig (lastCheck run).1 (lastCheck run).2)) signals sig =
        some ended) ∧
    ∀ fuel, deliver react fuel g signals.install.install sig = none := by
  obtain ⟨htest, hlast⟩ := runAssertions_last double hrun
  obtain ⟨hfile, hline⟩ := Prod.mk.inj hlast
  have hset := install_disposition signals sig
  have hprint : (reportCrash g signals.install sig).1 =
      g.print (crashLine name sig (lastCheck run).1 (lastCheck run).2) := by
    have hnot : signals.install.reported = false := hreported
    unfold reportCrash
    rw [hnot, hfile, hline, htest]
    rfl
  have hbehind := (behind_reportCrash (behind_install signals) hset (hfirst sig) g).1
  refine ⟨⟨?_, ?_⟩, fun fuel => deliver_second react fuel g (install_disposition _ sig) ?_⟩
  · rintro ⟨fuel, h⟩
    cases fuel with
    | zero => cases h
    | succ fuel =>
      rw [deliver, hset] at h
      simp only [hprint] at h
      exact original_of_deliver hfirst rfl hbehind h
  · rintro ⟨fuel, h⟩
    obtain ⟨fuel', hfuel⟩ := deliver_of_original hfirst rfl hbehind h
    refine ⟨fuel' + 1, ?_⟩
    rw [deliver, hset]
    simpa only [hprint] using hfuel
  · rw [install_previous, install_disposition]

end Check

/-- A sanitizer: a line of its own, and `abort`. -/
def sanitizer : Unit → CrashSignal → List Bytes × Reaction := fun _ _ => ([bytes "=="], .raises .abrt)

def sanitized : Signals Unit :=
  ⟨Function.update (fun _ => .dfl) .segv (.other ()), .initial, false⟩

theorem crash_handed_on_sanitized : ∃ g fuel,
    (Globals.initial.enter (bytes "t")).runAssertions sameDouble [(checkAt 3 true : Located Unit Unit)] = some g ∧
      deliver sanitizer fuel g sanitized.install .segv =
        some (.killed .abrt, [crashLine (bytes "t") .segv (checkAt 3 true).file 3, bytes "=="]) := by
  have hfirst : ∀ sig, sanitized.disposition sig ≠ .reportCrash := by
    intro sig
    cases sig <;> exact fun h => nomatch h
  have hrun : ((⟨.initial, 0, 0, ()⟩ : Loop Unit).globals.enter (bytes "t")).runAssertions sameDouble
      [(checkAt 3 true : Located Unit Unit)] =
        some { Globals.initial with
          checksPassed := 1, currentTest := bytes "t", lastFile := (checkAt 3 true).file, lastLine := 3 } := rfl
  obtain ⟨fuel, hfuel⟩ := ((crash_handed_on sameDouble sanitizer hfirst rfl _ (bytes "t") hrun .segv
    (.killed .abrt, [crashLine (bytes "t") .segv (checkAt 3 true).file 3, bytes "=="])).1).mpr ⟨2, rfl⟩
  exact ⟨_, fuel, hrun, hfuel⟩

end SciForge.Test
