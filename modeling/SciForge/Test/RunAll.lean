import SciForge.Test.Framework

/-!
# What a run of the tests reports

The tests a filter selects, what they do, and what the counters and the answer of the runner say of it.
-/

namespace SciForge.Test

variable {W D E : Type} (double : Double D)

/-! ### What the tests do -/

def Assertion.passes : Assertion D E → Bool
  | .expect condition _ => condition
  | .expectEq actual expected same _ => Globals.equal actual expected same
  | .expectNear actual expected tolerance _ => double.le (double.abs (double.sub actual expected)) tolerance
  | .expectThrows outcome catches _ _ => outcome.any catches

def Ending.escapes : Ending → Bool
  | .returns => false
  | _ => true

/-- No check of the body fails and nothing escapes it. -/
def Body.clean (body : Body D E) : Bool :=
  body.assertions.all (fun located => located.assertion.passes double) && !body.ending.escapes

/-- The passing checks of the bodies. -/
def passes (bodies : List (Body D E)) : ℕ :=
  (bodies.flatMap Body.assertions).countP (fun located => located.assertion.passes double)

/-- Their failing checks, and one for each escaped exception. -/
def failures (bodies : List (Body D E)) : ℕ :=
  (bodies.flatMap Body.assertions).countP (fun located => !located.assertion.passes double) +
    bodies.countP (fun body => body.ending.escapes)

/-- The bodies that a call of each test in order runs, and the process after them. -/
def session : List (TestCase W D E) → W → List (Body D E) × W
  | [], world => ([], world)
  | test :: rest, world =>
    let call := test.function world
    let later := session rest call.2
    (call.1 :: later.1, later.2)

/-- The tests whose name contains the filter, in registration order. -/
def selected (filter : Bytes) (tests : List (TestCase W D E)) : List (TestCase W D E) :=
  tests.filter (fun test => filter <:+: test.name)

lemma length_session (tests : List (TestCase W D E)) (world : W) :
    (session tests world).1.length = tests.length := by
  induction tests generalizing world with
  | nil => rfl
  | cons test rest ih => simp [session, ih]

@[simp] lemma passes_nil : passes double ([] : List (Body D E)) = 0 := rfl

@[simp] lemma failures_nil : failures double ([] : List (Body D E)) = 0 := rfl

lemma passes_cons (body : Body D E) (bodies : List (Body D E)) :
    passes double (body :: bodies) = passes double [body] + passes double bodies := by
  simp [passes]

lemma failures_cons (body : Body D E) (bodies : List (Body D E)) :
    failures double (body :: bodies) = failures double [body] + failures double bodies := by
  simp only [failures, List.flatMap_cons, List.flatMap_nil, List.append_nil, List.countP_append,
    List.countP_cons, List.countP_nil]
  omega

lemma failures_eq_zero {body : Body D E} : failures double [body] = 0 ↔ body.clean double = true := by
  cases h : body.ending.escapes <;> simp [failures, Body.clean, h, List.countP_eq_zero]

/-! ### What the counters record -/

/-- `after` is `before` with `p` passing checks and `f` failures recorded, each failure with a line printed. -/
structure Recorded (before : Globals) (p f : ℕ) (after : Globals) : Prop where
  checksPassed : after.checksPassed = before.checksPassed + p
  checksFailed : after.checksFailed = before.checksFailed + f
  currentFailed : after.currentFailed = (before.currentFailed || decide (0 < f))
  printed : ∃ reports : List Bytes, reports.length = f ∧ after.printed = before.printed ++ reports

/-- The computation records `p` passing checks and `f` failures, and is undefined when a counter cannot. -/
structure Records (before : Globals) (p f : ℕ) (result : Option Globals) : Prop where
  defined : before.checksPassed + p ≤ intMax → before.checksFailed + f ≤ intMax →
    ∃ after, result = some after ∧ Recorded before p f after
  undefined : ¬(before.checksPassed + p ≤ intMax ∧ before.checksFailed + f ≤ intMax) → result = none

/-- Both counters hold an `int`. -/
def InRange (g : Globals) : Prop := g.checksPassed ≤ intMax ∧ g.checksFailed ≤ intMax

lemma records_nothing {g : Globals} (hg : InRange g) : Records g 0 0 (some g) := by
  constructor
  · intro _ _
    exact ⟨g, rfl, by simp, by simp, by simp, [], rfl, by simp⟩
  · intro h
    exact absurd (by simpa [InRange] using hg) h

lemma Recorded.trans {g g' g'' : Globals} {p f p' f' : ℕ} (h : Recorded g p f g') (h' : Recorded g' p' f' g'') :
    Recorded g (p + p') (f + f') g'' := by
  obtain ⟨first, hfirst, hprinted⟩ := h.printed
  obtain ⟨second, hsecond, hprinted'⟩ := h'.printed
  constructor
  · rw [h'.checksPassed, h.checksPassed]
    push_cast
    omega
  · rw [h'.checksFailed, h.checksFailed]
    push_cast
    omega
  · rw [h'.currentFailed, h.currentFailed, Bool.or_assoc, ← Bool.decide_or]
    congr 2
    simp only [eq_iff_iff]
    omega
  · exact ⟨first ++ second, by simp [hfirst, hsecond], by rw [hprinted', hprinted, List.append_assoc]⟩

lemma Records.bind {g : Globals} {p f p' f' : ℕ} {result : Option Globals} {next : Globals → Option Globals}
    (h : Records g p f result)
    (hnext : ∀ after, Recorded g p f after → InRange after → Records after p' f' (next after)) :
    Records g (p + p') (f + f') (result.bind next) := by
  by_cases hrange : g.checksPassed + p ≤ intMax ∧ g.checksFailed + f ≤ intMax
  · obtain ⟨after, hafter, hrecorded⟩ := h.defined hrange.1 hrange.2
    have hpassed := hrecorded.checksPassed
    have hfailed := hrecorded.checksFailed
    have hrest := hnext after hrecorded ⟨by omega, by omega⟩
    rw [hafter, Option.bind_some]
    constructor
    · intro hp hf
      obtain ⟨last, hlast, hrecorded'⟩ := hrest.defined (by omega) (by omega)
      exact ⟨last, hlast, hrecorded.trans hrecorded'⟩
    · intro hover
      apply hrest.undefined
      omega
  · rw [h.undefined hrange]
    constructor
    · intro hp hf
      omega
    · intro _
      rfl

lemma records_passed (g : Globals) (hg : InRange g) (file : Bytes) (line : ℤ) :
    Records g 1 0 (g.passed file line) := by
  have hfailed := hg.2
  constructor
  · intro hp _
    have hlt : g.checksPassed < intMax := by omega
    exact ⟨_, by rw [Globals.passed, increment, if_pos hlt]; rfl, by simp, by simp, by simp, [], rfl, by simp⟩
  · intro hover
    rw [Globals.passed, increment, if_neg (by omega)]
    rfl

lemma records_failure (g : Globals) (hg : InRange g) (file : Bytes) (line : ℤ) (message : Bytes) :
    Records g 0 1 (g.reportFailure file line message) := by
  have hpassed := hg.1
  constructor
  · intro _ hf
    have hlt : g.checksFailed < intMax := by omega
    exact ⟨_, by rw [Globals.reportFailure, increment, if_pos hlt]; rfl, by simp, by simp, by simp, [_], rfl, rfl⟩
  · intro hover
    rw [Globals.reportFailure, increment, if_neg (by omega)]
    rfl

/-! ### One test -/

lemma runAssertion_cases (g : Globals) (located : Located D E) :
    (located.assertion.passes double = true ∧ g.runAssertion double located = g.passed located.file located.line) ∨
    (located.assertion.passes double = false ∧
      ∃ message, g.runAssertion double located = g.reportFailure located.file located.line message) := by
  rcases located with ⟨file, line, assertion⟩
  cases assertion with
  | expect condition expr =>
    cases condition with
    | true => exact .inl ⟨rfl, rfl⟩
    | false => exact .inr ⟨rfl, expr, rfl⟩
  | expectEq actual expected same expr =>
    cases h : Globals.equal actual expected same with
    | true => exact .inl ⟨h, by simp [Globals.runAssertion, Globals.checkEq, h]⟩
    | false => exact .inr ⟨h, _, by simp [Globals.runAssertion, Globals.checkEq, h]; rfl⟩
  | expectNear actual expected tolerance expr =>
    cases h : double.le (double.abs (double.sub actual expected)) tolerance with
    | true => exact .inl ⟨h, by simp [Globals.runAssertion, Globals.checkNear, h]⟩
    | false => exact .inr ⟨h, _, by simp [Globals.runAssertion, Globals.checkNear, h]; rfl⟩
  | expectThrows outcome catches exceptionType expr =>
    have hcaught : ∀ caught : Bool, outcome.any catches = caught →
        g.runAssertion double ⟨file, line, .expectThrows outcome catches exceptionType expr⟩ =
          g.check caught file line (bytes "throws " ++ exceptionType ++ bytes ": " ++ expr) := by
      rintro _ rfl
      cases outcome with
      | none => rfl
      | some exception => rfl
    cases h : outcome.any catches with
    | true => exact .inl ⟨h, hcaught true h⟩
    | false => exact .inr ⟨h, _, hcaught false h⟩

lemma records_runAssertions {g : Globals} (hg : InRange g) (assertions : List (Located D E)) :
    Records g (assertions.countP (fun located => located.assertion.passes double))
      (assertions.countP (fun located => !located.assertion.passes double))
      (g.runAssertions double assertions) := by
  induction assertions generalizing g with
  | nil => exact records_nothing hg
  | cons located rest ih =>
    rw [List.countP_cons, List.countP_cons, Nat.add_comm (rest.countP _), Nat.add_comm (rest.countP _),
      Globals.runAssertions]
    apply Records.bind
    · rcases runAssertion_cases double g located with ⟨hpasses, h⟩ | ⟨hpasses, message, h⟩
      · rw [h, hpasses]
        exact records_passed g hg _ _
      · rw [h, hpasses]
        exact records_failure g hg _ _ message
    · intro after _ hrange
      exact ih hrange

lemma records_catchEscaped {g : Globals} (hg : InRange g) (ending : Ending) :
    Records g 0 (if ending.escapes then 1 else 0) (g.catchEscaped ending) := by
  cases ending with
  | returns => exact records_nothing hg
  | stdException what => exact records_failure g hg _ _ _
  | nonStandard => exact records_failure g hg _ _ _

lemma records_body {g : Globals} (hg : InRange g) (body : Body D E) :
    Records g (passes double [body]) (failures double [body])
      ((g.runAssertions double body.assertions).bind (fun g => g.catchEscaped body.ending)) := by
  have h := (records_runAssertions double hg body.assertions).bind
    (fun after _ hrange => records_catchEscaped hrange body.ending)
  simpa [passes, failures, List.countP_cons] using h

/-! ### The loop -/

/-- The totals of the bodies fit the counters. -/
def Fits (g : Globals) (bodies : List (Body D E)) : Prop :=
  g.checksPassed + passes double bodies ≤ intMax ∧ g.checksFailed + failures double bodies ≤ intMax

/-- From `loop` to `after` the bodies have run, and the process is in state `world`. -/
structure Advances (loop : Loop W) (bodies : List (Body D E)) (world : W) (after : Loop W) : Prop where
  testsRun : after.testsRun = loop.testsRun + bodies.length
  testsFailed : after.testsFailed = loop.testsFailed + bodies.countP (fun body => !body.clean double)
  checksPassed : after.globals.checksPassed = loop.globals.checksPassed + passes double bodies
  checksFailed : after.globals.checksFailed = loop.globals.checksFailed + failures double bodies
  printed : ∃ reports : List Bytes, reports.length = failures double bodies ∧
    after.globals.printed = loop.globals.printed ++ reports
  world : after.world = world

/-- The counters hold an `int`, and no more tests have failed than checks. -/
structure Consistent (loop : Loop W) : Prop where
  inRange : InRange loop.globals
  failed_le : loop.testsFailed ≤ loop.globals.checksFailed

lemma countP_not_clean_le (body : Body D E) :
    [body].countP (fun body => !body.clean double) ≤ failures double [body] := by
  cases h : body.clean double with
  | true => simp [h]
  | false =>
    have hne : failures double [body] ≠ 0 := by
      intro hzero
      rw [failures_eq_zero, h] at hzero
      cases hzero
    simp [h]
    omega

lemma iterate_selected {filter : Bytes} {loop : Loop W} {test : TestCase W D E} (hselected : filter <:+: test.name)
    (hloop : Consistent loop) (hsize : loop.testsRun + 1 < 18446744073709551616) :
    (Fits double loop.globals [(test.function loop.world).1] →
      ∃ after, loop.iterate double filter test = some after ∧ Consistent after ∧
        Advances double loop [(test.function loop.world).1] (test.function loop.world).2 after) ∧
    (¬Fits double loop.globals [(test.function loop.world).1] → loop.iterate double filter test = none) := by
  have hfind : test.name.find filter ≠ none := fun h => Bytes.find_eq_none.mp h hselected
  have hrecords := records_body double (g := loop.globals.enter test.name) hloop.inRange
    (test.function loop.world).1
  unfold Loop.iterate
  rw [if_neg hfind]
  dsimp only
  rw [← Option.bind_assoc]
  generalize (test.function loop.world).1 = body at *
  constructor
  · intro hfits
    obtain ⟨g, hg, hrecorded⟩ := hrecords.defined hfits.1 hfits.2
    have hpassed := hrecorded.checksPassed
    have hfailed := hrecorded.checksFailed
    have hcurrent := hrecorded.currentFailed
    have hle := hloop.failed_le
    simp only [Globals.enter, Bool.false_or] at hpassed hfailed hcurrent
    have hrange : InRange g := ⟨hpassed ▸ hfits.1, hfailed ▸ hfits.2⟩
    have hmod : (loop.testsRun + 1) % 18446744073709551616 = loop.testsRun + 1 := Nat.mod_eq_of_lt hsize
    rw [hg, Option.bind_some, hcurrent, hmod]
    cases hclean : body.clean double with
    | true =>
      have hzero := (failures_eq_zero double).mpr hclean
      refine ⟨_, by simp [hzero]; rfl, ⟨hrange, ?_⟩, ⟨rfl, by simp [hclean], hpassed, hfailed, hrecorded.printed, rfl⟩⟩
      dsimp only
      omega
    | false =>
      have hpos : 0 < failures double [body] := by
        have := countP_not_clean_le double body
        simp [hclean] at this
        omega
      have hlt : loop.testsFailed < intMax := by
        have := hfits.2
        omega
      refine ⟨_, by simp [hpos, increment, hlt]; rfl, ⟨hrange, ?_⟩,
        ⟨rfl, by simp [hclean], hpassed, hfailed, hrecorded.printed, rfl⟩⟩
      dsimp only
      omega
  · intro hfits
    rw [hrecords.undefined hfits]
    rfl

lemma iterate_skipped {filter : Bytes} {loop : Loop W} {test : TestCase W D E} (hskipped : ¬filter <:+: test.name) :
    loop.iterate double filter test = some loop := by
  rw [Loop.iterate, if_pos (Bytes.find_eq_none.mpr hskipped)]

lemma advances_nothing (loop : Loop W) : Advances double loop ([] : List (Body D E)) loop.world loop := by
  constructor
  · rfl
  · simp
  · simp
  · simp
  · exact ⟨[], rfl, by simp⟩
  · rfl

lemma Advances.trans {loop loop' loop'' : Loop W} {body : Body D E} {bodies : List (Body D E)} {world world' : W}
    (h : Advances double loop [body] world loop') (h' : Advances double loop' bodies world' loop'') :
    Advances double loop (body :: bodies) world' loop'' := by
  obtain ⟨first, hfirst, hprinted⟩ := h.printed
  obtain ⟨second, hsecond, hprinted'⟩ := h'.printed
  have hpasses := passes_cons double body bodies
  have hfailures := failures_cons double body bodies
  constructor
  · rw [h'.testsRun, h.testsRun, List.length_singleton, List.length_cons]
    omega
  · rw [h'.testsFailed, h.testsFailed, ← List.singleton_append (l := bodies), List.countP_append]
    push_cast
    omega
  · rw [h'.checksPassed, h.checksPassed, hpasses]
    push_cast
    omega
  · rw [h'.checksFailed, h.checksFailed, hfailures]
    push_cast
    omega
  · refine ⟨first ++ second, ?_, by rw [hprinted', hprinted, List.append_assoc]⟩
    rw [List.length_append, hfirst, hsecond, hfailures]
  · exact h'.world

/-- The loop runs the selected tests in order, and the counters take their totals when they fit. -/
lemma run_advances (filter : Bytes) {tests : List (TestCase W D E)} {loop : Loop W} (hloop : Consistent loop)
    (hsize : loop.testsRun + tests.length < 18446744073709551616) :
    (Fits double loop.globals (session (selected filter tests) loop.world).1 →
      ∃ after, loop.run double filter tests = some after ∧
        Advances double loop (session (selected filter tests) loop.world).1
          (session (selected filter tests) loop.world).2 after) ∧
    (¬Fits double loop.globals (session (selected filter tests) loop.world).1 →
      loop.run double filter tests = none) := by
  induction tests generalizing loop with
  | nil =>
    constructor
    · intro _
      exact ⟨loop, rfl, advances_nothing double loop⟩
    · intro hfits
      exact absurd (by simpa [Fits, selected, session, InRange] using hloop.inRange) hfits
  | cons test rest ih =>
    rw [List.length_cons] at hsize
    rw [Loop.run]
    by_cases hselected : filter <:+: test.name
    · have hbodies : selected filter (test :: rest) = test :: selected filter rest := by
        simp [selected, hselected]
      simp only [hbodies, session]
      obtain ⟨hdefined, hundefined⟩ := iterate_selected double hselected hloop (by omega)
      generalize hcall : test.function loop.world = call at *
      have hpasses := passes_cons double call.1 (session (selected filter rest) call.2).1
      have hfailures := failures_cons double call.1 (session (selected filter rest) call.2).1
      by_cases hfits : Fits double loop.globals [call.1]
      · obtain ⟨after, hafter, hconsistent, hadvances⟩ := hdefined hfits
        have hrun := hadvances.testsRun
        rw [List.length_singleton] at hrun
        obtain ⟨hlater, hover⟩ := ih hconsistent (by omega)
        rw [hadvances.world] at hlater hover
        have hpassed := hadvances.checksPassed
        have hfailed := hadvances.checksFailed
        have hiff : Fits double loop.globals (call.1 :: (session (selected filter rest) call.2).1) ↔
            Fits double after.globals (session (selected filter rest) call.2).1 := by
          simp only [Fits]
          omega
        rw [hafter, Option.bind_some, hiff]
        constructor
        · intro hfits
          obtain ⟨last, hlast, hadvances'⟩ := hlater hfits
          exact ⟨last, hlast, hadvances.trans double hadvances'⟩
        · exact hover
      · rw [hundefined hfits]
        constructor
        · intro hall
          apply absurd _ hfits
          simp only [Fits] at hall ⊢
          omega
        · intro _
          rfl
    · have hbodies : selected filter (test :: rest) = selected filter rest := by
        simp [selected, hselected]
      rw [iterate_skipped double hselected, Option.bind_some, hbodies]
      exact ih hloop (by omega)

/-! ### The report -/

lemma noTestLine_eq (filter : Bytes) : ∃ verdict, noTestLine filter = totalsLine 0 0 0 ++ verdict := by
  refine ⟨bytes "FAILED (no test registered" ++
    (if filter.isEmpty then [] else bytes " whose name holds " ++ filter) ++ bytes ")\n", ?_⟩
  have hprefix : bytes "0 tests | 0 checks passed | 0 checks failed\nFAILED (no test registered" =
      totalsLine 0 0 0 ++ bytes "FAILED (no test registered" := by decide
  rw [noTestLine, hprefix]
  simp only [List.append_assoc]

/-- The answer and the lines printed, for the selected tests and what they did. -/
structure Reports (tests : List (TestCase W D E)) (bodies : List (Body D E)) (report : Report W) : Prop where
  returned : report.returned = 0 ↔ tests ≠ [] ∧ ∀ body ∈ bodies, body.clean double = true
  zeroOrOne : report.returned = 0 ∨ report.returned = 1
  printed : ∃ (reports : List Bytes) (verdict : Bytes), reports.length = failures double bodies ∧
    report.printed.flatten =
      reports.flatten ++ totalsLine tests.length (passes double bodies) (failures double bodies) ++ verdict

/-- After the bodies, from the initial state, the report says what they did. -/
lemma reports_of_advances {filter : Bytes} {tests : List (TestCase W D E)} {bodies : List (Body D E)}
    (hlength : bodies.length = tests.length) {world world' : W} {after : Loop W}
    (h : Advances double ⟨.initial, 0, 0, world⟩ bodies world' after) :
    Reports double tests bodies (after.report filter) := by
  obtain ⟨reports, hreports, hprinted⟩ := h.printed
  have hrun : after.testsRun = tests.length := by simpa [hlength] using h.testsRun
  have hfailed : after.testsFailed = bodies.countP (fun body => !body.clean double) := by
    simpa using h.testsFailed
  have hpasses : after.globals.checksPassed = passes double bodies := by
    simpa [Globals.initial] using h.checksPassed
  have hfailures : after.globals.checksFailed = failures double bodies := by
    simpa [Globals.initial] using h.checksFailed
  rw [Globals.initial, List.nil_append] at hprinted
  unfold Loop.report
  rw [hprinted, hpasses, hfailures, hrun]
  by_cases hnone : tests.length = 0
  · obtain rfl := List.length_eq_zero_iff.mp hnone
    obtain rfl := List.length_eq_zero_iff.mp hlength
    obtain ⟨verdict, hverdict⟩ := noTestLine_eq filter
    rw [if_pos hnone]
    exact ⟨by simp, .inr rfl, reports, verdict, hreports, by simp [hverdict]⟩
  · have hne : tests ≠ [] := fun he => hnone (by rw [he, List.length_nil])
    rw [if_neg hnone]
    by_cases hclean : ∀ body ∈ bodies, body.clean double = true
    · have hzero : bodies.countP (fun body => !body.clean double) = 0 := by
        simpa [List.countP_eq_zero] using hclean
      rw [if_neg (by omega)]
      exact ⟨iff_of_true rfl ⟨hne, hclean⟩, .inl rfl, reports, bytes "OK\n", hreports, by simp⟩
    · have hpos : 0 < bodies.countP (fun body => !body.clean double) := by
        simpa [List.countP_pos_iff] using hclean
      rw [if_pos (by omega)]
      exact ⟨by simp [hclean], .inr rfl, reports, failedLine after.testsFailed, hreports, by simp⟩

lemma consistent_initial (world : W) : Consistent ⟨.initial, 0, 0, world⟩ := by
  constructor
  · simp [InRange, Globals.initial, intMax]
  · simp [Globals.initial]

lemma runAll_eq_none {registry : Registry W D E} {filter : Bytes} {world : W}
    (hover : ¬Fits double .initial (session (selected filter registry.cases) world).1) :
    runAll double registry filter .initial world = none := by
  have hsize : (⟨.initial, 0, 0, world⟩ : Loop W).testsRun + registry.cases.length < 18446744073709551616 := by
    simpa using registry.size_lt
  obtain ⟨-, hundefined⟩ := run_advances double filter (consistent_initial world) hsize
  rw [runAll, hundefined hover]
  rfl

/-- The first run of a process, on the tests of the registry whose name contains the filter: when their passing
checks fit an `int`, and their failures do, it calls each once, in registration order, and reports what they did.
Otherwise it counts past the largest `int`. -/
theorem runAll_reports (registry : Registry W D E) (filter : Bytes) (world : W) :
    let tests := registry.cases.filter (fun test => filter <:+: test.name)
    let bodies := (session tests world).1
    (passes double bodies ≤ intMax ∧ failures double bodies ≤ intMax →
      ∃ report, runAll double registry filter .initial world = some report ∧ Reports double tests bodies report ∧
        report.world = (session tests world).2) ∧
    (¬(passes double bodies ≤ intMax ∧ failures double bodies ≤ intMax) →
      runAll double registry filter .initial world = none) := by
  intro tests bodies
  have hsize : (⟨.initial, 0, 0, world⟩ : Loop W).testsRun + registry.cases.length < 18446744073709551616 := by
    simpa using registry.size_lt
  obtain ⟨hdefined, -⟩ := run_advances double filter (consistent_initial world) hsize
  have hfits : Fits double Globals.initial bodies ↔ passes double bodies ≤ intMax ∧ failures double bodies ≤ intMax := by
    simp [Fits, Globals.initial]
  rw [← hfits]
  constructor
  · intro hfit
    obtain ⟨after, hafter, hadvances⟩ := hdefined hfit
    rw [runAll, hafter, Option.map_some]
    have hworld : (after.report filter).world = after.world := by
      unfold Loop.report
      split_ifs <;> rfl
    exact ⟨_, rfl, reports_of_advances double (length_session tests world) hadvances,
      hworld.trans hadvances.world⟩
  · exact runAll_eq_none double

/-! ### Runs on fixed registries -/

/-- No two values differ. -/
def sameDouble : Double Unit := ⟨fun _ _ => (), fun _ => (), fun _ _ => true, fun _ => []⟩

def checkAt (line : ℤ) (condition : Bool) : Located Unit Unit :=
  ⟨bytes "test.cpp", line, .expect condition (bytes "condition")⟩

/-- A test that notes its name. -/
def noting (name : Bytes) (body : Body Unit Unit) : TestCase (List Bytes) Unit Unit :=
  ⟨name, fun notes => (body, notes ++ [name])⟩

/-- `mixed` has a passing and a failing check, `thrown` lets an exception escape, `other` is not selected. -/
def threeTests : Registry (List Bytes) Unit Unit where
  cases := [noting (bytes "mixed_t") ⟨[checkAt 3 true, checkAt 4 false], .returns⟩,
    noting (bytes "other") ⟨[checkAt 7 false], .returns⟩,
    noting (bytes "thrown_t") ⟨[checkAt 9 true], .stdException (bytes "boom")⟩]
  size_lt := by decide

theorem runAll_reports_threeTests :
    ∃ report, runAll sameDouble threeTests (bytes "_t") .initial [] = some report ∧
      report.world = [bytes "mixed_t", bytes "thrown_t"] ∧ ¬report.returned = 0 := by
  obtain ⟨report, hrun, hreports, hworld⟩ :=
    (runAll_reports sameDouble threeTests (bytes "_t") []).1 (by decide)
  refine ⟨report, hrun, hworld.trans (by decide), fun h => ?_⟩
  exact absurd (hreports.returned.mp h).2 (by decide)

/-- One test whose single check passes `count` times. -/
def loopTest (count : ℕ) : Registry Unit Unit Unit where
  cases := [⟨bytes "loop", fun world => (⟨List.replicate count (checkAt 3 true), .returns⟩, world)⟩]
  size_lt := by simp

lemma runAll_loopTest {count : ℕ} (hcount : intMax < count) :
    runAll sameDouble (loopTest count) [] .initial () = none := by
  apply runAll_eq_none
  rintro ⟨hpasses, -⟩
  have hcountP : passes sameDouble (session (selected [] (loopTest count).cases) ()).1 = count := by
    have hpasses : (checkAt 3 true).assertion.passes sameDouble = true := rfl
    simp [selected, session, loopTest, passes, List.countP_replicate, hpasses]
  rw [hcountP] at hpasses
  have hzero : Globals.initial.checksPassed = 0 := rfl
  omega

/-- With one passing check more than an `int` counts the run is undefined. -/
theorem runAll_overflows : runAll sameDouble (loopTest 2147483648) [] .initial () = none := by
  apply runAll_loopTest
  simp [intMax]

end SciForge.Test
