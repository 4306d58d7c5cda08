import SciForge.Lib.Bytes

/-!
# The test framework

The checks, the counters they keep and the runner. A counter is an `int`: counting past its largest value is
undefined, and a computation that does has no result.
-/

namespace SciForge.Test

/-- The largest `int`. -/
def intMax : ℤ := 2147483647

/-- `++counter`. -/
def increment (counter : ℤ) : Option ℤ := if counter < intMax then some (counter + 1) else none

/-- `std::to_string`, also `%d` and `%zu`. -/
def decimal (n : ℤ) : Bytes := bytes (toString n)

/-! ### Checks -/

/-- The operations of `double` that `check_near` uses; `text` streams with precision 17. -/
structure Double (D : Type) where
  sub : D → D → D
  abs : D → D
  le : D → D → Bool
  text : D → Bytes

/-- An operand of `check_eq`. `text` is what streaming it gives, `none` when it cannot be streamed. -/
inductive Operand
  | integer (value : ℤ) (text : Bytes)
  | cString (content : Option Bytes)
  | other (text : Option Bytes)

/-- An assertion of a test body. `same` is the answer of `==` on the operands, `outcome` the exception that
evaluating the expression lets out, `catches` whether the expected type's handler takes it. -/
inductive Assertion (D E : Type)
  | expect (condition : Bool) (expr : Bytes)
  | expectEq (actual expected : Operand) (same : Bool) (expr : Bytes)
  | expectNear (actual expected tolerance : D) (expr : Bytes)
  | expectThrows (outcome : Option E) (catches : E → Bool) (exceptionType expr : Bytes)

/-- An assertion and where it stands. -/
structure Located (D E : Type) where
  file : Bytes
  line : ℤ
  assertion : Assertion D E

/-- How a test body ends. -/
inductive Ending
  | returns
  | stdException (what : Bytes)
  | nonStandard

/-- What one call of a test function does: its assertions in order, and how it ends. -/
structure Body (D E : Type) where
  assertions : List (Located D E)
  ending : Ending

/-- A registered test. Its function may read and change the state `W` of the process. -/
structure TestCase (W D E : Type) where
  name : Bytes
  function : W → Body D E × W

/-- `registry()`: a vector, whose size fits `std::size_t`. -/
structure Registry (W D E : Type) where
  cases : List (TestCase W D E)
  size_lt : cases.length < 18446744073709551616

/-- The framework's globals, and the lines printed. -/
structure Globals where
  checksPassed : ℤ
  checksFailed : ℤ
  currentTest : Bytes
  currentFailed : Bool
  lastFile : Bytes
  lastLine : ℤ
  printed : List Bytes

namespace Globals

/-- At the start of the process. -/
def initial : Globals := ⟨0, 0, [], false, [], 0, []⟩

def passed (g : Globals) (file : Bytes) (line : ℤ) : Option Globals :=
  (increment g.checksPassed).map (fun n => { g with checksPassed := n, lastFile := file, lastLine := line })

def failLine (file : Bytes) (line : ℤ) (test message : Bytes) : Bytes :=
  bytes "  FAIL " ++ file ++ bytes ":" ++ decimal line ++ bytes " [" ++ test ++ bytes "] " ++ message ++ bytes "\n"

def reportFailure (g : Globals) (file : Bytes) (line : ℤ) (message : Bytes) : Option Globals :=
  (increment g.checksFailed).map (fun n =>
    { g with
      checksFailed := n
      currentFailed := true
      lastFile := file
      lastLine := line
      printed := g.printed ++ [failLine file line g.currentTest message] })

def check (g : Globals) (condition : Bool) (file : Bytes) (line : ℤ) (expr : Bytes) : Option Globals :=
  if condition then g.passed file line else g.reportFailure file line expr

def printValue : Operand → Bytes
  | .integer _ text => text
  | .cString none => bytes "nullptr"
  | .cString (some content) => content
  | .other (some text) => text
  | .other none => bytes "<unprintable>"

/-- Two integers compare by value, two C strings by content, the rest by `==`. -/
def equal : Operand → Operand → Bool → Bool
  | .integer actual _, .integer expected _, _ => actual == expected
  | .cString (some left), .cString (some right), _ => left == right
  | .cString none, .cString none, _ => true
  | .cString _, .cString _, _ => false
  | _, _, same => same

def checkEq (g : Globals) (actual expected : Operand) (same : Bool) (file : Bytes) (line : ℤ) (expr : Bytes) :
    Option Globals :=
  if equal actual expected same then g.passed file line
  else g.reportFailure file line
    (expr ++ bytes " — actual: " ++ printValue actual ++ bytes ", expected: " ++ printValue expected)

variable {W D E : Type} (double : Double D)

def checkNear (g : Globals) (actual expected tolerance : D) (file : Bytes) (line : ℤ) (expr : Bytes) :
    Option Globals :=
  if double.le (double.abs (double.sub actual expected)) tolerance then g.passed file line
  else g.reportFailure file line (expr ++ bytes " — actual: " ++ double.text actual ++ bytes ", expected: " ++
    double.text expected ++ bytes ", tolerance: " ++ double.text tolerance)

/-- `EXPECT_THROWS`. -/
def expectThrows (g : Globals) (outcome : Option E) (catches : E → Bool) (exceptionType file : Bytes) (line : ℤ)
    (expr : Bytes) : Option Globals :=
  let caught := match outcome with
    | none => false
    | some exception => catches exception
  g.check caught file line (bytes "throws " ++ exceptionType ++ bytes ": " ++ expr)

def runAssertion (g : Globals) (located : Located D E) : Option Globals :=
  match located.assertion with
  | .expect condition expr => g.check condition located.file located.line expr
  | .expectEq actual expected same expr => g.checkEq actual expected same located.file located.line expr
  | .expectNear actual expected tolerance expr =>
    g.checkNear double actual expected tolerance located.file located.line expr
  | .expectThrows outcome catches exceptionType expr =>
    g.expectThrows outcome catches exceptionType located.file located.line expr

/-- A call of the test function, up to where it ends. -/
def runAssertions (g : Globals) : List (Located D E) → Option Globals
  | [] => some g
  | located :: rest => (g.runAssertion double located).bind (fun g => g.runAssertions rest)

/-! ### The runner -/

/-- The catch clauses of `run_all`. -/
def catchEscaped (g : Globals) : Ending → Option Globals
  | .returns => some g
  | .stdException what =>
    g.reportFailure (if g.lastLine = 0 then bytes "[before any check]" else g.lastFile) g.lastLine
      (bytes "unexpected exception after this check: " ++ what)
  | .nonStandard =>
    g.reportFailure (if g.lastLine = 0 then bytes "[before any check]" else g.lastFile) g.lastLine
      (bytes "unexpected non-standard exception after this check")

/-- The start of an iteration. -/
def enter (g : Globals) (name : Bytes) : Globals :=
  { g with currentTest := name, currentFailed := false, lastFile := [], lastLine := 0 }

end Globals

/-- The locals of `run_all` beside the globals and the rest of the process. -/
structure Loop (W : Type) where
  globals : Globals
  testsRun : ℕ
  testsFailed : ℤ
  world : W

variable {W D E : Type} (double : Double D)

namespace Loop

/-- One iteration of the loop over the registry. -/
def iterate (filter : Bytes) (loop : Loop W) (test : TestCase W D E) : Option (Loop W) :=
  if test.name.find filter = none then some loop
  else
    let call := test.function loop.world
    ((loop.globals.enter test.name).runAssertions double call.1.assertions).bind fun g =>
      (g.catchEscaped call.1.ending).bind fun g =>
        let testsRun := (loop.testsRun + 1) % 18446744073709551616
        if g.currentFailed then
          (increment loop.testsFailed).map (fun testsFailed => ⟨g, testsRun, testsFailed, call.2⟩)
        else some ⟨g, testsRun, loop.testsFailed, call.2⟩

def run (filter : Bytes) (loop : Loop W) : List (TestCase W D E) → Option (Loop W)
  | [] => some loop
  | test :: rest => (loop.iterate double filter test).bind (fun loop => loop.run filter rest)

end Loop

/-- What `run_all` leaves: its answer, the lines printed, the rest of the process. -/
structure Report (W : Type) where
  returned : ℤ
  printed : List Bytes
  world : W

def noTestLine (filter : Bytes) : Bytes :=
  bytes "0 tests | 0 checks passed | 0 checks failed\nFAILED (no test registered" ++
    (if filter.isEmpty then [] else bytes " whose name holds " ++ filter) ++ bytes ")\n"

def totalsLine (testsRun passed failed : ℤ) : Bytes :=
  decimal testsRun ++ bytes " tests | " ++ decimal passed ++ bytes " checks passed | " ++ decimal failed ++
    bytes " checks failed\n"

def failedLine (testsFailed : ℤ) : Bytes := bytes "FAILED (" ++ decimal testsFailed ++ bytes " test(s))\n"

/-- After the loop: what `run_all` prints and returns. -/
def Loop.report (loop : Loop W) (filter : Bytes) : Report W :=
  if loop.testsRun = 0 then ⟨1, loop.globals.printed ++ [noTestLine filter], loop.world⟩
  else
    let totals := totalsLine loop.testsRun loop.globals.checksPassed loop.globals.checksFailed
    if loop.testsFailed > 0 then
      ⟨1, loop.globals.printed ++ [totals, failedLine loop.testsFailed], loop.world⟩
    else ⟨0, loop.globals.printed ++ [totals, bytes "OK\n"], loop.world⟩

def runAll (registry : Registry W D E) (filter : Bytes) (g : Globals) (world : W) : Option (Report W) :=
  (Loop.run double filter ⟨g, 0, 0, world⟩ registry.cases).map (fun loop => loop.report filter)

end SciForge.Test
