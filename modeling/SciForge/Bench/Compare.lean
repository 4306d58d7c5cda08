import SciForge.Bench.Stats
import SciForge.Lib.Prog
import SciForge.Python.Dict

/-!
# Comparative benchmarking

The correctness gate, the paired timing and the verdict over comparison cases. The callables and the clock act on
a world `W`; a Python exception is the name of its type.
-/

namespace SciForge.Bench

/-- A value of a case's free-form fields. -/
inductive Value (F : Type)
  | none
  | bool (b : Bool)
  | num (x : F)
  | str (s : String)
  | list (items : List (Value F))

structure Case (F : Type) where
  name : String
  unit : String
  samples : List F
  result : Value F
  extra : Dict String (Value F)

structure Verdict (F : Type) where
  geomean : F
  ciLow : F
  ciHigh : F
  classification : String
  mismatched : List String
  passed : Bool
  text : String

/-- How the numbers of a verdict are printed: `{:.2f}` and `{:.0%}`. -/
structure Format (F : Type) where
  fixed2 : F → String
  percent : F → String

/-- `runner.calibrate` and `runner.batch_time` of a callable, and the state of the garbage collector. -/
structure Timing (W F : Type) where
  calibrate : Prog W String Unit → Prog W String ℕ
  batchTime : Prog W String Unit → ℕ → Prog W String F
  gcEnabled : W → Bool
  gcSwitch : Bool → W → W

variable {F W α β ρ : Type}

/-- `bool(value)`. -/
def truthy (A : Arithmetic F) : Value F → Bool
  | .none => false
  | .bool b => b
  | .num x => A.nonzero x
  | .str s => s ≠ ""
  | .list items => !items.isEmpty

/-! ### Pairs -/

/-- The rounds `i, i + 1, …`: the subject is timed first on even ones, the reference on odd ones. -/
def collectRounds (A : Arithmetic F) (timing : Timing W F) (subject reference : Prog W String Unit)
    (nSubject nReference : ℕ) : ℕ → ℕ → Prog W String (List F × List F × List F)
  | _, 0 => pure ([], [], [])
  | i, rounds + 1 => do
    let (s, r) ← if i % 2 = 0 then do
        let s ← timing.batchTime subject nSubject
        let r ← timing.batchTime reference nReference
        pure (s, r)
      else do
        let r ← timing.batchTime reference nReference
        let s ← timing.batchTime subject nSubject
        pure (s, r)
    let ratio ← (fun w => (A.div r s, w) : Prog W String F)
    let (subjectTimes, referenceTimes, ratios) ←
      collectRounds A timing subject reference nSubject nReference (i + 1) rounds
    pure (s :: subjectTimes, r :: referenceTimes, ratio :: ratios)

def collectPair (A : Arithmetic F) (timing : Timing W F) (subject reference : Prog W String Unit) (samples : ℕ) :
    Prog W String (List F × List F × List F) := do
  subject
  reference
  let nSubject ← timing.calibrate subject
  let nReference ← timing.calibrate reference
  let w ← Prog.get
  let wasEnabled := timing.gcEnabled w
  Prog.modify (timing.gcSwitch false)
  Prog.cleanup (collectRounds A timing subject reference nSubject nReference 0 samples)
    (fun w => if wasEnabled then timing.gcSwitch true w else w)

/-! ### The gate -/

/-- The keyword fields of a call: a dict. -/
structure Fields (F : Type) where
  items : Dict String (Value F)
  nodup : items.keys.Nodup

def compare (A : Arithmetic F) (timing : Timing W F) (label : String) (subject : Prog W String α)
    (reference : Prog W String β) (equal : α → β → Prog W String Bool) (samples : ℕ) (fields : Fields F) :
    Prog W String (Case F) := do
  let subjectResult ← subject
  let referenceResult ← reference
  let same ← equal subjectResult referenceResult
  if !same then
    pure ⟨label, "s", [], .none, Dict.update [("reference_samples", .list []), ("ratios", .list []),
      ("mismatch", .bool true)] fields.items⟩
  else do
    let (subjectTimes, referenceTimes, ratios) ←
      collectPair A timing (do let _ ← subject; pure ()) (do let _ ← reference; pure ()) samples
    pure ⟨label, "s", subjectTimes, .none, Dict.update [("reference_samples", .list (referenceTimes.map .num)),
      ("ratios", .list (ratios.map .num)), ("mismatch", .bool false)] fields.items⟩

/-! ### The verdict -/

def defaultKey (A : Arithmetic F) (case : Case F) : Bool :=
  match case.extra.get "key" with
  | some value => truthy A value
  | none => true

/-- `case.extra.get(name)`, as a condition. -/
def flagged (A : Arithmetic F) (name : String) (case : Case F) : Bool :=
  match case.extra.get name with
  | some value => truthy A value
  | none => false

/-- One ratio; anything else than a number fails in the statistics. -/
def asRatio (A : Arithmetic F) : Value F → Except String F
  | .num x => .ok x
  | .bool b => .ok (A.lit b.toNat)
  | _ => .error "TypeError"

def asRatios (A : Arithmetic F) : Value F → Except String (List F)
  | .list items => items.mapM (asRatio A)
  | _ => .error "TypeError"

def mismatchedNames (A : Arithmetic F) (key : Case F → Bool) (cases : List (Case F)) : List String :=
  ((cases.filter key).filter (flagged A "mismatch")).map Case.name

/-- The ratios of the key cases that passed the gate and have some. -/
def ratioGroups (A : Arithmetic F) (key : Case F → Bool) (cases : List (Case F)) : List (Value F) :=
  (cases.filter key).filterMap (fun case =>
    if !flagged A "mismatch" case && flagged A "ratios" case then case.extra.get "ratios" else none)

def mismatchNote (mismatched : List String) : String :=
  toString mismatched.length ++ " result mismatch(es): " ++ String.intercalate ", " mismatched

/-- `margin > 0 and 1.0 / (1.0 + margin) <= ci_low and ci_high <= 1.0 + margin`. -/
def withinMargin (A : Arithmetic F) (margin ciLow ciHigh : F) : Except String Bool :=
  if A.lt (A.lit 0) margin then do
    let low ← A.div (A.lit 1) (A.add (A.lit 1) margin)
    return A.le low ciLow && A.le ciHigh (A.add (A.lit 1) margin)
  else .ok false

def shownInterval (fmt : Format F) (geomean ciLow ciHigh : F) : String :=
  fmt.fixed2 geomean ++ "x [" ++ fmt.fixed2 ciLow ++ "-" ++ fmt.fixed2 ciHigh ++ "]"

/-- What the interval says, and how the text puts it. -/
def classify (A : Arithmetic F) (fmt : Format F) (subjectLabel : String) (margin geomean ciLow ciHigh : F) :
    Except String (String × String) :=
  let shown := shownInterval fmt geomean ciLow ciHigh
  (withinMargin A margin ciLow ciHigh).map (fun within =>
    if within then
      ("equivalent", subjectLabel ++ " equivalent: " ++ shown ++ " (CI within ±" ++ fmt.percent margin ++ ")")
    else if A.lt (A.lit 1) ciLow then
      ("faster", subjectLabel ++ " faster overall: " ++ shown ++ " (CI clears 1.0)")
    else if A.lt ciHigh (A.lit 1) then
      ("slower", subjectLabel ++ " slower overall: " ++ shown ++ " (CI below 1.0)")
    else ("indecisive", "indecisive: " ++ shown ++ " (CI straddles 1.0)"))

/-- What the ratios alone decide. -/
structure Speed (F : Type) where
  geomean : F
  ciLow : F
  ciHigh : F
  classification : String
  text : String

def speedOf (A : Arithmetic F) (fmt : Format F) (rng : Rng ρ) (groups : List (Value F)) (subjectLabel : String)
    (bootstrap : ℕ) (margin : F) (s : ρ) : Except String (Speed F) :=
  if groups.isEmpty then .ok ⟨A.lit 0, A.lit 0, A.lit 0, "no-data", "no comparable key cases"⟩
  else do
    let ratios ← groups.mapM (asRatios A)
    let (geomean, ciLow, ciHigh) ← hierarchicalGeomeanCi A rng ratios bootstrap (A.lit 0.95) s
    let (classification, text) ← classify A fmt subjectLabel margin geomean ciLow ciHigh
    return ⟨geomean, ciLow, ciHigh, classification, text⟩

/-- The text with its mismatches. -/
def withMismatches (noData : Bool) (text : String) (mismatched : List String) : String :=
  if mismatched.isEmpty then text else text ++ (if noData then "; " else "  |  ") ++ mismatchNote mismatched

def verdict (A : Arithmetic F) (fmt : Format F) (rng : Rng ρ) (cases : List (Case F))
    (key : Option (Case F → Bool)) (subjectLabel : String) (bootstrap : ℕ) (margin : F) (s : ρ) :
    Except String (Verdict F) :=
  let key := key.getD (defaultKey A)
  let mismatched := mismatchedNames A key cases
  let groups := ratioGroups A key cases
  (speedOf A fmt rng groups subjectLabel bootstrap margin s).map (fun speed =>
    ⟨speed.geomean, speed.ciLow, speed.ciHigh, speed.classification, mismatched, mismatched.isEmpty,
      withMismatches groups.isEmpty speed.text mismatched⟩)

end SciForge.Bench
