import SciForge.Corpus.Schema

/-!
# The corpus runner

A Python exception is the name of its type, so a function that may raise returns `Except String`.
-/

namespace SciForge.Corpus

/-! ### Drivers -/

/-- A driver: pattern, input, api and flags to an observable. -/
abbrev Driver (π ι : Type) := π → ι → String → List String → Except String Observable

/-- A match object: its span, and the span of each group, `(-1, -1)` for one that took no part. -/
structure ReMatch where
  span : ℤ × ℤ
  groups : List (ℤ × ℤ)

def matchObservable : Option ReMatch → Observable
  | none => .noMatch
  | some m => matchDict [m.span.1, m.span.2] (m.groups.map (fun g => [g.1, g.2]))

def flagAttr : Dict String String :=
  [("ascii", "ASCII"), ("dotall", "DOTALL"), ("icase", "IGNORECASE"),
    ("multiline", "MULTILINE"), ("verbose", "VERBOSE")]

/-- What a driver reads of a re-compatible module: its attributes, its error type and its matchers. -/
structure ReModule (π ι ρ : Type) where
  attr : String → Option ℕ
  error : String
  compile : π → ℕ → Except String ρ
  finditer : ρ → ι → Except String (List ReMatch)
  matcher : ρ → String → ι → Except String (Option ReMatch)

def reLikeEngine {π ι ρ : Type} (module : ReModule π ι ρ) : Driver π ι := fun pattern text api flags => do
  let flagValue ← flags.foldlM (fun value name => do
    let attr ← subscript (flagAttr.get name)
    match module.attr attr with
    | some bits => .ok (value ||| bits)
    | none => .error "AttributeError") 0
  match module.compile pattern flagValue with
  | .error name =>
    if name ∈ [module.error, "OverflowError", "RecursionError", "MemoryError"] then
      return .str "error"
    else .error name
  | .ok compiled =>
    if api = "finditer" then
      let found ← module.finditer compiled text
      return .list (found.map (fun m => matchObservable (some m)))
    else
      let found ← module.matcher compiled api text
      return matchObservable found

/-! ### Running a corpus -/

variable {π ι : Type}

/-- The link an intentional-divergence override declares. -/
def divergenceLink (c : Case π ι) : Option String :=
  match c.statusExpected with
  | some override => if override.status = some intentionalDivergence then override.link else none
  | none => none

def observe (driver : Driver π ι) (c : Case π ι) (api : String) : Observable :=
  match driver c.pattern c.input api c.flags with
  | .ok result => result
  | .error name => exceptionDict name

/-- Under `real_only` the stored expectation stands for the oracle. -/
def oracleResult (c : Case π ι) (manifest : Manifest) (oracle : Driver π ι) : Observable :=
  if manifest.oracle = "real_only" then c.expected else observe oracle c manifest.api

/-- An override that pins another status than an intentional divergence. -/
def pinsStatus (c : Case π ι) : Option Override :=
  match c.statusExpected with
  | some override =>
    if override.truthy ∧ override.status ≠ some intentionalDivergence then some override else none
  | none => none

abbrev DivergenceOf (π ι : Type) := Observable → Observable → Case π ι → Except String (Option String)

/-- The declared link, else the one the callback finds. -/
def caseLink (divergenceOf : Option (DivergenceOf π ι)) (real fromOracle : Observable) (c : Case π ι) :
    Except String (Option String) :=
  match divergenceLink c, divergenceOf with
  | none, some callback => callback real fromOracle c
  | link, _ => .ok link

def caseStatus (manifest : Manifest) (divergenceOf : Option (DivergenceOf π ι))
    (real fromOracle : Observable) (c : Case π ι) : Except String String :=
  match pinsStatus c with
  | some override => subscript override.status
  | none =>
    (caseLink divergenceOf real fromOracle c).map
      (classify real fromOracle c.expected manifest.semantics manifest.oracle c.requires)

def runCase (manifest : Manifest) (engine oracle : Driver π ι) (divergenceOf : Option (DivergenceOf π ι))
    (c : Case π ι) : Except String (CaseResult π) :=
  let real := observe engine c manifest.api
  let fromOracle := oracleResult c manifest oracle
  (caseStatus manifest divergenceOf real fromOracle c).map
    (fun status => ⟨status, c.pattern, real, fromOracle, ""⟩)

def runCorpus (cases : List (Case π ι)) (manifest : Manifest) (engine oracle : Driver π ι)
    (divergenceOf : Option (DivergenceOf π ι)) : Except String (CorpusReport π) := do
  let results ← cases.mapM (runCase manifest engine oracle divergenceOf)
  return ⟨manifest.origin, manifest, results, "static"⟩

end SciForge.Corpus
