import SciForge.Python.Str
import SciForge.Python.Dict
import Mathlib.Data.Int.Basic

/-!
# The corpus schema

Statuses, manifests, cases and the classification rules. An observable is what a driver gives for a
case: `None`, a string, a dict (a match, or the name of an exception) or a list of observables. A dict
keeps only the keys the rules read, each present or absent.
-/

namespace SciForge.Corpus

/-! ### Vocabularies -/

def pass : String := "pass"
def bug : String := "bug"
def intentionalDivergence : String := "intentional_divergence"
def outOfContract : String := "out_of_contract"
def excludedByDesign : String := "excluded_by_design"

def statuses : List String := [pass, bug, intentionalDivergence, outOfContract, excludedByDesign]

def semanticsNames : List String := ["leftmost-first", "leftmost-longest", "posix", "maximal-munch"]

def oracles : List String := ["python_re", "std_regex", "reference_tokenize", "real_only"]

def caseTypes : List String := ["text", "bytes"]

def apis : List String := ["search", "match", "fullmatch", "finditer"]

def oracleSemantics : Dict String String :=
  [("python_re", "leftmost-first"), ("std_regex", "leftmost-first"),
    ("reference_tokenize", "maximal-munch"), ("real_only", "leftmost-first")]

def excludedCapabilities : List String := ["backreference", "recursion", "callout", "subroutine"]

def flagNames : List String := ["ascii", "dotall", "icase", "multiline", "verbose"]

/-! ### Records -/

/-- What `validate` raises: the offending field with its value, one constructor for each message. -/
inductive SchemaError
  | manifestNotIn (name value : String) (allowed : List String)
  | manifestRequired (name : String)
  | flagNotIn (name : String)
  | requiresNotIn (requires : String)
  | statusNotIn (status : Option String)
  | needsReason
  | needsLink
deriving DecidableEq

structure Manifest where
  origin : String
  sha256 : String
  license : String
  attribution : String
  retrieved : String
  semantics : String
  type : String
  api : String
  oracle : String
  notes : String
deriving DecidableEq

def Manifest.validate (m : Manifest) : Except SchemaError Manifest :=
  match [("semantics", m.semantics, semanticsNames), ("type", m.type, caseTypes),
      ("oracle", m.oracle, oracles), ("api", m.api, apis)].find? (fun (_, value, allowed) => value ∉ allowed) with
  | some (name, value, allowed) => .error (.manifestNotIn name value allowed)
  | none =>
    match [("origin", m.origin), ("sha256", m.sha256), ("license", m.license),
        ("attribution", m.attribution), ("retrieved", m.retrieved), ("api", m.api)].find?
        (fun (_, value) => value = "") with
    | some (name, _) => .error (.manifestRequired name)
    | none => .ok m

/-- A span as a driver or a corpus writes it: `[start, end]`, or `[]` for an unwritten one. -/
abbrev Span := List ℤ

structure ObsDict where
  span : Option Span
  groups : Option (List Span)
  exception : Option String
deriving DecidableEq

inductive Observable
  | noMatch
  | str (s : String)
  | dict (d : ObsDict)
  | list (items : List Observable)

/-- A match dict with both keys. -/
def matchDict (span : Span) (groups : List Span) : Observable := .dict ⟨some span, some groups, none⟩

/-- `{"exception": name}`. -/
def exceptionDict (name : String) : Observable := .dict ⟨none, none, some name⟩

mutual

def Observable.decEq : (a b : Observable) → Decidable (a = b)
  | .noMatch, .noMatch => isTrue rfl
  | .str s, .str t => decidable_of_iff (s = t) (by simp)
  | .dict d, .dict e => decidable_of_iff (d = e) (by simp)
  | .list xs, .list ys =>
    match Observable.decEqList xs ys with
    | isTrue h => isTrue (congrArg _ h)
    | isFalse h => isFalse (fun he => h (Observable.list.inj he))
  | .noMatch, .str _ | .noMatch, .dict _ | .noMatch, .list _ => isFalse (fun h => nomatch h)
  | .str _, .noMatch | .str _, .dict _ | .str _, .list _ => isFalse (fun h => nomatch h)
  | .dict _, .noMatch | .dict _, .str _ | .dict _, .list _ => isFalse (fun h => nomatch h)
  | .list _, .noMatch | .list _, .str _ | .list _, .dict _ => isFalse (fun h => nomatch h)

def Observable.decEqList : (xs ys : List Observable) → Decidable (xs = ys)
  | [], [] => isTrue rfl
  | [], _ :: _ => isFalse (fun h => nomatch h)
  | _ :: _, [] => isFalse (fun h => nomatch h)
  | x :: xs, y :: ys =>
    match Observable.decEq x y, Observable.decEqList xs ys with
    | isTrue hx, isTrue hxs => isTrue (by rw [hx, hxs])
    | isFalse hx, _ => isFalse (fun h => hx (List.cons.inj h).1)
    | _, isFalse hxs => isFalse (fun h => hxs (List.cons.inj h).2)

end

instance : DecidableEq Observable := Observable.decEq

/-- A `status_expected` dict. -/
structure Override where
  status : Option String
  reason : Option String
  link : Option String
deriving DecidableEq

/-- A dict is true when it has a key. -/
def Override.truthy (o : Override) : Bool := o.status.isSome || o.reason.isSome || o.link.isSome

def missingText (value : Option String) : Bool := value.getD "" = ""

structure Case (π ι : Type) where
  pattern : π
  input : ι
  expected : Observable
  flags : List String
  requires : String
  statusExpected : Option Override

def Case.validate {π ι : Type} (c : Case π ι) : Except SchemaError (Case π ι) :=
  match c.flags.find? (fun name => name ∉ flagNames) with
  | some name => .error (.flagNotIn name)
  | none =>
    if c.requires ≠ "" ∧ c.requires ∉ excludedCapabilities then .error (.requiresNotIn c.requires)
    else
      match c.statusExpected with
      | none => .ok c
      | some override =>
        if ∀ status ∈ override.status, status ∉ statuses then .error (.statusNotIn override.status)
        else if missingText override.reason then .error .needsReason
        else if override.status = some intentionalDivergence ∧ missingText override.link then
          .error .needsLink
        else .ok c

/-! ### Classification -/

mutual

/-- `observed` meets the stored `expected`: whole span and first groups of a match, lists element by
element, equality elsewhere. -/
def expectationHolds : Observable → Observable → Bool
  | .dict expected, .dict observed =>
    let stated := expected.groups.getD []
    decide (expected.span = observed.span) &&
      decide ((observed.groups.getD []).take stated.length = stated)
  | .list expected, .list observed =>
    decide (expected.length = observed.length) && allHold expected observed
  | expected, observed => decide (expected = observed)

/-- `all(map(expectation_holds, expected, observed))`. -/
def allHold : List Observable → List Observable → Bool
  | expected :: es, observed :: os => expectationHolds expected observed && allHold es os
  | _, _ => true

end

/-- `isinstance(result, dict) and "exception" in result`. -/
def Observable.crashed : Observable → Bool
  | .dict d => d.exception.isSome
  | _ => false

/-- The decision rules, in order. -/
def classify (realResult oracleResult corpusExpected : Observable) (semantics oracle requires : String)
    (divergenceLink : Option String) : String :=
  if requires ≠ "" then excludedByDesign
  else if realResult.crashed then bug
  else if some semantics ≠ oracleSemantics.get oracle ∧ corpusExpected ≠ .noMatch ∧
      expectationHolds corpusExpected oracleResult = false ∧
      (realResult = oracleResult ∨ expectationHolds corpusExpected realResult = true) then outOfContract
  else if (if oracle = "real_only" then expectationHolds oracleResult realResult
      else decide (realResult = oracleResult)) then pass
  else if missingText divergenceLink = false then intentionalDivergence
  else bug

/-- The loop over the groups: whether one differs, `none` once a differing one rules the class out. A
span too short to index raises. -/
def groupsDiffer (realGroups oracleGroups : List Span) (differ : Bool) : Except String (Option Bool) :=
  match realGroups, oracleGroups with
  | realSpan :: reals, oracleSpan :: oracles =>
    if realSpan = oracleSpan then groupsDiffer reals oracles differ
    else
      match oracleSpan with
      | start :: stop :: _ => if start ≠ stop then .ok none else groupsDiffer reals oracles true
      | _ => .error "IndexError"
  | _, _ => .ok (some differ)

/-- `d[key]`. -/
def subscript {α : Type} (value : Option α) : Except String α :=
  match value with
  | some v => .ok v
  | none => .error "KeyError"

/-- `one`: the signature on a single pair of matches. -/
def captureOne (realMatch oracleMatch : Observable) : Except String Bool :=
  match realMatch, oracleMatch with
  | .dict real, .dict oracle => do
    let realSpan ← subscript real.span
    let oracleSpan ← subscript oracle.span
    if realSpan ≠ oracleSpan then return false
    let realGroups ← subscript real.groups
    let oracleGroups ← subscript oracle.groups
    if realGroups.length ≠ oracleGroups.length then return false
    let differ ← groupsDiffer realGroups oracleGroups false
    return differ.getD false
  | _, _ => .ok false

/-- The loop over two lists of matches. -/
def captureAll (reals oracles : List Observable) (differ : Bool) : Except String Bool :=
  match reals, oracles with
  | realMatch :: reals, oracleMatch :: oracles =>
    if realMatch = oracleMatch then captureAll reals oracles differ
    else do
      if ← captureOne realMatch oracleMatch then captureAll reals oracles true else return false
  | _, _ => .ok differ

def isEmptyIterationCapture (realResult oracleResult : Observable) : Except String Bool :=
  match realResult, oracleResult with
  | .list reals, .list oracles =>
    if reals.length ≠ oracles.length then .ok false else captureAll reals oracles false
  | .list _, _ => .ok false
  | _, .list _ => .ok false
  | real, oracle => captureOne real oracle

/-! ### Reports -/

structure CaseResult (π : Type) where
  status : String
  pattern : π
  realResult : Observable
  oracleResult : Observable
  note : String

structure CorpusReport (π : Type) where
  corpus : String
  manifest : Manifest
  results : List (CaseResult π)
  mode : String

/-- One tally per status met, all five present from the start. -/
def CorpusReport.counts {π : Type} (r : CorpusReport π) : Dict String ℕ :=
  r.results.foldl (fun tally result => tally.set result.status ((tally.get result.status).getD 0 + 1))
    (statuses.map (fun status => (status, 0)))

end SciForge.Corpus
