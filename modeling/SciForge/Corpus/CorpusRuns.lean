import SciForge.Corpus.Runner
import SciForge.Lib.Raising
import Mathlib.Algebra.BigOperators.Group.List.Basic
import Mathlib.Algebra.GroupWithZero.Nat

/-!
# Whole corpus runs

A run ends early exactly when the signature test is asked about a pair it cannot read: two dicts of which
one is a crash, or a span too short to index.
-/

namespace SciForge.Corpus

variable {π ι : Type}

/-! ### Statuses -/

lemma classify_mem_statuses (real fromOracle expected : Observable) (semantics oracle requires : String)
    (link : Option String) : classify real fromOracle expected semantics oracle requires link ∈ statuses := by
  unfold classify
  split_ifs <;> simp [statuses]

lemma classify_of_crashed {real : Observable} (h : real.crashed = true) (fromOracle expected : Observable)
    (semantics oracle : String) (link : Option String) :
    classify real fromOracle expected semantics oracle "" link = bug := by
  unfold classify
  rw [if_neg (by decide), if_pos h]

lemma observe_crashed {driver : Driver π ι} {c : Case π ι} {api name : String}
    (h : driver c.pattern c.input api c.flags = .error name) : (observe driver c api).crashed = true := by
  unfold observe
  rw [h]
  rfl

lemma status_of_pinned {c : Case π ι} {override : Override} (hc : c.validate = .ok c)
    (h : pinsStatus c = some override) : ∃ status ∈ statuses, override.status = some status := by
  have hov : c.statusExpected = some override := by
    unfold pinsStatus at h
    split at h
    · next o ho =>
      split at h
      · rw [ho, Option.some.inj h]
      · cases h
    · cases h
  unfold Case.validate at hc
  rw [hov] at hc
  dsimp only at hc
  split at hc
  · cases hc
  · split at hc
    · cases hc
    · split at hc
      · cases hc
      · next hs =>
        push Not at hs
        obtain ⟨status, hmem, hstatus⟩ := hs
        exact ⟨status, hstatus, hmem⟩

/-! ### The tally -/

lemma sum_set_succ (tally : Dict String ℕ) (status : String) :
    ((tally.set status ((tally.get status).getD 0 + 1)).map Prod.snd).sum = (tally.map Prod.snd).sum + 1 := by
  induction tally with
  | nil => simp [Dict.set, Dict.get]
  | cons p rest ih =>
    rcases p with ⟨k, n⟩
    by_cases h : k = status
    · simp [Dict.set, Dict.get, h]
      omega
    · simp [Dict.set, Dict.get, h, ih]
      omega

lemma tally_spec (results : List (CaseResult π)) (tally : Dict String ℕ)
    (h : ∀ r ∈ results, r.status ∈ tally.keys) :
    let tally' := results.foldl
      (fun tally result => tally.set result.status ((tally.get result.status).getD 0 + 1)) tally
    tally'.keys = tally.keys ∧ (tally'.map Prod.snd).sum = (tally.map Prod.snd).sum + results.length := by
  dsimp only
  induction results generalizing tally with
  | nil => simp
  | cons r results ih =>
    have hkeys := Dict.keys_set_of_mem (h r List.mem_cons_self) ((tally.get r.status).getD 0 + 1)
    obtain ⟨hk, hs⟩ := ih (tally.set r.status ((tally.get r.status).getD 0 + 1))
      (fun r' hr' => hkeys ▸ h r' (List.mem_cons_of_mem r hr'))
    rw [List.foldl_cons, hk, hs, hkeys, sum_set_succ, List.length_cons]
    exact ⟨rfl, by omega⟩

lemma counts_spec (r : CorpusReport π) (h : ∀ result ∈ r.results, result.status ∈ statuses) :
    r.counts.keys = statuses ∧ (r.counts.map Prod.snd).sum = r.results.length := by
  have hkeys : Dict.keys (statuses.map (fun status => (status, 0))) = statuses := rfl
  obtain ⟨hk, hs⟩ := tally_spec r.results (statuses.map (fun status => (status, 0)))
    (fun result hr => hkeys ▸ h result hr)
  refine ⟨hk, hs.trans ?_⟩
  rw [show ((statuses.map (fun status => (status, 0))).map Prod.snd).sum = 0 from rfl, Nat.zero_add]

/-! ### Where the signature test raises -/

/-- The spans the group loop reaches are long enough to index. -/
def GroupsReadable : List Span → List Span → Prop
  | real :: reals, oracle :: oracles =>
    real ≠ oracle ∧ (∃ start stop rest, oracle = start :: stop :: rest ∧
      (start = stop → GroupsReadable reals oracles)) ∨
    real = oracle ∧ GroupsReadable reals oracles
  | _, _ => True

/-- Two dicts must both have a span, and with equal spans both have groups the loop can read. -/
def MatchesReadable (real oracle : Observable) : Prop :=
  ∀ r o, real = .dict r → oracle = .dict o →
    ∃ realSpan oracleSpan, r.span = some realSpan ∧ o.span = some oracleSpan ∧
      (realSpan = oracleSpan → ∃ realGroups oracleGroups, r.groups = some realGroups ∧
        o.groups = some oracleGroups ∧
        (realGroups.length = oracleGroups.length → GroupsReadable realGroups oracleGroups))

/-- In lists, each differing pair up to the first that is not of the class. -/
def ListsReadable : List Observable → List Observable → Prop
  | real :: reals, oracle :: oracles =>
    real = oracle ∧ ListsReadable reals oracles ∨
    real ≠ oracle ∧ MatchesReadable real oracle ∧
      (captureOne real oracle = .ok true → ListsReadable reals oracles)
  | _, _ => True

def Readable : Observable → Observable → Prop
  | .list reals, .list oracles => reals.length = oracles.length → ListsReadable reals oracles
  | real, oracle => MatchesReadable real oracle

lemma returns_groupsDiffer (reals oracles : List Span) (differ : Bool) :
    Returns (groupsDiffer reals oracles differ) ↔ GroupsReadable reals oracles := by
  induction reals generalizing oracles differ with
  | nil => simp [groupsDiffer, GroupsReadable, returns_ok]
  | cons real reals ih =>
    cases oracles with
    | nil => simp [groupsDiffer, GroupsReadable, returns_ok]
    | cons oracle oracles =>
      unfold groupsDiffer GroupsReadable
      by_cases h : real = oracle
      · simp [h, ih]
      · match oracle with
        | [] => simp [h, not_returns_error]
        | [start] => simp [h, not_returns_error]
        | start :: stop :: rest =>
          by_cases hs : start = stop
          · subst hs
            simp [h, ih]
          · simp [h, hs, returns_ok]

lemma subscript_eq_ok {α : Type} {value : Option α} {a : α} : subscript value = .ok a ↔ value = some a := by
  cases value <;> simp [subscript]

lemma returns_captureOne (real oracle : Observable) :
    Returns (captureOne real oracle) ↔ MatchesReadable real oracle := by
  unfold MatchesReadable
  match real, oracle with
  | .dict r, .dict o =>
    simp only [captureOne, returns_bind, subscript_eq_ok, Observable.dict.injEq]
    constructor
    · rintro ⟨realSpan, hr, oracleSpan, ho, h⟩ r' o' rfl rfl
      refine ⟨realSpan, oracleSpan, hr, ho, fun hspan => ?_⟩
      rw [if_neg (by simpa using hspan)] at h
      simp only [returns_bind, subscript_eq_ok] at h
      obtain ⟨realGroups, hrg, oracleGroups, hog, h⟩ := h
      refine ⟨realGroups, oracleGroups, hrg, hog, fun hlen => ?_⟩
      rw [if_neg (by simpa using hlen)] at h
      simp only [returns_bind] at h
      obtain ⟨differ, hd, _⟩ := h
      exact (returns_groupsDiffer _ _ false).mp ⟨differ, hd⟩
    · intro h
      obtain ⟨realSpan, oracleSpan, hr, ho, h⟩ := h r o rfl rfl
      refine ⟨realSpan, hr, oracleSpan, ho, ?_⟩
      by_cases hspan : realSpan = oracleSpan
      · obtain ⟨realGroups, oracleGroups, hrg, hog, h⟩ := h hspan
        rw [if_neg (by simpa using hspan)]
        simp only [returns_bind, subscript_eq_ok]
        refine ⟨realGroups, hrg, oracleGroups, hog, ?_⟩
        by_cases hlen : realGroups.length = oracleGroups.length
        · rw [if_neg (by simpa using hlen)]
          obtain ⟨differ, hd⟩ := (returns_groupsDiffer _ _ false).mpr (h hlen)
          simp only [returns_bind]
          exact ⟨differ, hd, returns_ok _⟩
        · rw [if_pos hlen]
          exact returns_ok _
      · rw [if_pos hspan]
        exact returns_ok _
  | .noMatch, _ => simp [captureOne, returns_ok]
  | .str _, _ => simp [captureOne, returns_ok]
  | .list _, _ => simp [captureOne, returns_ok]
  | .dict _, .noMatch => simp [captureOne, returns_ok]
  | .dict _, .str _ => simp [captureOne, returns_ok]
  | .dict _, .list _ => simp [captureOne, returns_ok]

lemma returns_captureAll (reals oracles : List Observable) (differ : Bool) :
    Returns (captureAll reals oracles differ) ↔ ListsReadable reals oracles := by
  induction reals generalizing oracles differ with
  | nil => simp [captureAll, ListsReadable, returns_ok]
  | cons real reals ih =>
    cases oracles with
    | nil => simp [captureAll, ListsReadable, returns_ok]
    | cons oracle oracles =>
      unfold captureAll ListsReadable
      by_cases h : real = oracle
      · simp [h, ih]
      · rw [if_neg h, returns_bind]
        simp only [h, false_and, ne_eq, not_false_eq_true, true_and, false_or]
        constructor
        · rintro ⟨captured, hc, hrest⟩
          refine ⟨(returns_captureOne real oracle).mp ⟨captured, hc⟩, fun htrue => ?_⟩
          obtain rfl : captured = true := Except.ok.inj (hc.symm.trans htrue)
          exact (ih oracles true).mp hrest
        · rintro ⟨hone, hrest⟩
          obtain ⟨captured, hc⟩ := (returns_captureOne real oracle).mpr hone
          refine ⟨captured, hc, ?_⟩
          cases captured with
          | true => exact (ih oracles true).mpr (hrest hc)
          | false => exact returns_ok false

/-- The signature test returns exactly on the readable pairs. -/
theorem returns_isEmptyIterationCapture (real oracle : Observable) :
    Returns (isEmptyIterationCapture real oracle) ↔ Readable real oracle := by
  match real, oracle with
  | .list reals, .list oracles =>
    unfold isEmptyIterationCapture Readable
    by_cases h : reals.length = oracles.length
    · simp [h, returns_captureAll]
    · simp [h, returns_ok]
  | .list _, .noMatch | .list _, .str _ | .list _, .dict _ =>
    simp [isEmptyIterationCapture, Readable, MatchesReadable, returns_ok]
  | .noMatch, .list _ | .str _, .list _ | .dict _, .list _ =>
    simp [isEmptyIterationCapture, Readable, MatchesReadable, returns_ok]
  | .noMatch, .noMatch | .noMatch, .str _ | .noMatch, .dict _ =>
    simp only [isEmptyIterationCapture, Readable, returns_captureOne]
  | .str _, .noMatch | .str _, .str _ | .str _, .dict _ =>
    simp only [isEmptyIterationCapture, Readable, returns_captureOne]
  | .dict _, .noMatch | .dict _, .str _ | .dict _, .dict _ =>
    simp only [isEmptyIterationCapture, Readable, returns_captureOne]

/-! ### The loop -/

/-- The callback that links exactly the pairs with the empty-iteration signature. -/
def signatureCallback (link : String) : DivergenceOf π ι := fun real oracle _ => do
  if ← isEmptyIterationCapture real oracle then return some link else return none

/-- Whether the loop asks the callback about a case. -/
def AsksCallback (c : Case π ι) : Prop := pinsStatus c = none ∧ divergenceLink c = none

/-- What a run promises of the result of one case. -/
structure ResultOf (manifest : Manifest) (engine oracle : Driver π ι) (c : Case π ι) (r : CaseResult π) : Prop where
  pattern : r.pattern = c.pattern
  real : r.realResult = observe engine c manifest.api
  fromOracle : r.oracleResult = oracleResult c manifest oracle
  status : r.status ∈ statuses
  crash : c.requires = "" → c.statusExpected = none →
    (∃ name, engine c.pattern c.input manifest.api c.flags = .error name) → r.status = bug

lemma caseStatus_mem_statuses {manifest : Manifest} {divergenceOf : Option (DivergenceOf π ι)}
    {real fromOracle : Observable} {c : Case π ι} {status : String} (hc : c.validate = .ok c)
    (h : caseStatus manifest divergenceOf real fromOracle c = .ok status) : status ∈ statuses := by
  unfold caseStatus at h
  split at h
  · next override hpin =>
    obtain ⟨s, hs, hov⟩ := status_of_pinned hc hpin
    obtain rfl : status = s := Option.some.inj ((subscript_eq_ok.mp h).symm.trans hov)
    exact hs
  · obtain ⟨link, _, rfl⟩ := map_eq_ok.mp h
    exact classify_mem_statuses _ _ _ _ _ _ _

lemma caseStatus_of_crashed {manifest : Manifest} {divergenceOf : Option (DivergenceOf π ι)}
    {real fromOracle : Observable} {c : Case π ι} {status : String} (hreq : c.requires = "")
    (hov : c.statusExpected = none) (hreal : real.crashed = true)
    (h : caseStatus manifest divergenceOf real fromOracle c = .ok status) : status = bug := by
  have hpin : pinsStatus c = none := by
    unfold pinsStatus
    rw [hov]
  unfold caseStatus at h
  rw [hpin] at h
  obtain ⟨link, _, rfl⟩ := map_eq_ok.mp h
  rw [hreq]
  exact classify_of_crashed hreal _ _ _ _ _

lemma runCase_spec {manifest : Manifest} {engine oracle : Driver π ι} {divergenceOf : Option (DivergenceOf π ι)}
    {c : Case π ι} {r : CaseResult π} (hc : c.validate = .ok c)
    (h : runCase manifest engine oracle divergenceOf c = .ok r) : ResultOf manifest engine oracle c r := by
  obtain ⟨status, hstatus, rfl⟩ := map_eq_ok.mp h
  refine ⟨rfl, rfl, rfl, caseStatus_mem_statuses hc hstatus, fun hreq hov hcrash => ?_⟩
  obtain ⟨name, hname⟩ := hcrash
  exact caseStatus_of_crashed hreq hov (observe_crashed hname) hstatus

lemma returns_runCase {manifest : Manifest} {engine oracle : Driver π ι} {link : String} {c : Case π ι}
    (hc : c.validate = .ok c) :
    Returns (runCase manifest engine oracle (some (signatureCallback link)) c) ↔
      (AsksCallback c → Readable (observe engine c manifest.api) (oracleResult c manifest oracle)) := by
  unfold runCase AsksCallback
  rw [returns_map]
  unfold caseStatus
  cases hpin : pinsStatus c with
  | some override =>
    obtain ⟨s, _, hov⟩ := status_of_pinned hc hpin
    refine iff_of_true ⟨s, subscript_eq_ok.mpr hov⟩ (fun h => absurd h.1 (by simp))
  | none =>
    rw [returns_map]
    unfold caseLink
    cases hlink : divergenceLink c with
    | some l => exact iff_of_true (returns_ok _) (fun h => absurd h.2 (by simp))
    | none =>
      simp only [true_and, forall_const]
      rw [← returns_isEmptyIterationCapture]
      unfold signatureCallback
      rw [returns_bind]
      constructor
      · rintro ⟨captured, hcap, _⟩
        exact ⟨captured, hcap⟩
      · rintro ⟨captured, hcap⟩
        refine ⟨captured, hcap, ?_⟩
        cases captured with
        | true => exact returns_ok _
        | false => exact returns_ok _

/-- A run that returns has one result for each case, in order, and its five counts add up. -/
structure Complete (cases : List (Case π ι)) (manifest : Manifest) (engine oracle : Driver π ι)
    (report : CorpusReport π) : Prop where
  results : List.Forall₂ (ResultOf manifest engine oracle) cases report.results
  tallied : report.counts.keys = statuses
  counted : (report.counts.map Prod.snd).sum = cases.length

lemma runCorpus_spec {cases : List (Case π ι)} {manifest : Manifest} {engine oracle : Driver π ι}
    {divergenceOf : Option (DivergenceOf π ι)} {report : CorpusReport π}
    (hcases : ∀ c ∈ cases, c.validate = .ok c)
    (h : runCorpus cases manifest engine oracle divergenceOf = .ok report) :
    Complete cases manifest engine oracle report := by
  obtain ⟨results, hresults, h⟩ := bind_eq_ok.mp h
  cases h
  have hall : List.Forall₂ (ResultOf manifest engine oracle) cases results := by
    have hloop := mapM_eq_ok.mp hresults
    clear hresults h
    induction hloop with
    | nil => exact .nil
    | cons hr _ ih =>
      exact .cons (runCase_spec (hcases _ List.mem_cons_self) hr)
        (ih (fun c hc => hcases c (List.mem_cons_of_mem _ hc)))
  have hstatus : ∀ r ∈ results, r.status ∈ statuses := by
    intro r hr
    obtain ⟨c, _, hcr⟩ := forall₂_mem_right hall hr
    exact hcr.status
  obtain ⟨hkeys, hsum⟩ := counts_spec ⟨manifest.origin, manifest, results, "static"⟩ hstatus
  exact ⟨hall, hkeys, hsum.trans hall.length_eq.symm⟩

/-- With the signature callback a run completes exactly when every pair it asks about is readable. -/
theorem runCorpus_complete_iff (cases : List (Case π ι)) (manifest : Manifest) (engine oracle : Driver π ι)
    (link : String) (hcases : ∀ c ∈ cases, c.validate = .ok c) :
    (∃ report, runCorpus cases manifest engine oracle (some (signatureCallback link)) = .ok report ∧
        Complete cases manifest engine oracle report) ↔
      ∀ c ∈ cases, AsksCallback c →
        Readable (observe engine c manifest.api) (oracleResult c manifest oracle) := by
  have hreturns : Returns (runCorpus cases manifest engine oracle (some (signatureCallback link))) ↔
      ∀ c ∈ cases, AsksCallback c →
        Readable (observe engine c manifest.api) (oracleResult c manifest oracle) := by
    unfold runCorpus
    rw [returns_bind]
    constructor
    · rintro ⟨results, hresults, _⟩ c hc
      exact (returns_runCase (hcases c hc)).mp (returns_mapM.mp ⟨results, hresults⟩ c hc)
    · intro h
      obtain ⟨results, hresults⟩ := returns_mapM.mpr
        (fun c hc => (returns_runCase (hcases c hc)).mpr (h c hc))
      exact ⟨results, hresults, returns_ok _⟩
  rw [← hreturns]
  constructor
  · rintro ⟨report, hreport, _⟩
    exact ⟨report, hreport⟩
  · rintro ⟨report, hreport⟩
    exact ⟨report, hreport, runCorpus_spec hcases hreport⟩

/-! ### A crash opposite a match -/

def searchManifest (oracle : String) : Manifest :=
  ⟨"mini", "x", "MIT", "a", "2026-07-03", "leftmost-first", "text", "search", oracle, ""⟩

def plainCase (pattern : PyStr) (expected : Observable) : Case PyStr PyStr := ⟨pattern, [], expected, [], "", none⟩

/-- The engine raises, the oracle matches: the signature test subscripts the crash and the run ends. -/
theorem runCorpus_ends_on_crash :
    (searchManifest "python_re").validate = .ok (searchManifest "python_re") ∧
      (plainCase (py "crash") .noMatch).validate = .ok (plainCase (py "crash") .noMatch) ∧
      runCorpus [plainCase (py "crash") .noMatch] (searchManifest "python_re")
        (fun _ _ _ _ => .error "RuntimeError")
        (fun _ _ _ _ => .ok (matchObservable (some ⟨(0, 1), []⟩)))
        (some (signatureCallback "div")) = .error "KeyError" :=
  ⟨rfl, rfl, rfl⟩

/-- A crash opposite no match is readable, and the run goes on. -/
theorem runCorpus_complete_crash_noMatch :
    ∃ report, runCorpus [plainCase (py "crash") .noMatch] (searchManifest "python_re")
        (fun _ _ _ _ => .error "RuntimeError") (fun _ _ _ _ => .ok .noMatch)
        (some (signatureCallback "div")) = .ok report ∧
      Complete [plainCase (py "crash") .noMatch] (searchManifest "python_re")
        (fun _ _ _ _ => .error "RuntimeError") (fun _ _ _ _ => .ok .noMatch) report := by
  refine (runCorpus_complete_iff _ _ _ _ _ ?_).mpr ?_
  · intro c hc
    rw [List.mem_singleton.mp hc]
    rfl
  · intro c hc _
    rw [List.mem_singleton.mp hc]
    intro r o _ ho
    cases ho

end SciForge.Corpus
