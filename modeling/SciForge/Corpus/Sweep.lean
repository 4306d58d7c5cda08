import SciForge.Corpus.Inputs
import SciForge.Corpus.Enumeration
import SciForge.Corpus.CorpusRuns
import Mathlib.Data.List.ProdSigma

/-!
# The exhaustive mode

`enumerate_cases` and `as_cases` put the enumerated patterns and inputs through `run_corpus`: what the report of such a
run says about the engine and the oracle.
-/

namespace SciForge.Corpus

/-- The cross product, the inputs of the first pattern first. -/
def enumerateCases (k : ℤ) (n : ℕ) (alphabet extra : PyStr) (tier : ℕ) : List (PyStr × PyStr) :=
  (enumeratePatterns k alphabet tier).flatMap fun pattern =>
    (enumerateInputs n alphabet extra).map fun text => (pattern, text)

/-- `Case(pattern=pattern, input=text)`. -/
def asCase (pattern text : PyStr) : Case PyStr PyStr := ⟨pattern, text, .noMatch, [], "", none⟩

def asCases (k : ℤ) (n : ℕ) (alphabet extra : PyStr) (tier : ℕ) : List (Case PyStr PyStr) :=
  (enumerateCases k n alphabet extra tier).map fun (pattern, text) => asCase pattern text

/-- The texts of the input space: the short words, and each before `extra`. -/
def InputText (n : ℕ) (alphabet extra text : PyStr) : Prop :=
  WordUpTo n alphabet text ∨ extra ≠ [] ∧ ∃ word, WordUpTo n alphabet word ∧ text = word ++ extra

/-! ### The case space -/

lemma mem_enumerateInputs {n : ℕ} {alphabet extra text : PyStr} :
    text ∈ enumerateInputs n alphabet extra ↔ InputText n alphabet extra text := by
  rw [(enumerateInputs_perm n alphabet extra).mem_iff, List.mem_dedup, mem_inputs]
  rfl

lemma mem_enumeratePatterns_tier1 {k : ℤ} {alphabet pattern : PyStr} :
    pattern ∈ enumeratePatterns k alphabet 1 ↔ Derivable alphabet false k pattern :=
  ⟨derivable_of_mem 1, mem_of_derivable 1 (fun h => by cases h)⟩

variable {k : ℤ} {n tier : ℕ} {alphabet extra : PyStr}

lemma mem_enumerateCases {pattern text : PyStr} : (pattern, text) ∈ enumerateCases k n alphabet extra tier ↔
    pattern ∈ enumeratePatterns k alphabet tier ∧ InputText n alphabet extra text :=
  List.pair_mem_product.trans (and_congr_right' mem_enumerateInputs)

lemma length_enumerateCases : (enumerateCases k n alphabet extra tier).length =
    (enumeratePatterns k alphabet tier).length * (enumerateInputs n alphabet extra).length :=
  List.length_product _ _

/-! ### The tally -/

section Tally

variable {π : Type}

lemma get_tally {status : String} (results : List (CaseResult π)) (tally : Dict String ℕ) (h : status ∈ tally.keys) :
    (results.foldl (fun tally result => tally.set result.status ((tally.get result.status).getD 0 + 1)) tally).get
        status = some ((tally.get status).getD 0 + results.countP (fun result => result.status = status)) := by
  induction results generalizing tally with
  | nil =>
    obtain ⟨count, hcount⟩ := Option.ne_none_iff_exists'.mp (fun hnone => Dict.get_eq_none.mp hnone h)
    simp [hcount]
  | cons result results ih =>
    rw [List.foldl_cons, ih _ (Dict.mem_keys_set.mpr (.inr h)), List.countP_cons]
    by_cases heq : result.status = status
    · subst heq
      rw [Dict.get_set_self, if_pos (by simp), Option.getD_some]
      congr 1
      omega
    · rw [Dict.get_set_of_ne _ heq, if_neg (by simpa using heq), Nat.add_zero]

lemma get_counts (report : CorpusReport π) {status : String} (h : status ∈ statuses) :
    report.counts.get status = some (report.results.countP (fun result => result.status = status)) := by
  unfold CorpusReport.counts
  rw [get_tally _ _ h]
  have hzero : (Dict.get (statuses.map (fun status => (status, 0))) status).getD 0 = 0 := by
    simp only [statuses, List.mem_cons, List.not_mem_nil, or_false] at h
    rcases h with rfl | rfl | rfl | rfl | rfl <;> rfl
  rw [hzero, Nat.zero_add]

lemma get_counts_eq_zero (report : CorpusReport π) {status : String} (h : status ∈ statuses) :
    report.counts.get status = some 0 ↔ ∀ result ∈ report.results, result.status ≠ status := by
  rw [get_counts report h, Option.some.injEq, List.countP_eq_zero]
  simp

end Tally

/-! ### One case -/

section

variable {manifest : Manifest} {engine oracle : Driver PyStr PyStr} {divergenceOf : Option (DivergenceOf PyStr PyStr)}
  {pattern text : PyStr}

/-- What the engine gives on a case of the space. -/
def engineGives (manifest : Manifest) (engine : Driver PyStr PyStr) (pattern text : PyStr) : Observable :=
  observe engine (asCase pattern text) manifest.api

/-- The engine does not raise, and gives what the oracle gives or what the callback has a link for. -/
def Explained (manifest : Manifest) (engine oracle : Driver PyStr PyStr)
    (divergenceOf : Option (DivergenceOf PyStr PyStr)) (pattern text : PyStr) : Prop :=
  (engineGives manifest engine pattern text).crashed = false ∧
    (engineGives manifest engine pattern text = engineGives manifest oracle pattern text ∨
      ∃ callback link, divergenceOf = some callback ∧ link ≠ "" ∧
        callback (engineGives manifest engine pattern text) (engineGives manifest oracle pattern text)
          (asCase pattern text) = .ok (some link))

lemma oracleResult_asCase (hauthority : manifest.oracle ≠ "real_only") :
    oracleResult (asCase pattern text) manifest oracle = engineGives manifest oracle pattern text := by
  unfold oracleResult
  rw [if_neg hauthority]
  rfl

lemma classify_unstored (hauthority : manifest.oracle ≠ "real_only") (real fromOracle : Observable)
    (link : Option String) :
    classify real fromOracle .noMatch manifest.semantics manifest.oracle "" link =
      if real.crashed then bug
      else if real = fromOracle then pass
      else if missingText link = false then intentionalDivergence else bug := by
  unfold classify
  simp [hauthority]

lemma caseLink_asCase {real fromOracle : Observable} {link : Option String}
    (h : caseLink divergenceOf real fromOracle (asCase pattern text) = .ok link) :
    missingText link = false ↔ ∃ callback l, divergenceOf = some callback ∧ l ≠ "" ∧
      callback real fromOracle (asCase pattern text) = .ok (some l) := by
  cases divergenceOf with
  | none =>
    obtain rfl := Except.ok.inj h
    simp [missingText]
  | some callback =>
    have hcall : callback real fromOracle (asCase pattern text) = .ok link := h
    cases link with
    | none =>
      refine iff_of_false (by simp [missingText]) ?_
      rintro ⟨callback', l, hsome, -, hl⟩
      obtain rfl := Option.some.inj hsome
      rw [hcall] at hl
      cases hl
    | some l =>
      have htext : missingText (some l) = false ↔ l ≠ "" := by simp [missingText]
      rw [htext]
      refine ⟨fun hl => ⟨callback, l, rfl, hl, hcall⟩, ?_⟩
      rintro ⟨callback', l', hsome, hne, hl⟩
      obtain rfl := Option.some.inj hsome
      rw [hcall] at hl
      exact (Option.some.inj (Except.ok.inj hl)) ▸ hne

lemma runCase_asCase (hauthority : manifest.oracle ≠ "real_only") {result : CaseResult PyStr}
    (h : runCase manifest engine oracle divergenceOf (asCase pattern text) = .ok result) :
    result.status ∈ [pass, bug, intentionalDivergence] ∧
      (result.status ≠ bug ↔ Explained manifest engine oracle divergenceOf pattern text) := by
  obtain ⟨status, hstatus, rfl⟩ := map_eq_ok.mp h
  rw [oracleResult_asCase hauthority] at hstatus
  have hcall : (caseLink divergenceOf (engineGives manifest engine pattern text)
      (engineGives manifest oracle pattern text) (asCase pattern text)).map
      (classify (engineGives manifest engine pattern text) (engineGives manifest oracle pattern text) .noMatch
        manifest.semantics manifest.oracle "") = .ok status := hstatus
  obtain ⟨link, hlink, rfl⟩ := map_eq_ok.mp hcall
  rw [classify_unstored hauthority]
  unfold Explained
  rw [← caseLink_asCase hlink]
  cases (engineGives manifest engine pattern text).crashed with
  | true => simp
  | false =>
    by_cases hsame : engineGives manifest engine pattern text = engineGives manifest oracle pattern text
    · simp [hsame, pass, bug]
    · cases missingText link with
      | true => simp [hsame]
      | false => simp [hsame, intentionalDivergence, bug]

lemma returns_sweep (manifest : Manifest) (engine oracle : Driver PyStr PyStr) (cases : List (PyStr × PyStr))
    (hcallback : ∀ callback, divergenceOf = some callback → ∀ real fromOracle c,
      Returns (callback real fromOracle c)) :
    Returns (runCorpus (cases.map fun (pattern, text) => asCase pattern text) manifest engine oracle divergenceOf) := by
  unfold runCorpus
  rw [returns_bind]
  have hresults : Returns ((cases.map fun (pattern, text) => asCase pattern text).mapM
      (runCase manifest engine oracle divergenceOf)) := by
    refine returns_mapM.mpr fun c hc => ?_
    obtain ⟨⟨pattern, text⟩, -, rfl⟩ := List.mem_map.mp hc
    refine returns_map.mpr (returns_map.mpr ?_)
    cases hcall : divergenceOf with
    | none => exact returns_ok _
    | some callback => exact hcallback callback hcall _ _ _
  obtain ⟨results, hresults⟩ := hresults
  exact ⟨results, hresults, returns_ok _⟩

end

/-! ### The whole sweep -/

/-- The report of an exhaustive run sets nothing aside, tallies every pattern with every input, and is without a bug
exactly when the engine meets the oracle, or diverges as documented, on every pattern of the grammar within the cost and
every text of the input space. -/
theorem sweep_bugs_iff {manifest : Manifest} (hauthority : manifest.oracle ≠ "real_only")
    (engine oracle : Driver PyStr PyStr) (divergenceOf : Option (DivergenceOf PyStr PyStr)) {k : ℤ} {n : ℕ}
    {alphabet extra : PyStr} {report : CorpusReport PyStr}
    (hrun : runCorpus (asCases k n alphabet extra 1) manifest engine oracle divergenceOf = .ok report) :
    (report.counts.get excludedByDesign = some 0 ∧ report.counts.get outOfContract = some 0) ∧
    (report.counts.map Prod.snd).sum =
      (enumeratePatterns k alphabet 1).length * (enumerateInputs n alphabet extra).length ∧
    (report.counts.get bug = some 0 ↔ ∀ pattern, Derivable alphabet false k pattern →
      ∀ text, InputText n alphabet extra text → Explained manifest engine oracle divergenceOf pattern text) := by
  have hcomplete := runCorpus_spec (fun c hc => by
    obtain ⟨⟨pattern, text⟩, -, rfl⟩ := List.mem_map.mp hc
    rfl) hrun
  obtain ⟨results, hresults, hreport⟩ := bind_eq_ok.mp hrun
  obtain rfl := Except.ok.inj hreport
  have hall := List.forall₂_map_left_iff.mp (mapM_eq_ok.mp hresults)
  -- each result is the result of a pair, and each pair has one
  have hstatus : ∀ result ∈ results, result.status ∈ [pass, bug, intentionalDivergence] := by
    intro result hresult
    obtain ⟨⟨pattern, text⟩, -, hcase⟩ := forall₂_mem_right hall hresult
    exact (runCase_asCase hauthority hcase).1
  have hnever : ∀ status ∈ statuses, status ∉ [pass, bug, intentionalDivergence] →
      Dict.get (CorpusReport.counts ⟨manifest.origin, manifest, results, "static"⟩) status = some 0 := by
    intro status hmem hnot
    refine (get_counts_eq_zero _ hmem).mpr fun result hresult heq => hnot ?_
    exact heq ▸ hstatus result hresult
  refine ⟨⟨hnever _ (by decide) (by decide), hnever _ (by decide) (by decide)⟩, ?_, ?_⟩
  · rw [hcomplete.counted, asCases, List.length_map, length_enumerateCases]
  · rw [get_counts_eq_zero _ (by decide : bug ∈ statuses)]
    constructor
    · intro hnone pattern hpattern text htext
      obtain ⟨result, hresult, hcase⟩ := forall₂_mem_left hall
        (mem_enumerateCases.mpr ⟨mem_enumeratePatterns_tier1.mpr hpattern, htext⟩)
      exact (runCase_asCase hauthority hcase).2.mp (hnone result hresult)
    · intro hagrees result hresult
      obtain ⟨⟨pattern, text⟩, hpair, hcase⟩ := forall₂_mem_right hall hresult
      obtain ⟨hpattern, htext⟩ := mem_enumerateCases.mp hpair
      exact (runCase_asCase hauthority hcase).2.mpr
        (hagrees pattern (mem_enumeratePatterns_tier1.mp hpattern) text htext)

/-- A driver that finds a match everywhere, and one that crashes on the pattern `a`. -/
def matchesAll : Driver PyStr PyStr := fun _ _ _ _ => .ok (matchDict [0, 0] [])

def crashesOnA : Driver PyStr PyStr := fun pattern _ _ _ =>
  if pattern = py "a" then .error "ValueError" else .ok (matchDict [0, 0] [])

theorem sweep_bugs_iff_crash :
    (∃ report, runCorpus (asCases 2 3 (py "ab") (py "c") 1) (searchManifest "python_re") matchesAll matchesAll none =
        .ok report ∧ report.counts.get bug = some 0) ∧
      ∃ report, runCorpus (asCases 2 3 (py "ab") (py "c") 1) (searchManifest "python_re") crashesOnA matchesAll none =
        .ok report ∧ report.counts.get bug ≠ some 0 := by
  have hauthority : (searchManifest "python_re").oracle ≠ "real_only" := by decide
  have hnone : ∀ callback, (none : Option (DivergenceOf PyStr PyStr)) = some callback →
      ∀ real fromOracle c, Returns (callback real fromOracle c) := fun _ h => nomatch h
  constructor
  · obtain ⟨report, hrun⟩ := returns_sweep (searchManifest "python_re") matchesAll matchesAll _ hnone
    refine ⟨report, hrun, (sweep_bugs_iff hauthority _ _ none hrun).2.2.mpr fun pattern _ text _ => ?_⟩
    exact ⟨rfl, .inl rfl⟩
  · obtain ⟨report, hrun⟩ := returns_sweep (searchManifest "python_re") crashesOnA matchesAll _ hnone
    refine ⟨report, hrun, fun hzero => ?_⟩
    have hderivable : Derivable (py "ab") false 2 (py "a") :=
      ⟨1, 1, by decide, .one (.seq (.one (.atom (.letter (by decide)))) (by decide)), by decide⟩
    have hcrash := ((sweep_bugs_iff hauthority _ _ none hrun).2.2.mp hzero (py "a") hderivable []
      (.inl ⟨Nat.zero_le _, fun c hc => absurd hc List.not_mem_nil⟩)).1
    exact absurd hcrash (by decide)

end SciForge.Corpus
