import SciForge.Corpus.NormalForm

/-!
# Who judges a row

A corpus written for other semantics than its oracle's sets rows aside; one whose stored expectations are the
authority never does.
-/

namespace SciForge.Corpus

variable {π ι : Type}

/-- A case the classifier decides alone: nothing required, no status pinned. -/
structure Plain (c : Case π ι) : Prop where
  requires : c.requires = ""
  override : c.statusExpected = none

lemma pinsStatus_plain {c : Case π ι} (hc : Plain c) : pinsStatus c = none := by
  unfold pinsStatus
  rw [hc.override]

lemma divergenceLink_plain {c : Case π ι} (hc : Plain c) : divergenceLink c = none := by
  unfold divergenceLink
  rw [hc.override]

/-- What the run gives a plain case: the classifier's status, with the link its callback finds. -/
lemma runCorpus_plain {cases : List (Case π ι)} {manifest : Manifest} {engine oracle : Driver π ι}
    {divergenceOf : Option (DivergenceOf π ι)} {report : CorpusReport π}
    (hrun : runCorpus cases manifest engine oracle divergenceOf = .ok report) {i : ℕ} {c : Case π ι}
    (hc : cases[i]? = some c) (hplain : Plain c) :
    ∃ result link, report.results[i]? = some result ∧
      caseLink divergenceOf (observe engine c manifest.api) (oracleResult c manifest oracle) c = .ok link ∧
      result.status = classify (observe engine c manifest.api) (oracleResult c manifest oracle) c.expected
        manifest.semantics manifest.oracle "" link := by
  obtain ⟨result, hresult, hcase⟩ := runCorpus_result hrun hc
  obtain ⟨status, hstatus, rfl⟩ := map_eq_ok.mp hcase
  unfold caseStatus at hstatus
  rw [pinsStatus_plain hplain] at hstatus
  obtain ⟨link, hlink, rfl⟩ := map_eq_ok.mp hstatus
  rw [hplain.requires] at hresult
  exact ⟨_, link, hresult, hlink, rfl⟩

/-! ### Rows written for other semantics -/

/-- The guard of rule 2, on an engine that meets the oracle or the row: it fires exactly on a stored outcome
the oracle does not meet, unless that outcome is the absent one. -/
lemma classify_foreign {real fromOracle expected : Observable} {semantics oracle : String} (link : Option String)
    (horacle : oracle ≠ "real_only") (hforeign : some semantics ≠ oracleSemantics.get oracle)
    (hcrash : real.crashed = false) (hreal : real = fromOracle ∨ expectationHolds expected real = true) :
    classify real fromOracle expected semantics oracle "" link = outOfContract ↔
      expected ≠ .noMatch ∧ expectationHolds expected fromOracle = false := by
  unfold classify
  rw [if_neg (by decide), if_neg (by simp [hcrash]), if_neg horacle]
  by_cases hguard : expected ≠ .noMatch ∧ expectationHolds expected fromOracle = false
  · rw [if_pos ⟨hforeign, hguard.1, hguard.2, hreal⟩]
    simp [hguard]
  · rw [if_neg (fun h => hguard ⟨h.2.1, h.2.2.1⟩)]
    apply iff_of_false _ hguard
    split_ifs <;> decide

/-- A run of a corpus written for other semantics than its oracle's. -/
structure ForeignRun (cases : List (Case π ι)) (manifest : Manifest) (engine oracle : Driver π ι)
    (report : CorpusReport π) : Prop where
  authority : manifest.oracle ≠ "real_only"
  foreign : some manifest.semantics ≠ oracleSemantics.get manifest.oracle
  run : ∃ divergenceOf, runCorpus cases manifest engine oracle divergenceOf = .ok report

lemma parseDatResult_noMatch {u : UnicodeTable} {field : PyStr} {expected : Observable}
    (h : parseDatResult u field = .ok (some expected)) : expected = .noMatch ↔ field = py "NOMATCH" := by
  unfold parseDatResult at h
  split at h
  · next hfield =>
    obtain rfl := Option.some.inj (Except.ok.inj h)
    simp [hfield]
  · next hfield =>
    apply iff_of_false _ hfield
    rintro rfl
    split at h
    · cases h
    · split at h
      · cases h
      · split at h
        · cases h
        · split at h
          · cases h
          · split at h <;> cases h

lemma keepsDat_plain {u : UnicodeTable} {raw outcome : PyStr} {c : Case PyStr PyStr} (hkept : KeepsDat u raw c)
    (houtcome : outcomeField raw = some outcome) :
    Plain c ∧ parseDatResult u outcome = .ok (some c.expected) := by
  obtain ⟨before, cs, added, filtered, filtered', hbefore, hraw, hadded⟩ := hkept
  obtain ⟨last, next, hline⟩ := datLine_of_loop hbefore hraw hadded
  obtain ⟨outcome', expected, ho, hparse, flags, pattern, text, rfl⟩ := datLine_cases hline
  obtain rfl := Option.some.inj (ho.symm.trans houtcome)
  obtain ⟨hreq, hov, hexpected⟩ := datCases_plain hadded
  rw [hexpected]
  exact ⟨⟨hreq, hov⟩, hparse⟩

/-- With an engine that meets the oracle or the row, a Fowler row is set aside exactly when the oracle does not
meet its outcome, except a `NOMATCH` row where the oracle finds something. -/
theorem foreign_row_set_aside_iff (u : UnicodeTable) (raw outcome : PyStr) (c : Case PyStr PyStr)
    (hkept : KeepsDat u raw c) (houtcome : outcomeField raw = some outcome) (cases : List (Case PyStr PyStr))
    (manifest : Manifest) (engine oracle : Driver PyStr PyStr) (report : CorpusReport PyStr)
    (hrun : ForeignRun cases manifest engine oracle report) (i : ℕ) (hc : cases[i]? = some c)
    (hcrash : (observe engine c manifest.api).crashed = false)
    (hreal : observe engine c manifest.api = observe oracle c manifest.api ∨
      expectationHolds c.expected (observe engine c manifest.api) = true) :
    (report.results[i]?.map CaseResult.status = some outOfContract ↔
        expectationHolds c.expected (observe oracle c manifest.api) = false) ↔
      outcome ≠ py "NOMATCH" ∨ observe oracle c manifest.api = .noMatch := by
  obtain ⟨hplain, hparse⟩ := keepsDat_plain hkept houtcome
  obtain ⟨divergenceOf, hreport⟩ := hrun.run
  obtain ⟨result, link, hresult, -, hstatus⟩ := runCorpus_plain hreport hc hplain
  have hfrom : oracleResult c manifest oracle = observe oracle c manifest.api := if_neg hrun.authority
  rw [hfrom] at hstatus
  have hset := classify_foreign link hrun.authority hrun.foreign hcrash hreal
  have hrow : outcome ≠ py "NOMATCH" ↔ c.expected ≠ .noMatch := (parseDatResult_noMatch hparse).not.symm
  rw [hresult, Option.map_some, Option.some.injEq, hstatus, hset, hrow]
  by_cases hexpected : c.expected = .noMatch
  · have hholds : expectationHolds .noMatch (observe oracle c manifest.api) = false ↔
        observe oracle c manifest.api ≠ .noMatch := by
      simp [expectationHolds, eq_comm]
    rw [hexpected, hholds]
    simp
  · simp [hexpected]

def posixManifest : Manifest :=
  ⟨"fowler", "x", "MIT", "a", "2026-07-03", "posix", "text", "search", "python_re", ""⟩

/-- `\d` is a digit to the oracle and not to POSIX. -/
def digitLine (outcome : String) : PyStr := py ("E\t\\d\t1\t" ++ outcome)

def digitCase (expected : Observable) : Case PyStr PyStr := ⟨py "\\d", py "1", expected, [], "", none⟩

def digitFound : Driver PyStr PyStr := fun _ _ _ _ => .ok (matchObservable (some ⟨(0, 1), []⟩))

/-- A run of one row on an engine and an oracle that both find the digit. -/
def digitRun (expected : Observable) : Except String (CorpusReport PyStr) :=
  runCorpus [digitCase expected] posixManifest digitFound digitFound none

lemma keepsDat_digit (outcome : String) (expected : Observable)
    (h : datLine noUnicode [] (digitLine outcome) = .ok (.cases [digitCase expected], py "\\d")) :
    KeepsDat noUnicode (digitLine outcome) (digitCase expected) := by
  apply Exists.intro []
  refine ⟨[], [digitCase expected], 0, 0, rfl, ?_, List.mem_singleton_self _⟩
  unfold loadCasesDat
  rw [List.nil_append, loadCasesDatLoop, h]
  rfl

/-- The row states no match, the oracle finds one, the engine agrees with the oracle: the case passes. -/
theorem noMatch_row_passes :
    KeepsDat noUnicode (digitLine "NOMATCH") (digitCase .noMatch) ∧
      posixManifest.validate = .ok posixManifest ∧ posixManifest.oracle ≠ "real_only" ∧
      some posixManifest.semantics ≠ oracleSemantics.get posixManifest.oracle ∧
      expectationHolds (digitCase .noMatch).expected (observe digitFound (digitCase .noMatch) "search") = false ∧
      (digitRun .noMatch).map (fun report => report.results.map CaseResult.status) = .ok [pass] := by
  exact ⟨keepsDat_digit _ _ rfl, rfl, by decide, by decide, rfl, rfl⟩

/-- A `NOMATCH` row is not set aside, and a row that states another match is. -/
theorem digit_rows_set_aside :
    (∃ report, digitRun (.str "error") = .ok report ∧
      (report.results[0]?.map CaseResult.status = some outOfContract ↔
        expectationHolds (.str "error") (observe digitFound (digitCase (.str "error")) "search") = false)) ∧
    ∃ report, digitRun .noMatch = .ok report ∧
      ¬(report.results[0]?.map CaseResult.status = some outOfContract ↔
        expectationHolds .noMatch (observe digitFound (digitCase .noMatch) "search") = false) := by
  apply And.intro
  · apply Exists.intro
    apply And.intro rfl
    apply (foreign_row_set_aside_iff noUnicode (digitLine "BADPAT") (py "BADPAT") (digitCase (.str "error"))
      (keepsDat_digit _ _ rfl) rfl [digitCase (.str "error")] posixManifest digitFound digitFound _
      ⟨by decide, by decide, none, rfl⟩ 0 rfl rfl (.inl rfl)).mpr
    exact .inl (by decide)
  · apply Exists.intro
    apply And.intro rfl
    apply (foreign_row_set_aside_iff noUnicode (digitLine "NOMATCH") (py "NOMATCH") (digitCase .noMatch)
      (keepsDat_digit _ _ rfl) rfl [digitCase .noMatch] posixManifest digitFound digitFound _
      ⟨by decide, by decide, none, rfl⟩ 0 rfl rfl (.inl rfl)).not.mpr
    decide

/-! ### Rows whose stored outcome is the authority -/

/-- The callback links the disagreement: it answers with a link, not with `None` or the empty text. -/
def GivesLink (divergenceOf : Option (DivergenceOf π ι)) (real expected : Observable) (c : Case π ι) : Prop :=
  ∃ callback link, divergenceOf = some callback ∧ callback real expected c = .ok (some link) ∧ link ≠ ""

lemma missingText_caseLink {divergenceOf : Option (DivergenceOf π ι)} {real expected : Observable} {c : Case π ι}
    {link : Option String} (hplain : Plain c) (h : caseLink divergenceOf real expected c = .ok link) :
    missingText link = false ↔ GivesLink divergenceOf real expected c := by
  unfold caseLink at h
  rw [divergenceLink_plain hplain] at h
  cases divergenceOf with
  | none =>
    obtain rfl := Except.ok.inj h
    apply iff_of_false (by simp [missingText])
    rintro ⟨callback, text, hcallback, -, -⟩
    cases hcallback
  | some callback =>
    dsimp only at h
    constructor
    · intro htext
      cases link with
      | none => simp [missingText] at htext
      | some text => exact ⟨callback, text, rfl, h, by simpa [missingText] using htext⟩
    · rintro ⟨callback', text, hcallback, htext, hne⟩
      obtain rfl := Option.some.inj hcallback
      obtain rfl := Except.ok.inj (h.symm.trans htext)
      simpa [missingText] using hne

/-- What a run under `real_only` gives a plain case. -/
structure RealOnlyStatus (divergenceOf : Option (DivergenceOf π ι)) (engine : Driver π ι) (api : String)
    (c : Case π ι) (status : String) : Prop where
  inContract : status ≠ outOfContract
  raised : ∀ name, engine c.pattern c.input api c.flags = .error name → status = bug
  reported : ∀ observed, engine c.pattern c.input api c.flags = .ok observed → observed.crashed = true → status = bug
  agrees : ∀ observed, engine c.pattern c.input api c.flags = .ok observed → observed.crashed = false →
    (status = pass ↔ expectationHolds c.expected observed = true)
  linked : ∀ observed, engine c.pattern c.input api c.flags = .ok observed → observed.crashed = false →
    expectationHolds c.expected observed = false →
    (status = intentionalDivergence ↔ GivesLink divergenceOf observed c.expected c) ∧
      (status = bug ↔ ¬GivesLink divergenceOf observed c.expected c)

lemma classify_real_only_ne {real expected : Observable} (semantics : String) (link : Option String) :
    classify real expected expected semantics "real_only" "" link ≠ outOfContract := by
  unfold classify
  rw [if_neg (by decide)]
  by_cases hcrash : real.crashed = true
  · rw [if_pos hcrash]
    decide
  · rw [if_neg hcrash, if_neg (by simp [expectationHolds_self])]
    split_ifs <;> decide

lemma classify_real_only_of_not_holds {real expected : Observable} (hcrash : real.crashed = false)
    (hholds : expectationHolds expected real = false) (semantics : String) (link : Option String) :
    classify real expected expected semantics "real_only" "" link =
      if missingText link = false then intentionalDivergence else bug := by
  unfold classify
  rw [if_neg (by decide), if_neg (by simp [hcrash]), if_neg (by simp [expectationHolds_self])]
  rw [if_neg (by simp [hholds])]

lemma realOnlyStatus {cases : List (Case π ι)} {manifest : Manifest} {engine oracle : Driver π ι}
    {divergenceOf : Option (DivergenceOf π ι)} {report : CorpusReport π} (horacle : manifest.oracle = "real_only")
    (hrun : runCorpus cases manifest engine oracle divergenceOf = .ok report) {i : ℕ} {c : Case π ι}
    (hc : cases[i]? = some c) (hplain : Plain c) :
    ∃ result, report.results[i]? = some result ∧
      RealOnlyStatus divergenceOf engine manifest.api c result.status := by
  obtain ⟨result, link, hresult, hlink, hstatus⟩ := runCorpus_plain hrun hc hplain
  have hexpected : oracleResult c manifest oracle = c.expected := if_pos horacle
  rw [hexpected] at hlink hstatus
  rw [horacle] at hstatus
  have hobserve : ∀ observed, engine c.pattern c.input manifest.api c.flags = .ok observed →
      observe engine c manifest.api = observed := by
    intro observed hengine
    unfold observe
    rw [hengine]
  apply Exists.intro result
  apply And.intro hresult
  rw [hstatus]
  constructor
  · exact classify_real_only_ne _ _
  · intro name hname
    exact classify_of_crashed (observe_crashed hname) _ _ _ _ _
  · intro observed hengine hcrash
    rw [hobserve observed hengine]
    exact classify_of_crashed hcrash _ _ _ _ _
  · intro observed hengine hcrash
    rw [hobserve observed hengine]
    exact classify_real_only hcrash _ _
  · intro observed hengine hcrash hholds
    rw [hobserve observed hengine] at hlink ⊢
    rw [classify_real_only_of_not_holds hcrash hholds, ← missingText_caseLink hplain hlink]
    split_ifs with hmissing
    · simp [hmissing, bug, intentionalDivergence]
    · simp [hmissing, bug, intentionalDivergence]

lemma returns_runCorpus_plain {cases : List (Case π ι)} {manifest : Manifest} {engine oracle : Driver π ι}
    {divergenceOf : Option (DivergenceOf π ι)} (hplain : ∀ c ∈ cases, Plain c)
    (hanswers : ∀ callback ∈ divergenceOf, ∀ c ∈ cases, ∀ real expected, Returns (callback real expected c)) :
    Returns (runCorpus cases manifest engine oracle divergenceOf) := by
  unfold runCorpus
  rw [returns_bind]
  have hall : ∀ c ∈ cases, Returns (runCase manifest engine oracle divergenceOf c) := by
    intro c hc
    unfold runCase
    rw [returns_map]
    unfold caseStatus
    rw [pinsStatus_plain (hplain c hc), returns_map]
    unfold caseLink
    rw [divergenceLink_plain (hplain c hc)]
    cases divergenceOf with
    | none => exact returns_ok _
    | some callback => exact hanswers callback rfl c hc _ _
  obtain ⟨results, hresults⟩ := returns_mapM.mpr hall
  exact ⟨results, hresults, returns_ok _⟩

/-- Under `real_only` the stored expectation is the whole authority: whatever the semantics of the manifest and
the other cases of the run, and a run of plain cases ends whenever the callback answers. -/
theorem real_only_authority (manifest : Manifest) (horacle : manifest.oracle = "real_only")
    (cases : List (Case π ι)) (engine oracle : Driver π ι) (divergenceOf : Option (DivergenceOf π ι)) :
    (∀ report, runCorpus cases manifest engine oracle divergenceOf = .ok report →
      ∀ (i : ℕ) c, cases[i]? = some c → c.requires = "" → c.statusExpected = none →
        ∃ result, report.results[i]? = some result ∧
          RealOnlyStatus divergenceOf engine manifest.api c result.status) ∧
    ((∀ c ∈ cases, Plain c) →
      (∀ callback ∈ divergenceOf, ∀ c ∈ cases, ∀ real expected, Returns (callback real expected c)) →
      Returns (runCorpus cases manifest engine oracle divergenceOf)) := by
  apply And.intro
  · intro report hrun i c hc hreq hov
    exact realOnlyStatus horacle hrun hc ⟨hreq, hov⟩
  · exact returns_runCorpus_plain

def ownManifest : Manifest := { posixManifest with oracle := "real_only" }

/-- On a posix manifest whose authority is the row, the row that states no match is a bug of an engine that
finds one. -/
theorem real_only_authority_digit :
    ∃ report result, runCorpus [digitCase .noMatch] ownManifest digitFound digitFound none = .ok report ∧
      report.results[0]? = some result ∧ result.status = bug := by
  obtain ⟨hstatus, hreturns⟩ := real_only_authority ownManifest rfl [digitCase .noMatch] digitFound digitFound none
  have hplain : ∀ c ∈ [digitCase .noMatch], Plain c := by
    intro c hc
    rw [List.mem_singleton.mp hc]
    exact ⟨rfl, rfl⟩
  obtain ⟨report, hrun⟩ := hreturns hplain (fun callback h => nomatch h)
  obtain ⟨result, hresult, hdecided⟩ := hstatus report hrun 0 (digitCase .noMatch) rfl rfl rfl
  refine ⟨report, result, hrun, hresult, ?_⟩
  have hlinked := hdecided.linked (matchObservable (some ⟨(0, 1), []⟩)) rfl rfl rfl
  apply hlinked.2.mpr
  rintro ⟨callback, link, hcallback, -, -⟩
  cases hcallback

end SciForge.Corpus
