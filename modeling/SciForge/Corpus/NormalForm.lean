import SciForge.Corpus.CorpusRuns
import SciForge.Corpus.ExpectationOrder
import SciForge.Corpus.RustOffsets
import SciForge.Corpus.Fowler

/-!
# Expectations and observables in one normal form

What a loaded entry says of the matches, what a driver reports of them, and when the two compare equal.
-/

namespace SciForge.Corpus

variable {π ι : Type}

/-! ### Under `real_only` -/

lemma expectationHolds_self (o : Observable) : expectationHolds o o = true := holds_refl o

lemma classify_real_only {real expected : Observable} (hreal : real.crashed = false) (semantics : String)
    (link : Option String) :
    classify real expected expected semantics "real_only" "" link = pass ↔
      expectationHolds expected real = true := by
  unfold classify
  rw [if_neg (by decide), if_neg (by simp [hreal]), if_neg (by simp [expectationHolds_self])]
  rw [if_pos rfl]
  by_cases h : expectationHolds expected real = true
  · simp [h]
  · rw [if_neg h]
    refine iff_of_false ?_ h
    split_ifs <;> decide

lemma runCorpus_result {cases : List (Case π ι)} {manifest : Manifest} {engine oracle : Driver π ι}
    {divergenceOf : Option (DivergenceOf π ι)} {report : CorpusReport π}
    (h : runCorpus cases manifest engine oracle divergenceOf = .ok report) {i : ℕ} {c : Case π ι}
    (hc : cases[i]? = some c) : ∃ result, report.results[i]? = some result ∧
      runCase manifest engine oracle divergenceOf c = .ok result := by
  obtain ⟨results, hresults, h⟩ := bind_eq_ok.mp h
  cases h
  have hloop := mapM_eq_ok.mp hresults
  clear hresults h
  induction hloop generalizing i with
  | nil => simp at hc
  | cons hr _ ih =>
    cases i with
    | zero =>
      obtain rfl := Option.some.inj hc
      exact ⟨_, rfl, hr⟩
    | succ i => exact ih hc

lemma status_real_only {cases : List (Case π ι)} {manifest : Manifest} {engine oracle : Driver π ι}
    {divergenceOf : Option (DivergenceOf π ι)} {report : CorpusReport π}
    (hrun : runCorpus cases manifest engine oracle divergenceOf = .ok report) {i : ℕ} {c : Case π ι}
    (hc : cases[i]? = some c) (horacle : manifest.oracle = "real_only") (hreq : c.requires = "")
    (hov : c.statusExpected = none) {observed : Observable}
    (hengine : engine c.pattern c.input manifest.api c.flags = .ok observed) (hcrash : observed.crashed = false) :
    report.results[i]?.map CaseResult.status = some pass ↔ expectationHolds c.expected observed = true := by
  obtain ⟨result, hresult, hcase⟩ := runCorpus_result hrun hc
  obtain ⟨status, hstatus, rfl⟩ := map_eq_ok.mp hcase
  rw [hresult, Option.map_some, Option.some.injEq]
  have hpin : pinsStatus c = none := by
    unfold pinsStatus
    rw [hov]
  have hreal : observe engine c manifest.api = observed := by
    unfold observe
    rw [hengine]
  have hexpected : oracleResult c manifest oracle = c.expected := by
    unfold oracleResult
    rw [if_pos horacle]
  unfold caseStatus at hstatus
  rw [hpin, hreal, hexpected] at hstatus
  obtain ⟨link, -, rfl⟩ := map_eq_ok.mp hstatus
  rw [hreq, horacle]
  exact classify_real_only hcrash manifest.semantics link

/-! ### What an engine finds -/

/-- The character offset of a byte offset. -/
def AtByte (haystack : List Char) (byte index : ℤ) : Prop :=
  ∃ i ≤ haystack.length, index = i ∧ byte = utf8Length (haystack.take i)

def SameSpan (haystack : List Char) (stated found : ℤ × ℤ) : Prop :=
  AtByte haystack stated.1 found.1 ∧ AtByte haystack stated.2 found.2

/-- A group that took no part has span `(-1, -1)`. -/
def SameGroup (haystack : List Char) : Option (ℤ × ℤ) → ℤ × ℤ → Prop
  | some stated, found => SameSpan haystack stated found
  | none, found => found = (-1, -1)

structure SameMatch (haystack : List Char) (stated : RustMatch) (found : ReMatch) : Prop where
  span : SameSpan haystack stated.whole found.span
  groups : List.Forall₂ (SameGroup haystack) stated.groups found.groups

def findings (found : List ReMatch) : Observable := .list (found.map (fun m => matchObservable (some m)))

/-- The module's driver under `finditer` reports the matches the module finds. -/
theorem reLikeEngine_finditer {ρ : Type} {module : ReModule π ι ρ} {pattern : π} {text : ι} {compiled : ρ}
    {found : List ReMatch} (hcompile : module.compile pattern 0 = .ok compiled)
    (hfind : module.finditer compiled text = .ok found) :
    reLikeEngine module pattern text "finditer" [] = .ok (findings found) := by
  unfold reLikeEngine
  simp only [List.foldlM_nil, pure_bind, hcompile, if_true, hfind]
  rfl

/-! ### The rust adapter -/

lemma pairSpan_of_sameSpan {haystack : List Char} {stated found : ℤ × ℤ} (h : SameSpan haystack stated found) :
    pairSpan haystack stated = some [found.1, found.2] := by
  obtain ⟨⟨s, hs, hstart, hstartByte⟩, e, he, hstop, hstopByte⟩ := h
  have hfirst : charIndex haystack stated.1 = some s := charIndex_eq_some.mpr ⟨hs, hstartByte⟩
  have hsecond : charIndex haystack stated.2 = some e := charIndex_eq_some.mpr ⟨he, hstopByte⟩
  rw [pairSpan, hfirst, hsecond, hstart, hstop]
  rfl

def storedGroup (stated : Option (ℤ × ℤ)) (found : ℤ × ℤ) : Span :=
  if stated.isSome then [found.1, found.2] else []

lemma groupSpan_of_sameGroup {haystack : List Char} {stated : Option (ℤ × ℤ)} {found : ℤ × ℤ}
    (h : SameGroup haystack stated found) : groupSpan haystack stated = some (storedGroup stated found) := by
  cases stated with
  | none => rfl
  | some s => exact pairSpan_of_sameSpan h

def storedMatch (stated : RustMatch) (found : ReMatch) : Observable :=
  matchDict [found.span.1, found.span.2] (List.zipWith storedGroup stated.groups found.groups)

lemma matchOf_of_sameMatch {haystack : List Char} {stated : RustMatch} {found : ReMatch}
    (h : SameMatch haystack stated found) : matchOf haystack stated = some (storedMatch stated found) := by
  have hgroups : stated.groups.mapM (groupSpan haystack) =
      some (List.zipWith storedGroup stated.groups found.groups) :=
    mapM_zipWith (fun _ _ hg => groupSpan_of_sameGroup hg) h.groups
  rw [matchOf, pairSpan_of_sameSpan h.span, Option.bind_some, hgroups]
  rfl

lemma mapM_matchOf {haystack : List Char} {stated : List RustMatch} {found : List ReMatch}
    (h : List.Forall₂ (SameMatch haystack) stated found) :
    stated.mapM (matchOf haystack) = some (List.zipWith storedMatch stated found) :=
  mapM_zipWith (fun _ _ hm => matchOf_of_sameMatch hm) h

lemma expectationHolds_storedMatch {haystack : List Char} {stated : RustMatch} {found : ReMatch}
    (h : SameMatch haystack stated found) :
    expectationHolds (storedMatch stated found) (matchObservable (some found)) = true ↔
      none ∉ stated.groups := by
  have hgroups := h.groups
  unfold storedMatch matchObservable matchDict expectationHolds
  simp only [decide_true, Bool.true_and, Option.getD_some, decide_eq_true_eq]
  revert hgroups
  generalize stated.groups = groups
  generalize found.groups = spans
  intro hgroups
  induction hgroups with
  | nil => simp
  | @cons s f ss fs hg _ ih =>
    cases s with
    | none => simp [storedGroup]
    | some s => simpa [storedGroup] using ih

lemma allHold_stored {haystack : List Char} {stated : List RustMatch} {found : List ReMatch}
    (h : List.Forall₂ (SameMatch haystack) stated found) :
    allHold (List.zipWith storedMatch stated found) (found.map (fun m => matchObservable (some m))) = true ↔
      ∀ m ∈ stated, none ∉ m.groups := by
  induction h with
  | nil => simp [allHold]
  | cons hm _ ih =>
    rw [List.zipWith_cons_cons, List.map_cons, allHold, Bool.and_eq_true, expectationHolds_storedMatch hm, ih,
      List.forall_mem_cons]

lemma expectationHolds_stored {haystack : List Char} {stated : List RustMatch} {found : List ReMatch}
    (h : List.Forall₂ (SameMatch haystack) stated found) :
    expectationHolds (.list (List.zipWith storedMatch stated found)) (findings found) = true ↔
      ∀ m ∈ stated, none ∉ m.groups := by
  have hlen : (List.zipWith storedMatch stated found).length =
      (found.map (fun m => matchObservable (some m))).length := by
    rw [List.length_zipWith, List.length_map, h.length_eq, Nat.min_self]
  unfold findings expectationHolds
  rw [decide_eq_true hlen, Bool.true_and]
  exact allHold_stored h

/-- A kept entry is the plain case whose expectation is the stored form of its matches. -/
lemma rustEntry_kept {entry : Dict String Toml} {c : Case Toml PyStr} {haystack : List Char}
    {stated : List RustMatch} {found : List ReMatch} (hkept : rustEntry entry = .ok (some c))
    (htext : EntryHaystack entry haystack) (hstated : EntryMatches entry stated)
    (hfound : List.Forall₂ (SameMatch haystack) stated found) :
    c.requires = "" ∧ c.statusExpected = none ∧
      c.expected = .list (List.zipWith storedMatch stated found) := by
  have hout : outOfApi entry = false := by
    cases hout : outOfApi entry with
    | false => rfl
    | true =>
      unfold rustEntry at hkept
      rw [hout] at hkept
      cases hkept
  rw [rustEntry_offered hout htext hstated, mapM_matchOf hfound] at hkept
  obtain ⟨regex, -, hkept⟩ := map_eq_ok.mp hkept
  obtain rfl := Option.some.inj hkept
  exact ⟨rfl, rfl, rfl⟩

/-! ### What a Fowler line says -/

/-- A match array as text: pairs of numbers, `?` for -1, with the spans they state. -/
inductive Stated (u : UnicodeTable) : PyStr → List Span → Prop
  | nil : Stated u [] []
  | pair {a b rest : PyStr} {x y : ℤ} {spans : List Span} (ha : a ≠ []) (hcomma : ord ',' ∉ a)
      (hx : tokenValue u a = some x) (hb : b ≠ []) (hclose : ord ')' ∉ b) (hy : tokenValue u b = some y)
      (hrest : Stated u rest spans) :
      Stated u (ord '(' :: (a ++ ord ',' :: (b ++ ord ')' :: rest))) ([x, y] :: spans)

/-- The observables that meet an outcome field. -/
inductive Meets (u : UnicodeTable) : PyStr → Observable → Prop
  | noMatch : Meets u (py "NOMATCH") .noMatch
  | rejected {c : PyChar} {rest : PyStr} (hc : ord 'A' ≤ c ∧ c ≤ ord 'Z') (hne : c :: rest ≠ py "NOMATCH") :
      Meets u (c :: rest) (.str "error")
  | found {field : PyStr} {span : Span} {groups : List Span} (h : Stated u field (span :: groups))
      (extra : List Span) : Meets u field (matchDict span (groups ++ extra))

def outcomeField (raw : PyStr) : Option PyStr :=
  (nullFields (splitParts (ord '\t') (raw.rdropWhile (fun c => c = ord '\n'))))[3]?

/-! ### The Fowler adapter -/

lemma findIdx?_append_cons {token rest : PyStr} {stop : PyChar} (h : stop ∉ token) :
    (token ++ stop :: rest).findIdx? (fun c => c = stop) = some token.length := by
  induction token with
  | nil => simp [List.findIdx?_cons]
  | cons c token ih =>
    have hne : c ≠ stop := fun he => h (he ▸ List.mem_cons_self)
    have hi := ih (fun hm => h (List.mem_cons_of_mem c hm))
    rw [List.cons_append, List.findIdx?_cons, hi]
    simp [hne]

lemma splitToken_append {token rest : PyStr} {stop : PyChar} (hne : token ≠ []) (h : stop ∉ token) :
    splitToken stop (token ++ stop :: rest) = some (token, rest) := by
  obtain ⟨c, tail, rfl⟩ := List.exists_cons_of_ne_nil hne
  unfold splitToken
  rw [findIdx?_append_cons h, List.length_cons]
  simp

lemma parseValues_token {u : UnicodeTable} {values : List ℤ} {field body token rest : PyStr} {stop : PyChar}
    {x : ℤ} (hfield : field ≠ []) (hopen : openValue values field = some (body, stop))
    (hbody : body = token ++ stop :: rest) (hne : token ≠ []) (hstop : stop ∉ token)
    (hx : tokenValue u token = some x) :
    parseValues u values field = parseValues u (values ++ [x]) rest := by
  have hsplit : splitToken stop body = some (token, rest) := by
    rw [hbody]
    exact splitToken_append hne hstop
  rw [parseValues, if_neg hfield]
  split
  · next h => rw [h] at hopen; cases hopen
  · next body' stop' h =>
    obtain ⟨rfl, rfl⟩ := Prod.mk.inj (Option.some.inj (h.symm.trans hopen))
    split
    · next h => rw [h] at hsplit; cases hsplit
    · next token' after h =>
      obtain ⟨rfl, rfl⟩ := Prod.mk.inj (Option.some.inj (h.symm.trans hsplit))
      rw [hx]

lemma parseValues_stated {u : UnicodeTable} {field : PyStr} {spans : List Span} (h : Stated u field spans)
    {values : List ℤ} (hvalues : values.length % 2 = 0) :
    parseValues u values field = some (values ++ spans.flatten) := by
  induction h generalizing values with
  | nil => rw [parseValues, if_pos rfl, List.flatten_nil, List.append_nil]
  | @pair a b rest x y spans ha hcomma hx hb hclose hy _ ih =>
    have hfirst : openValue values (ord '(' :: (a ++ ord ',' :: (b ++ ord ')' :: rest))) =
        some (a ++ ord ',' :: (b ++ ord ')' :: rest), ord ',') := by
      unfold openValue
      rw [if_pos hvalues]
      simp
    have hodd : (values ++ [x]).length % 2 ≠ 0 := by
      rw [List.length_append, List.length_singleton]
      omega
    have hsecond : openValue (values ++ [x]) (b ++ ord ')' :: rest) = some (b ++ ord ')' :: rest, ord ')') := by
      unfold openValue
      rw [if_neg hodd]
    have heven : (values ++ [x] ++ [y]).length % 2 = 0 := by
      rw [List.length_append, List.length_singleton]
      omega
    rw [parseValues_token (by simp) hfirst rfl ha hcomma hx,
      parseValues_token (by simp) hsecond rfl hb hclose hy, ih heven, List.flatten_cons,
      List.append_assoc, List.append_assoc]
    rfl

lemma pairsOf_stated {u : UnicodeTable} {field : PyStr} {spans : List Span} (h : Stated u field spans) :
    pairsOf spans.flatten = spans ∧ spans.flatten.length % 2 = 0 := by
  induction h with
  | nil => exact ⟨rfl, rfl⟩
  | pair _ _ _ _ _ _ _ ih =>
    obtain ⟨hpairs, heven⟩ := ih
    refine ⟨?_, ?_⟩
    · rw [List.flatten_cons]
      exact congrArg _ hpairs
    · rw [List.flatten_cons, List.length_append]
      simp only [List.length_cons, List.length_nil]
      omega

lemma stated_cons {u : UnicodeTable} {field : PyStr} {span : Span} {groups : List Span}
    (h : Stated u field (span :: groups)) : ∃ rest, field = ord '(' :: rest := by
  cases h with
  | pair => exact ⟨_, rfl⟩

lemma parseDatResult_stated {u : UnicodeTable} {field : PyStr} {span : Span} {groups : List Span}
    (h : Stated u field (span :: groups)) :
    parseDatResult u field = .ok (some (matchDict span groups)) := by
  obtain ⟨rest, rfl⟩ := stated_cons h
  obtain ⟨hpairs, heven⟩ := pairsOf_stated h
  unfold parseDatResult
  have hne : ord '(' :: rest ≠ py "NOMATCH" := fun he => by
    have hhead : ord '(' = ord 'N' := (List.cons.inj he).1
    exact absurd hhead (by decide)
  rw [if_neg hne]
  dsimp only
  rw [if_neg (by decide), parseValues_stated h rfl]
  dsimp only
  rw [List.nil_append, if_neg (by omega), hpairs]

lemma parseDatResult_meets {u : UnicodeTable} {field : PyStr} {observed : Observable} (h : Meets u field observed) :
    ∃ expected, parseDatResult u field = .ok (some expected) ∧ expectationHolds expected observed = true ∧
      observed.crashed = false := by
  cases h with
  | noMatch => exact ⟨.noMatch, rfl, by simp [expectationHolds], rfl⟩
  | rejected hc hne =>
    refine ⟨.str "error", ?_, by simp [expectationHolds], rfl⟩
    unfold parseDatResult
    rw [if_neg hne]
    exact if_pos hc
  | found h extra =>
    refine ⟨_, parseDatResult_stated h, ?_, rfl⟩
    simp [expectationHolds, matchDict]

lemma datLine_cases {u : UnicodeTable} {lastPattern next raw : PyStr} {cs : List (Case PyStr PyStr)}
    (h : datLine u lastPattern raw = .ok (.cases cs, next)) :
    ∃ outcome expected, outcomeField raw = some outcome ∧ parseDatResult u outcome = .ok (some expected) ∧
      ∃ flags pattern text, cs = datCases flags pattern text expected := by
  unfold datLine at h
  dsimp only at h
  split at h
  · cases h
  split at h
  · cases h
  next first others hparts =>
  split at h
  · cases h
  next flags _ =>
  split at h
  · cases h
  split at h
  · next pattern text outcome extra hfields =>
    split at h
    · cases h
    next pattern' text' _ =>
    split at h
    · cases h
    · cases h
    next expected hexpected =>
    rw [datCases_validate] at h
    split at h
    · cases h
    · cases h
    next cs' _ hcs' =>
    obtain rfl := Except.ok.inj hcs'
    obtain ⟨hcs, -⟩ := Prod.mk.inj (Except.ok.inj h)
    refine ⟨outcome, expected, ?_, hexpected, flags, _, _, (DatLine.cases.inj hcs).symm⟩
    unfold outcomeField
    rw [hparts, hfields]
    rfl
  · cases h

lemma datCases_plain {flags pattern text : PyStr} {expected : Observable} {c : Case PyStr PyStr}
    (h : c ∈ datCases flags pattern text expected) :
    c.requires = "" ∧ c.statusExpected = none ∧ c.expected = expected := by
  obtain ⟨mode, -, rfl⟩ := List.mem_map.mp h
  exact ⟨rfl, rfl, rfl⟩

/-! ### Kept entries -/

/-- The adapter keeps `entry`, the next one of a file, as the case `c`. -/
def KeepsRust (entry : Dict String Toml) (c : Case Toml PyStr) : Prop :=
  ∃ before cs filtered, loadCasesRustToml before = .ok (cs, filtered) ∧
    loadCasesRustToml (before ++ [entry]) = .ok (cs ++ [c], filtered)

/-- The adapter keeps the line `raw`, the next one of a file, and `c` is one of its cases. -/
def KeepsDat (u : UnicodeTable) (raw : PyStr) (c : Case PyStr PyStr) : Prop :=
  ∃ before cs added filtered filtered', loadCasesDat u before = .ok (cs, filtered) ∧
    loadCasesDat u (before ++ [raw]) = .ok (cs ++ added, filtered') ∧ c ∈ added

lemma rustEntry_of_keeps {entry : Dict String Toml} {c : Case Toml PyStr} (h : KeepsRust entry c) :
    rustEntry entry = .ok (some c) := by
  obtain ⟨before, cs, filtered, hbefore, hentry⟩ := h
  unfold loadCasesRustToml at hbefore hentry
  rw [List.foldlM_append, hbefore] at hentry
  obtain ⟨init, hinit, hentry⟩ := bind_eq_ok.mp hentry
  obtain rfl := Except.ok.inj hinit
  rw [List.foldlM_cons] at hentry
  obtain ⟨last, hlast, hentry⟩ := bind_eq_ok.mp hentry
  obtain ⟨kept, hkept, hlast⟩ := bind_eq_ok.mp hlast
  obtain rfl := Except.ok.inj hentry
  cases kept with
  | none =>
    have hcs := (Prod.mk.inj (Except.ok.inj hlast)).1
    exact absurd (congrArg List.length hcs) (by simp)
  | some c' =>
    have hcs := (Prod.mk.inj (Except.ok.inj hlast)).1
    obtain rfl := (List.cons.inj (List.append_cancel_left hcs)).1
    exact hkept

lemma datLine_of_loop {u : UnicodeTable} {before : List PyStr} {raw lastPattern : PyStr}
    {cases cs added : List (Case PyStr PyStr)} {start filtered filtered' : ℕ} {c : Case PyStr PyStr}
    (hbefore : loadCasesDatLoop u cases start lastPattern before = .ok (cs, filtered))
    (hraw : loadCasesDatLoop u cases start lastPattern (before ++ [raw]) = .ok (cs ++ added, filtered'))
    (hc : c ∈ added) : ∃ last next, datLine u last raw = .ok (.cases added, next) := by
  have hnonempty : cs ≠ cs ++ added := fun h => by
    rw [List.append_cancel_left (h.symm.trans (List.append_nil cs).symm)] at hc
    cases hc
  induction before generalizing cases start lastPattern with
  | nil =>
    obtain ⟨rfl, rfl⟩ := Prod.mk.inj (Except.ok.inj hbefore)
    rw [List.nil_append] at hraw
    unfold loadCasesDatLoop at hraw
    split at hraw
    · cases hraw
    · exact absurd (Prod.mk.inj (Except.ok.inj hraw)).1 hnonempty
    · exact absurd (Prod.mk.inj (Except.ok.inj hraw)).1 hnonempty
    · next cs' next hline =>
      obtain rfl := List.append_cancel_left (Prod.mk.inj (Except.ok.inj hraw)).1
      exact ⟨lastPattern, next, hline⟩
  | cons line before ih =>
    rw [List.cons_append] at hraw
    unfold loadCasesDatLoop at hbefore hraw
    split at hbefore
    · cases hbefore
    · next hline => rw [hline] at hraw; exact ih hbefore hraw
    · next hline => rw [hline] at hraw; exact ih hbefore hraw
    · next hline => rw [hline] at hraw; exact ih hbefore hraw

/-! ### Classification of kept entries -/

/-- A run of a corpus whose stored expectations are the authority. -/
structure RealOnlyRun (cases : List (Case π ι)) (manifest : Manifest) (engine : Driver π ι)
    (report : CorpusReport π) : Prop where
  authority : manifest.oracle = "real_only"
  run : ∃ oracle divergenceOf, runCorpus cases manifest engine oracle divergenceOf = .ok report

/-- A kept rust entry passes exactly when every group of its matches took part. -/
lemma rust_pass_iff {entry : Dict String Toml} {c : Case Toml PyStr} {haystack : List Char}
    {stated : List RustMatch} {found : List ReMatch} (hkept : KeepsRust entry c)
    (htext : EntryHaystack entry haystack) (hstated : EntryMatches entry stated)
    (hfound : List.Forall₂ (SameMatch haystack) stated found) {cases : List (Case Toml PyStr)}
    {manifest : Manifest} {engine : Driver Toml PyStr} {report : CorpusReport Toml} {i : ℕ}
    (hrun : RealOnlyRun cases manifest engine report) (hc : cases[i]? = some c)
    (hengine : engine c.pattern c.input manifest.api c.flags = .ok (findings found)) :
    report.results[i]?.map CaseResult.status = some pass ↔ ∀ m ∈ stated, none ∉ m.groups := by
  obtain ⟨hreq, hov, hexpected⟩ := rustEntry_kept (rustEntry_of_keeps hkept) htext hstated hfound
  obtain ⟨oracle, divergenceOf, hreport⟩ := hrun.run
  rw [status_real_only hreport hc hrun.authority hreq hov hengine rfl, hexpected]
  exact expectationHolds_stored hfound

/-- A kept Fowler line passes on every observable that meets its outcome. -/
lemma dat_pass {u : UnicodeTable} {raw outcome : PyStr} {c : Case PyStr PyStr} {observed : Observable}
    (hkept : KeepsDat u raw c) (houtcome : outcomeField raw = some outcome) (hmeets : Meets u outcome observed)
    {cases : List (Case PyStr PyStr)} {manifest : Manifest} {engine : Driver PyStr PyStr}
    {report : CorpusReport PyStr} {i : ℕ} (hrun : RealOnlyRun cases manifest engine report)
    (hc : cases[i]? = some c) (hengine : engine c.pattern c.input manifest.api c.flags = .ok observed) :
    report.results[i]?.map CaseResult.status = some pass := by
  obtain ⟨before, cs, added, filtered, filtered', hbefore, hraw, hadded⟩ := hkept
  obtain ⟨last, next, hline⟩ := datLine_of_loop hbefore hraw hadded
  obtain ⟨outcome', expected, ho, hparse, flags, pattern, text, rfl⟩ := datLine_cases hline
  obtain rfl := Option.some.inj (ho.symm.trans houtcome)
  obtain ⟨hreq, hov, hexpected⟩ := datCases_plain hadded
  obtain ⟨expected', hparse', hholds, hcrash⟩ := parseDatResult_meets hmeets
  obtain rfl := Option.some.inj (Except.ok.inj (hparse.symm.trans hparse'))
  obtain ⟨oracle, divergenceOf, hreport⟩ := hrun.run
  rw [status_real_only hreport hc hrun.authority hreq hov hengine hcrash, hexpected]
  exact hholds

/-- With an engine that finds what the file states, a kept rust entry passes exactly when every group of its
matches took part, and a kept Fowler line always passes. -/
theorem kept_pass_iff (u : UnicodeTable) :
    (∀ entry c haystack stated found, KeepsRust entry c → EntryHaystack entry haystack →
      EntryMatches entry stated → List.Forall₂ (SameMatch haystack) stated found →
      ∀ (cases : List (Case Toml PyStr)) manifest engine report (i : ℕ), RealOnlyRun cases manifest engine report →
      cases[i]? = some c → engine c.pattern c.input manifest.api c.flags = .ok (findings found) →
      (report.results[i]?.map CaseResult.status = some pass ↔ ∀ m ∈ stated, none ∉ m.groups)) ∧
    ∀ raw outcome c observed, KeepsDat u raw c → outcomeField raw = some outcome → Meets u outcome observed →
      ∀ (cases : List (Case PyStr PyStr)) manifest engine report (i : ℕ), RealOnlyRun cases manifest engine report →
      cases[i]? = some c → engine c.pattern c.input manifest.api c.flags = .ok observed →
      report.results[i]?.map CaseResult.status = some pass := by
  refine ⟨?_, ?_⟩
  · intro entry c haystack stated found hkept htext hstated hfound cases manifest engine report i hrun hc hengine
    exact rust_pass_iff hkept htext hstated hfound hrun hc hengine
  · intro raw outcome c observed hkept houtcome hmeets cases manifest engine report i hrun hc hengine
    exact dat_pass hkept houtcome hmeets hrun hc hengine

/-! ### An optional group -/

def finditerManifest : Manifest :=
  ⟨"rust", "x", "MIT", "a", "2026-07-03", "leftmost-first", "text", "finditer", "real_only", ""⟩

def optionalRegex : Toml := .str "a(b)?".toList

def optionalEntry (haystack : String) (stated : RustMatch) : Dict String Toml :=
  [("regex", optionalRegex), ("haystack", .str haystack.toList),
    ("matches", .array [.array (tomlSpan stated.whole :: stated.groups.map tomlGroup)])]

def optionalCase (haystack : String) (expected : Observable) : Case Toml PyStr :=
  ⟨optionalRegex, py haystack, .list [expected], [], "", none⟩

lemma entryMatches_optional (haystack : String) (stated : RustMatch) :
    EntryMatches (optionalEntry haystack stated) [stated] :=
  .inr ⟨_, rfl, .cons (.spans stated) .nil⟩

/-- On `a` the group took no part: the file writes it `[]`, the engine reports `[-1, -1]`, and the case is
a bug. -/
theorem unset_group_is_bug :
    KeepsRust (optionalEntry "a" ⟨(0, 1), [none]⟩) (optionalCase "a" (matchDict [0, 1] [[]])) ∧
      EntryMatches (optionalEntry "a" ⟨(0, 1), [none]⟩) [⟨(0, 1), [none]⟩] ∧
      List.Forall₂ (SameMatch "a".toList) [⟨(0, 1), [none]⟩] [⟨(0, 1), [(-1, -1)]⟩] ∧
      (runCorpus [optionalCase "a" (matchDict [0, 1] [[]])] finditerManifest
        (fun _ _ _ _ => .ok (findings [⟨(0, 1), [(-1, -1)]⟩])) (fun _ _ _ _ => .ok .noMatch) none).map
        (fun report => report.results.map CaseResult.status) = .ok [bug] := by
  refine ⟨⟨[], [], 0, rfl, rfl⟩, entryMatches_optional "a" _, ?_, rfl⟩
  refine .cons ⟨⟨⟨0, by decide, rfl, rfl⟩, ⟨1, by decide, rfl, rfl⟩⟩, .cons rfl .nil⟩ .nil

def noUnicode : UnicodeTable := ⟨fun _ => false, fun _ => none⟩

def optionalLine : PyStr := py "E\ta(b)?\ta\t(0,1)(?,?)"

lemma stated_optional : Stated noUnicode (py "(0,1)(?,?)") [[0, 1], [-1, -1]] :=
  .pair (a := py "0") (b := py "1") (by decide) (by decide) rfl (by decide) (by decide) rfl
    (.pair (a := py "?") (b := py "?") (by decide) (by decide) rfl (by decide) (by decide) rfl .nil)

def optionalCaseDat (expected : Observable) : Case PyStr PyStr := ⟨py "a(b)?", py "a", expected, [], "", none⟩

lemma datLine_optional : datLine noUnicode [] optionalLine =
    .ok (.cases [optionalCaseDat (matchDict [0, 1] [[-1, -1]])], py "a(b)?") := by
  have hparts : splitParts (ord '\t') (optionalLine.rdropWhile (· = ord '\n')) =
    [py "E", py "a(b)?", py "a", py "(0,1)(?,?)"] := rfl
  have hnull : nullFields [py "E", py "a(b)?", py "a", py "(0,1)(?,?)"] =
    [py "E", py "a(b)?", py "a", py "(0,1)(?,?)"] := rfl
  have hexpand : datExpand noUnicode (py "E") (py "a(b)?") (py "a") = some (py "a(b)?", py "a") := rfl
  have hflags : testFlags (py "E") = some (py "E") := rfl
  unfold datLine
  simp only [hparts, hflags, hnull, hexpand, parseDatResult_stated stated_optional]
  rfl

/-- A run of one case on which the engine gives `observed`. -/
def optionalRun {π : Type} (c : Case π PyStr) (observed : Observable) : Except String (CorpusReport π) :=
  runCorpus [c] finditerManifest (fun _ _ _ _ => .ok observed) (fun _ _ _ _ => .ok .noMatch) none

lemma optionalRun_realOnly {π : Type} {c : Case π PyStr} {observed : Observable} {report : CorpusReport π}
    (h : optionalRun c observed = .ok report) :
    RealOnlyRun [c] finditerManifest (fun _ _ _ _ => .ok observed) report := ⟨rfl, _, _, h⟩

/-- Where the group took part, and on the line of a group that did not, the case passes. -/
theorem kept_pass_optional :
    (∃ report, optionalRun (optionalCase "ab" (matchDict [0, 2] [[1, 2]])) (findings [⟨(0, 2), [(1, 2)]⟩]) =
      .ok report ∧ report.results[0]?.map CaseResult.status = some pass) ∧
    ∃ report, optionalRun (optionalCaseDat (matchDict [0, 1] [[-1, -1]])) (matchDict [0, 1] [[-1, -1]]) =
      .ok report ∧ report.results[0]?.map CaseResult.status = some pass := by
  obtain ⟨hrust, hdat⟩ := kept_pass_iff noUnicode
  refine ⟨⟨_, rfl, ?_⟩, ⟨_, rfl, ?_⟩⟩
  · have hkept : KeepsRust (optionalEntry "ab" ⟨(0, 2), [some (1, 2)]⟩)
        (optionalCase "ab" (matchDict [0, 2] [[1, 2]])) := ⟨[], [], 0, rfl, rfl⟩
    have hfound : List.Forall₂ (SameMatch "ab".toList) [⟨(0, 2), [some (1, 2)]⟩] [⟨(0, 2), [(1, 2)]⟩] :=
      .cons ⟨⟨⟨0, by decide, rfl, rfl⟩, ⟨2, by decide, rfl, rfl⟩⟩,
        .cons ⟨⟨1, by decide, rfl, rfl⟩, ⟨2, by decide, rfl, rfl⟩⟩ .nil⟩ .nil
    refine (hrust _ _ _ _ _ hkept rfl (entryMatches_optional "ab" _) hfound _ _ _ _ 0
      (optionalRun_realOnly rfl) rfl rfl).mpr ?_
    simp
  · have hkept : KeepsDat noUnicode optionalLine (optionalCaseDat (matchDict [0, 1] [[-1, -1]])) := by
      refine ⟨[], [], [optionalCaseDat (matchDict [0, 1] [[-1, -1]])], 0, 0, rfl, ?_,
        List.mem_singleton_self _⟩
      unfold loadCasesDat
      rw [List.nil_append, loadCasesDatLoop, datLine_optional]
      rfl
    exact hdat _ _ _ _ hkept rfl (.found stated_optional []) _ _ _ _ 0 (optionalRun_realOnly rfl) rfl rfl

end SciForge.Corpus
