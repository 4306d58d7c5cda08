import SciForge.Corpus.FowlerOutcome

/-!
# The lines of a Fowler file

What each line of a file comes to, in the file's own terms: nothing, one filtered line, or the cases of
its mode letters. The one line the reader does not survive has a `NULL` outcome, which the rewriting of
the fields has made empty when its first character is looked at.
-/

namespace SciForge.Corpus

/-! ### Lines and their flags -/

def lineText (raw : PyStr) : PyStr := raw.rdropWhile (fun c => c = ord '\n')

/-- The fields of a line, runs of tabs between them. -/
def lineFields (raw : PyStr) : List PyStr := splitParts (ord '\t') (lineText raw)

/-- The lines that are not tests: blank, a comment, a bare control character, a `:` line without its second
colon, and the lines of notes. -/
inductive Ignored (raw : PyStr) : Prop
  | blank (h : lineFields raw = [])
  | comment (h : (lineText raw).head? = some (ord '#'))
  | control {c : PyChar} {others : List PyStr} (hc : c ∈ datControl) (h : lineFields raw = [c] :: others)
  | colon {comment : PyStr} {others : List PyStr} (hcolon : ord ':' ∉ comment)
      (h : lineFields raw = (ord ':' :: comment) :: others)
  | note {c : PyChar} {rest : PyStr} {others : List PyStr} (hc : c ∈ py "CNT0123456789")
      (h : lineFields raw = (c :: rest) :: others)

/-- The flags a flag field names. -/
inductive FieldFlags : PyStr → PyStr → Prop
  | control {c : PyChar} {flags : PyStr} (hc : c ∈ datControl) (hne : flags ≠ []) : FieldFlags (c :: flags) flags
  | comment {comment flags : PyStr} (h : ord ':' ∉ comment) :
      FieldFlags (ord ':' :: (comment ++ ord ':' :: flags)) flags
  | plain {c : PyChar} {rest : PyStr} (hcontrol : c ∉ datControl) (hcolon : c ≠ ord ':')
      (hnote : c ∉ py "CNT0123456789") : FieldFlags (c :: rest) (c :: rest)

/-- The mode letters that are run, in order. -/
def modes (flags : PyStr) : PyStr := flags.filter (fun mode => mode = ord 'E' ∨ mode = ord 'L')

/-! ### What a line comes to -/

/-- A validated case of one mode letter. -/
structure ModeCase (pattern text : PyStr) (expected : Observable) (mode : PyChar) (c : Case PyStr PyStr) : Prop where
  pattern : c.pattern = if mode = ord 'E' then pattern else quoteMeta pattern
  input : c.input = text
  expected : c.expected = expected
  valid : c.validate = .ok c

/-- What a line may come to. -/
inductive Contributes (raw : PyStr) : DatLine → Prop
  | nothing (h : Ignored raw) : Contributes raw .nothing
  | filtered (h : ¬Ignored raw) : Contributes raw .filtered
  | cases {first flags pattern text : PyStr} {others : List PyStr} {expected : Observable}
      {cs : List (Case PyStr PyStr)} (h : ¬Ignored raw) (hfields : lineFields raw = first :: others)
      (hflags : FieldFlags first flags) (hne : cs ≠ [])
      (hcases : List.Forall₂ (ModeCase pattern text expected) (modes flags) cs) : Contributes raw (.cases cs)

def DatLine.added : DatLine → List (Case PyStr PyStr)
  | .cases cs => cs
  | .nothing | .filtered => []

def DatLine.isFiltered : DatLine → Bool
  | .filtered => true
  | .nothing | .cases _ => false

/-- The reader accounts for a file: it returns, and its result is what the lines come to. -/
def Accounted (u : UnicodeTable) (lines : List PyStr) : Prop :=
  ∃ entries, List.Forall₂ Contributes lines entries ∧
    loadCasesDat u lines = .ok (entries.flatMap DatLine.added, entries.countP DatLine.isFiltered)

/-- A field with `NULL` for the empty string. -/
def nullField (part : PyStr) : PyStr := if part = py "NULL" then [] else part

/-- A test line whose pattern and input are there and expand, with `NULL` for its outcome. -/
def NullOutcome (u : UnicodeTable) (raw : PyStr) : Prop :=
  ¬Ignored raw ∧ py "NIL" ∉ lineFields raw ∧ ∃ first flags pattern text others,
    lineFields raw = first :: pattern :: text :: py "NULL" :: others ∧ FieldFlags first flags ∧
    (datExpand u flags (nullField pattern) (nullField text)).isSome

/-! ### Flag fields -/

lemma dropWhile_colon {rest : PyStr} {flags : PyStr} :
    (∃ c, rest.dropWhile (fun c => c ≠ ord ':') = c :: flags) ↔
      ∃ comment, ord ':' ∉ comment ∧ rest = comment ++ ord ':' :: flags := by
  induction rest with
  | nil => simp
  | cons c rest ih =>
    by_cases hc : c = ord ':'
    · rw [hc, List.dropWhile_cons_of_neg (by simp)]
      constructor
      · rintro ⟨_, h⟩
        obtain ⟨-, rfl⟩ := List.cons.inj h
        exact ⟨[], List.not_mem_nil, rfl⟩
      · rintro ⟨comment, hcomment, h⟩
        cases comment with
        | nil => exact ⟨ord ':', h⟩
        | cons e comment => exact absurd ((List.cons.inj h).1 ▸ List.mem_cons_self) hcomment
    · rw [List.dropWhile_cons_of_pos (by simpa using hc), ih]
      constructor
      · rintro ⟨comment, hcomment, rfl⟩
        refine ⟨c :: comment, ?_, rfl⟩
        rw [List.mem_cons, not_or]
        exact ⟨fun h => hc h.symm, hcomment⟩
      · rintro ⟨comment, hcomment, h⟩
        cases comment with
        | nil => exact absurd (List.cons.inj h).1 hc
        | cons e comment =>
          exact ⟨comment, fun hmem => hcomment (List.mem_cons_of_mem _ hmem), (List.cons.inj h).2⟩

lemma testFlags_control {c : PyChar} (hc : c ∈ datControl) (rest : PyStr) :
    testFlags (c :: rest) = if rest = [] then none else some rest := if_pos hc

lemma testFlags_colon (rest : PyStr) :
    testFlags (ord ':' :: rest) = (rest.dropWhile (fun c => c ≠ ord ':')).tail? := by
  have hcolon : ord ':' ∉ datControl := by decide
  unfold testFlags
  dsimp only
  rw [if_neg hcolon, if_pos rfl]
  split <;> next h => rw [h]; rfl

lemma testFlags_other {c : PyChar} (hcontrol : c ∉ datControl) (hcolon : c ≠ ord ':') (rest : PyStr) :
    testFlags (c :: rest) = if c ∈ py "CNT0123456789" then none else some (c :: rest) := by
  unfold testFlags
  dsimp only
  rw [if_neg hcontrol, if_neg hcolon]

lemma testFlags_eq_some {first flags : PyStr} : testFlags first = some flags ↔ FieldFlags first flags := by
  constructor
  · intro h
    cases first with
    | nil => cases h
    | cons c rest =>
      by_cases hcontrol : c ∈ datControl
      · rw [testFlags_control hcontrol] at h
        split at h
        · cases h
        · next hne =>
          obtain rfl := Option.some.inj h
          exact .control hcontrol hne
      · by_cases hcolon : c = ord ':'
        · rw [hcolon, testFlags_colon] at h
          have hdrop : ∃ c, rest.dropWhile (fun c => c ≠ ord ':') = c :: flags := by
            cases hrest : rest.dropWhile (fun c => c ≠ ord ':') with
            | nil => rw [hrest] at h; cases h
            | cons e tail =>
              rw [hrest] at h
              obtain rfl := Option.some.inj h
              exact ⟨e, rfl⟩
          obtain ⟨comment, hcomment, rfl⟩ := dropWhile_colon.mp hdrop
          rw [hcolon]
          exact .comment hcomment
        · rw [testFlags_other hcontrol hcolon] at h
          split at h
          · cases h
          · next hnote =>
            obtain rfl := Option.some.inj h
            exact .plain hcontrol hcolon hnote
  · intro h
    cases h with
    | control hc hne => rw [testFlags_control hc, if_neg hne]
    | comment hcomment =>
      obtain ⟨c, hdrop⟩ := dropWhile_colon.mpr ⟨_, hcomment, rfl⟩
      rw [testFlags_colon, hdrop]
      rfl
    | plain hcontrol hcolon hnote => rw [testFlags_other hcontrol hcolon, if_neg hnote]

lemma testFlags_colon_eq_none {rest : PyStr} : testFlags (ord ':' :: rest) = none ↔ ord ':' ∉ rest := by
  have htail : ∀ {l : PyStr}, l.tail? = none ↔ l = [] := by
    intro l
    cases l <;> simp
  rw [testFlags_colon, htail, List.dropWhile_eq_nil_iff]
  simp only [ne_eq, decide_not, Bool.not_eq_true', decide_eq_false_iff_not]
  exact ⟨fun h hmem => h _ hmem rfl, fun h c hc he => h (he ▸ hc)⟩

lemma note_not_control {c : PyChar} (hc : c ∈ py "CNT0123456789") : c ∉ datControl ∧ c ≠ ord ':' := by
  have hall : (py "CNT0123456789").all (fun c => c ∉ datControl ∧ c ≠ ord ':') = true := by decide
  exact of_decide_eq_true (List.all_eq_true.mp hall c hc)

lemma field_ne_nil {raw field : PyStr} (h : field ∈ lineFields raw) : field ≠ [] :=
  of_decide_eq_true (List.mem_filter.mp h).2

lemma ignored_iff {raw : PyStr} : Ignored raw ↔ lineFields raw = [] ∨ (lineText raw).head? = some (ord '#') ∨
    ∃ first others, lineFields raw = first :: others ∧ testFlags first = none := by
  constructor
  · intro h
    cases h with
    | blank h => exact .inl h
    | comment h => exact .inr (.inl h)
    | control hc h => exact .inr (.inr ⟨_, _, h, by rw [testFlags_control hc, if_pos rfl]⟩)
    | colon hcolon h => exact .inr (.inr ⟨_, _, h, testFlags_colon_eq_none.mpr hcolon⟩)
    | note hc h =>
      obtain ⟨hcontrol, hcolon⟩ := note_not_control hc
      exact .inr (.inr ⟨_, _, h, by rw [testFlags_other hcontrol hcolon, if_pos hc]⟩)
  · rintro (h | h | ⟨first, others, h, hnone⟩)
    · exact .blank h
    · exact .comment h
    · obtain ⟨c, rest, rfl⟩ := List.exists_cons_of_ne_nil (field_ne_nil (h ▸ List.mem_cons_self))
      by_cases hcontrol : c ∈ datControl
      · rw [testFlags_control hcontrol] at hnone
        split at hnone
        · next hbare => exact .control hcontrol (hbare ▸ h)
        · cases hnone
      · by_cases hcolon : c = ord ':'
        · rw [hcolon] at hnone h
          exact .colon (testFlags_colon_eq_none.mp hnone) h
        · rw [testFlags_other hcontrol hcolon] at hnone
          split at hnone
          · next hnote => exact .note hnote h
          · cases hnone

/-! ### One line -/

lemma lineFields_of_empty {raw : PyStr} (h : lineText raw = []) : lineFields raw = [] := by
  unfold lineFields
  rw [h]
  rfl

lemma datLine_ignored (u : UnicodeTable) (lastPattern : PyStr) {raw : PyStr} (h : Ignored raw) :
    datLine u lastPattern raw = .ok (.nothing, lastPattern) := by
  unfold datLine
  dsimp only
  split
  · rfl
  · next hcomment =>
    rw [not_or] at hcomment
    rcases ignored_iff.mp h with hblank | hhash | ⟨first, others, hfields, hflags⟩
    · have hparts : splitParts (ord '\t') (raw.rdropWhile (fun c => c = ord '\n')) = [] := hblank
      rw [hparts]
    · exact absurd hhash hcomment.2
    · have hparts : splitParts (ord '\t') (raw.rdropWhile (fun c => c = ord '\n')) = first :: others := hfields
      rw [hparts]
      dsimp only
      rw [hflags]

/-- A test line with its fields and flags. -/
structure TestLine (raw first flags : PyStr) (others : List PyStr) : Prop where
  text : lineText raw ≠ []
  noComment : (lineText raw).head? ≠ some (ord '#')
  fields : lineFields raw = first :: others
  flags : testFlags first = some flags

lemma testLine_of_not_ignored {raw : PyStr} (h : ¬Ignored raw) :
    ∃ first flags others, TestLine raw first flags others := by
  rw [ignored_iff, not_or, not_or] at h
  obtain ⟨hblank, hcomment, hnone⟩ := h
  obtain ⟨first, others, hfields⟩ := List.exists_cons_of_ne_nil hblank
  obtain ⟨flags, hflags⟩ := Option.ne_none_iff_exists'.mp (fun hf => hnone ⟨first, others, hfields, hf⟩)
  exact ⟨first, flags, others, fun he => hblank (lineFields_of_empty he), hcomment, hfields, hflags⟩

section

variable {u : UnicodeTable} {lastPattern raw first flags : PyStr}

lemma datLine_short {others : List PyStr} (h : TestLine raw first flags others)
    (hshort : (first :: others).length < 4 ∨ py "NIL" ∈ first :: others) :
    datLine u lastPattern raw = .ok (.filtered, lastPattern) := by
  have hparts : splitParts (ord '\t') (raw.rdropWhile (fun c => c = ord '\n')) = first :: others := h.fields
  have hcomment : ¬(raw.rdropWhile (fun c => c = ord '\n') = [] ∨
      (raw.rdropWhile (fun c => c = ord '\n')).head? = some (ord '#')) := not_or.mpr ⟨h.text, h.noComment⟩
  unfold datLine
  dsimp only
  rw [if_neg hcomment, hparts]
  dsimp only
  rw [h.flags]
  exact if_pos hshort

variable {pattern text outcome : PyStr} {others : List PyStr}

lemma datLine_long (lastPattern : PyStr) (h : TestLine raw first flags (pattern :: text :: outcome :: others))
    (hnil : py "NIL" ∉ lineFields raw) :
    (datExpand u flags (nullField pattern) (nullField text) = none →
      datLine u lastPattern raw = .ok (.filtered, lastPattern)) ∧
    ∀ p t, datExpand u flags (nullField pattern) (nullField text) = some (p, t) →
      (∀ e, parseDatResult u (nullField outcome) = .error e → datLine u lastPattern raw = .error e) ∧
      (parseDatResult u (nullField outcome) = .ok none → ∃ next, datLine u lastPattern raw = .ok (.filtered, next)) ∧
      ∀ expected, parseDatResult u (nullField outcome) = .ok (some expected) →
        ∃ p' next, datLine u lastPattern raw =
          .ok (if datCases flags p' t expected = [] then .filtered else .cases (datCases flags p' t expected), next) := by
  have hparts : splitParts (ord '\t') (raw.rdropWhile (fun c => c = ord '\n')) =
      first :: pattern :: text :: outcome :: others := h.fields
  have hlong : ¬((first :: pattern :: text :: outcome :: others).length < 4 ∨
      py "NIL" ∈ first :: pattern :: text :: outcome :: others) := by
    rw [← h.fields, not_or]
    refine ⟨?_, hnil⟩
    rw [h.fields]
    simp
  have hnull : nullFields (first :: pattern :: text :: outcome :: others) =
      nullField first :: nullField pattern :: nullField text :: nullField outcome :: nullFields others := rfl
  have hcomment : ¬(raw.rdropWhile (fun c => c = ord '\n') = [] ∨
      (raw.rdropWhile (fun c => c = ord '\n')).head? = some (ord '#')) := not_or.mpr ⟨h.text, h.noComment⟩
  unfold datLine
  dsimp only
  rw [if_neg hcomment, hparts]
  dsimp only
  rw [h.flags]
  dsimp only
  rw [if_neg hlong, hnull]
  dsimp only
  refine ⟨fun hexpand => by rw [hexpand], fun p t hexpand => ?_⟩
  rw [hexpand]
  dsimp only
  refine ⟨fun e he => by rw [he], fun hnone => by rw [hnone]; exact ⟨_, rfl⟩, fun expected hexpected => ?_⟩
  rw [hexpected]
  dsimp only
  rw [datCases_validate]
  refine ⟨if p = py "SAME" then lastPattern else p, if p = py "SAME" then lastPattern else p, ?_⟩
  cases datCases flags (if p = py "SAME" then lastPattern else p) t expected <;> rfl

end

lemma parseDatResult_returns (u : UnicodeTable) {field : PyStr} (h : field ≠ []) :
    ∃ outcome, parseDatResult u field = .ok outcome := by
  obtain ⟨c, rest, rfl⟩ := List.exists_cons_of_ne_nil h
  by_cases hmatched : c :: rest = py "NOMATCH"
  · exact ⟨_, if_pos hmatched⟩
  · by_cases hupper : ord 'A' ≤ c ∧ c ≤ ord 'Z'
    · exact ⟨_, (if_neg hmatched).trans (if_pos hupper)⟩
    · have harray : ArrayField (c :: rest) :=
        ⟨h, hmatched, fun d hd => Option.some.inj hd ▸ hupper⟩
      rcases parseDatResult_cases u harray with hnone | ⟨_, _, _, _, _, hsome⟩
      · exact ⟨_, hnone⟩
      · exact ⟨_, hsome⟩

lemma datCases_modeCase (flags pattern text : PyStr) (expected : Observable) :
    List.Forall₂ (ModeCase pattern text expected) (modes flags) (datCases flags pattern text expected) := by
  have hvalid := mapM_eq_ok.mp (datCases_validate flags pattern text expected)
  rw [List.forall₂_same] at hvalid
  unfold datCases modes at *
  rw [List.forall₂_map_right_iff, List.forall₂_same]
  intro mode hmode
  exact ⟨rfl, rfl, rfl, hvalid _ (List.mem_map_of_mem hmode)⟩

lemma datLine_null {u : UnicodeTable} {raw : PyStr} (h : NullOutcome u raw) (lastPattern : PyStr) :
    datLine u lastPattern raw = .error "IndexError" := by
  obtain ⟨hignored, hnil, first, flags, pattern, text, others, hfields, hflags, hexpand⟩ := h
  obtain ⟨first', flags', others', htest⟩ := testLine_of_not_ignored hignored
  obtain ⟨rfl, rfl⟩ := List.cons.inj (htest.fields.symm.trans hfields)
  obtain rfl := Option.some.inj (htest.flags.symm.trans (testFlags_eq_some.mpr hflags))
  obtain ⟨⟨p, t⟩, hexpand⟩ := Option.isSome_iff_exists.mp hexpand
  exact ((datLine_long _ htest hnil).2 p t hexpand).1 _ rfl

lemma datLine_contributes {u : UnicodeTable} {raw : PyStr} (h : ¬NullOutcome u raw) (lastPattern : PyStr) :
    ∃ entry next, datLine u lastPattern raw = .ok (entry, next) ∧ Contributes raw entry := by
  by_cases hignored : Ignored raw
  · exact ⟨_, _, datLine_ignored u lastPattern hignored, .nothing hignored⟩
  obtain ⟨first, flags, others, htest⟩ := testLine_of_not_ignored hignored
  by_cases hshort : (first :: others).length < 4 ∨ py "NIL" ∈ first :: others
  · exact ⟨_, _, datLine_short htest hshort, .filtered hignored⟩
  rw [not_or, ← htest.fields] at hshort
  obtain ⟨hlen, hnil⟩ := hshort
  rw [htest.fields] at hlen
  rcases others with _ | ⟨pattern, _ | ⟨text, _ | ⟨outcome, others⟩⟩⟩
  · simp at hlen
  · simp at hlen
  · simp at hlen
  obtain ⟨hnone, hsome⟩ := datLine_long lastPattern htest hnil
  cases hexpand : datExpand u flags (nullField pattern) (nullField text) with
  | none => exact ⟨_, _, hnone hexpand, .filtered hignored⟩
  | some expanded =>
    obtain ⟨-, hunread, hread⟩ := hsome expanded.1 expanded.2 hexpand
    have houtcome : nullField outcome ≠ [] := by
      unfold nullField
      split
      · next hnull =>
        refine absurd ⟨hignored, hnil, first, flags, pattern, text, others, ?_,
          testFlags_eq_some.mp htest.flags, by rw [hexpand]; rfl⟩ h
        rw [htest.fields, hnull]
      · exact field_ne_nil (by rw [htest.fields]; simp)
    obtain ⟨result, hresult⟩ := parseDatResult_returns u houtcome
    cases result with
    | none =>
      obtain ⟨next, hline⟩ := hunread hresult
      exact ⟨_, next, hline, .filtered hignored⟩
    | some expected =>
      obtain ⟨p, next, hline⟩ := hread expected hresult
      by_cases hcases : datCases flags p expanded.2 expected = []
      · rw [if_pos hcases] at hline
        exact ⟨_, next, hline, .filtered hignored⟩
      · rw [if_neg hcases] at hline
        exact ⟨_, next, hline, .cases hignored htest.fields (testFlags_eq_some.mp htest.flags) hcases
          (datCases_modeCase flags p expanded.2 expected)⟩

/-! ### The file -/

lemma loadCasesDatLoop_ok {u : UnicodeTable} {cases : List (Case PyStr PyStr)} {filtered : ℕ}
    {lastPattern next raw : PyStr} {lines : List PyStr} {entry : DatLine}
    (h : datLine u lastPattern raw = .ok (entry, next)) :
    loadCasesDatLoop u cases filtered lastPattern (raw :: lines) =
      loadCasesDatLoop u (cases ++ entry.added) (filtered + if entry.isFiltered then 1 else 0) next lines := by
  rw [loadCasesDatLoop, h]
  cases entry with
  | nothing => simp [DatLine.added, DatLine.isFiltered]
  | filtered => simp [DatLine.added, DatLine.isFiltered]
  | cases cs => simp [DatLine.added, DatLine.isFiltered]

lemma loadCasesDatLoop_accounts {u : UnicodeTable} {lines : List PyStr} (h : ∀ raw ∈ lines, ¬NullOutcome u raw)
    (cases : List (Case PyStr PyStr)) (filtered : ℕ) (lastPattern : PyStr) :
    ∃ entries, List.Forall₂ Contributes lines entries ∧
      loadCasesDatLoop u cases filtered lastPattern lines =
        .ok (cases ++ entries.flatMap DatLine.added, filtered + entries.countP DatLine.isFiltered) := by
  induction lines generalizing cases filtered lastPattern with
  | nil => exact ⟨[], .nil, by simp [loadCasesDatLoop]⟩
  | cons raw lines ih =>
    obtain ⟨entry, next, hline, hentry⟩ := datLine_contributes (h raw List.mem_cons_self) lastPattern
    obtain ⟨entries, hentries, hloop⟩ := ih (fun r hr => h r (List.mem_cons_of_mem _ hr))
      (cases ++ entry.added) (filtered + if entry.isFiltered then 1 else 0) next
    refine ⟨entry :: entries, .cons hentry hentries, ?_⟩
    rw [loadCasesDatLoop_ok hline, hloop, List.flatMap_cons, List.append_assoc, List.countP_cons]
    congr 2
    omega

lemma loadCasesDatLoop_null {u : UnicodeTable} {lines : List PyStr} {raw : PyStr} (hraw : raw ∈ lines)
    (h : NullOutcome u raw) (cases : List (Case PyStr PyStr)) (filtered : ℕ) (lastPattern : PyStr) :
    ¬Returns (loadCasesDatLoop u cases filtered lastPattern lines) := by
  induction lines generalizing cases filtered lastPattern with
  | nil => cases hraw
  | cons line lines ih =>
    by_cases hline : NullOutcome u line
    · rw [loadCasesDatLoop, datLine_null hline]
      exact not_returns_error _
    · rcases List.mem_cons.mp hraw with rfl | hmem
      · exact absurd h hline
      · obtain ⟨entry, next, hstep, -⟩ := datLine_contributes hline lastPattern
        rw [loadCasesDatLoop_ok hstep]
        exact ih hmem _ _ _

/-- The reader accounts for every line of a file exactly when no test line has a `NULL` outcome that it
gets to. -/
theorem loadCasesDat_accounts (u : UnicodeTable) (lines : List PyStr) :
    Accounted u lines ↔ ∀ raw ∈ lines, ¬NullOutcome u raw := by
  constructor
  · rintro ⟨entries, -, hload⟩ raw hraw hnull
    exact loadCasesDatLoop_null hraw hnull [] 0 [] ⟨_, hload⟩
  · intro h
    obtain ⟨entries, hentries, hload⟩ := loadCasesDatLoop_accounts h [] 0 []
    rw [List.nil_append, Nat.zero_add] at hload
    exact ⟨entries, hentries, hload⟩

/-- `E`, `a`, `a`, `NULL`: the reader raises. -/
theorem loadCasesDat_null : ¬∀ (u : UnicodeTable) (lines : List PyStr), Accounted u lines := by
  intro h
  obtain ⟨entries, -, hload⟩ := h noUnicode [py "E\ta\ta\tNULL\n"]
  have herror : loadCasesDat noUnicode [py "E\ta\ta\tNULL\n"] = .error "IndexError" := by rfl
  rw [herror] at hload
  cases hload

end SciForge.Corpus
