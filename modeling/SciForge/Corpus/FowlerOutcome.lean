import SciForge.Python.IntText
import SciForge.Corpus.NormalForm

/-!
# The match array of an outcome field

The groups of a field are read apart in one way only, since no number holds a comma or a closing
parenthesis. What is left is the numbers: Go's `Atoi` against Python's `int`, which also takes spaces,
underscores and the digits of other scripts and refuses more than 4300 digits.
-/

namespace SciForge.Corpus

/-! ### Go's grammar -/

/-- One number of a match array, with its value. -/
inductive Token : PyStr → ℤ → Prop
  | unset : Token (py "?") (-1)
  | plain {text : PyStr} {ds : List ℕ} (h : Digits 10 text ds) (hne : text ≠ []) : Token text (ofDigits 10 ds)
  | plus {text : PyStr} {ds : List ℕ} (h : Digits 10 text ds) (hne : text ≠ []) :
      Token (ord '+' :: text) (ofDigits 10 ds)
  | minus {text : PyStr} {ds : List ℕ} (h : Digits 10 text ds) (hne : text ≠ []) :
      Token (ord '-' :: text) (-(ofDigits 10 ds : ℤ))

/-- The field with these groups. -/
def groupsText (groups : List (PyStr × PyStr)) : PyStr :=
  groups.flatMap (fun group => ord '(' :: (group.1 ++ ord ',' :: (group.2 ++ [ord ')'])))

/-- Both numbers of each group are read as the bounds of its span. -/
def Spells (token : PyStr → ℤ → Prop) (groups : List (PyStr × PyStr)) (spans : List Span) : Prop :=
  List.Forall₂ (fun group span => ∃ x y, token group.1 x ∧ token group.2 y ∧ span = [x, y]) groups spans

/-- The grammar: groups of two numbers, with the spans they state. -/
def MatchArray (field : PyStr) (spans : List Span) : Prop :=
  ∃ groups, field = groupsText groups ∧ Spells Token groups spans

/-- The parser is right about a field: it returns, succeeds on the grammar alone and gives the spans
stated there. -/
def OutcomeExact (u : UnicodeTable) (field : PyStr) : Prop :=
  ∃ outcome, parseDatResult u field = .ok outcome ∧
    (outcome.isSome ↔ ∃ spans, MatchArray field spans) ∧
    ∀ span groups, MatchArray field (span :: groups) → outcome = some (matchDict span groups)

/-! ### Where the two readings of a number part -/

def tokensOf (groups : List (PyStr × PyStr)) : List PyStr := groups.flatMap (fun group => [group.1, group.2])

/-- Every number is `?` or one `int` reads, and one of them is not of Go's form. -/
def LooseOutcome (u : UnicodeTable) (field : PyStr) : Prop :=
  ∃ groups, field = groupsText groups ∧ (∀ token ∈ tokensOf groups, ∃ v, tokenValue u token = some v) ∧
    ∃ token ∈ tokensOf groups, ∀ v, ¬Token token v

def digitCount (token : PyStr) : ℕ := token.countP (fun c => 48 ≤ c.val ∧ c.val ≤ 57)

/-- Every number is of Go's form, and one of them has more digits than `int` takes. -/
def LongOutcome (field : PyStr) : Prop :=
  ∃ groups, field = groupsText groups ∧ (∀ token ∈ tokensOf groups, ∃ v, Token token v) ∧
    ∃ token ∈ tokensOf groups, intMaxStrDigits < digitCount token

/-! ### Numbers -/

lemma digits_countP {text : PyStr} {ds : List ℕ} (h : Digits 10 text ds) : digitCount text = ds.length := by
  rw [← h.length_eq, digitCount, List.countP_eq_length]
  intro c hc
  obtain ⟨d, hd, hlt⟩ := h.of_mem hc
  have hbounds := digitValue_bounds hd
  simp only [Bool.decide_and, Bool.and_eq_true, decide_eq_true_eq]
  omega

lemma digits_ne {text : PyStr} {ds : List ℕ} (h : Digits 10 text ds) {c : PyChar} (hc : digitValue c = none) :
    c ∉ text := by
  intro hmem
  obtain ⟨d, hd, -⟩ := h.of_mem hmem
  rw [hc] at hd
  cases hd

lemma tokenValue_of_token (u : UnicodeTable) {token : PyStr} {v : ℤ} (h : Token token v) :
    tokenValue u token = if intMaxStrDigits < digitCount token then none else some v := by
  unfold tokenValue
  cases h with
  | unset => rfl
  | @plain text ds h hne =>
    have hmark : token ≠ py "?" := by
      rintro rfl
      exact digits_ne h (c := ord '?') (by decide) List.mem_cons_self
    rw [if_neg hmark, pyInt_digits u (by decide) h hne, digits_countP h]
    simp
  | @plus text ds h hne =>
    have hmark : ord '+' :: text ≠ py "?" := fun he => absurd (List.cons.inj he).1 (by decide)
    have hcount : digitCount (ord '+' :: text) = digitCount text := List.countP_cons_of_neg (by decide)
    rw [if_neg hmark, pyInt_plus u (by decide) h hne, hcount, digits_countP h]
    simp
  | @minus text ds h hne =>
    have hmark : ord '-' :: text ≠ py "?" := fun he => absurd (List.cons.inj he).1 (by decide)
    have hcount : digitCount (ord '-' :: text) = digitCount text := List.countP_cons_of_neg (by decide)
    rw [if_neg hmark, pyInt_minus u (by decide) h hne, hcount, digits_countP h]
    simp

lemma token_chars {token : PyStr} {v : ℤ} (h : Token token v) {c : PyChar} (hc : c ∈ token) :
    (digitValue c).isSome ∨ c ∈ py "?+-" := by
  have hdigits : ∀ {text : PyStr} {ds : List ℕ}, Digits 10 text ds → c ∈ text → (digitValue c).isSome := by
    intro text ds hd hmem
    obtain ⟨d, hd, -⟩ := hd.of_mem hmem
    rw [hd]
    rfl
  cases h with
  | unset => exact .inr (List.mem_singleton.mp hc ▸ by decide)
  | plain h _ => exact .inl (hdigits h hc)
  | plus h _ =>
    rcases List.mem_cons.mp hc with rfl | hc
    · exact .inr (by decide)
    · exact .inl (hdigits h hc)
  | minus h _ =>
    rcases List.mem_cons.mp hc with rfl | hc
    · exact .inr (by decide)
    · exact .inl (hdigits h hc)

lemma token_not_mem {token : PyStr} {v : ℤ} (h : Token token v) {c : PyChar}
    (hc : ¬((digitValue c).isSome ∨ c ∈ py "?+-")) : c ∉ token :=
  fun hmem => hc (token_chars h hmem)

lemma token_delimiters {token : PyStr} {v : ℤ} (h : Token token v) : ord ',' ∉ token ∧ ord ')' ∉ token :=
  ⟨token_not_mem h (by decide), token_not_mem h (by decide)⟩

lemma tokenValue_delimiters {u : UnicodeTable} {token : PyStr} {v : ℤ} (h : tokenValue u token = some v) :
    ord ',' ∉ token ∧ ord ')' ∉ token := by
  unfold tokenValue at h
  split at h
  · next hmark =>
    rw [hmark]
    decide
  · exact ⟨pyInt_not_mem h (by decide) (by decide), pyInt_not_mem h (by decide) (by decide)⟩

lemma tokenValue_ne_nil {u : UnicodeTable} {token : PyStr} {v : ℤ} (h : tokenValue u token = some v) :
    token ≠ [] := by
  rintro rfl
  cases h

/-! ### Groups -/

lemma groupsText_cons (group : PyStr × PyStr) (groups : List (PyStr × PyStr)) :
    groupsText (group :: groups) =
      ord '(' :: (group.1 ++ ord ',' :: (group.2 ++ ord ')' :: groupsText groups)) := by
  simp [groupsText]

/-- Numbers that can be told apart: not empty and without the delimiters. -/
def Delimited (groups : List (PyStr × PyStr)) : Prop :=
  ∀ group ∈ groups, (group.1 ≠ [] ∧ ord ',' ∉ group.1) ∧ group.2 ≠ [] ∧ ord ')' ∉ group.2

lemma groupsText_inj {groups groups' : List (PyStr × PyStr)} (h : Delimited groups) (h' : Delimited groups')
    (heq : groupsText groups = groupsText groups') : groups = groups' := by
  induction groups generalizing groups' with
  | nil =>
    cases groups' with
    | nil => rfl
    | cons group' groups' =>
      rw [groupsText_cons] at heq
      cases heq
  | cons group groups ih =>
    cases groups' with
    | nil =>
      rw [groupsText_cons] at heq
      cases heq
    | cons group' groups' =>
      rw [groupsText_cons, groupsText_cons] at heq
      obtain ⟨hfirst, hsecond⟩ := h group List.mem_cons_self
      obtain ⟨hfirst', hsecond'⟩ := h' group' List.mem_cons_self
      have hcomma := congrArg (splitToken (ord ',')) (List.cons.inj heq).2
      rw [splitToken_append hfirst.1 hfirst.2, splitToken_append hfirst'.1 hfirst'.2] at hcomma
      obtain ⟨ha, hrest⟩ := Prod.mk.inj (Option.some.inj hcomma)
      have hclose := congrArg (splitToken (ord ')')) hrest
      rw [splitToken_append hsecond.1 hsecond.2, splitToken_append hsecond'.1 hsecond'.2] at hclose
      obtain ⟨hb, hrest⟩ := Prod.mk.inj (Option.some.inj hclose)
      rw [Prod.ext ha hb, ih (fun g hg => h g (List.mem_cons_of_mem _ hg))
        (fun g hg => h' g (List.mem_cons_of_mem _ hg)) hrest]

lemma mem_tokensOf {groups : List (PyStr × PyStr)} {token : PyStr} :
    token ∈ tokensOf groups ↔ ∃ group ∈ groups, token = group.1 ∨ token = group.2 := by
  simp [tokensOf]

lemma delimited_of_tokens {groups : List (PyStr × PyStr)}
    (h : ∀ token ∈ tokensOf groups, token ≠ [] ∧ ord ',' ∉ token ∧ ord ')' ∉ token) : Delimited groups := by
  intro group hgroup
  obtain ⟨hfirst, hcomma, -⟩ := h group.1 (mem_tokensOf.mpr ⟨group, hgroup, .inl rfl⟩)
  obtain ⟨hsecond, -, hclose⟩ := h group.2 (mem_tokensOf.mpr ⟨group, hgroup, .inr rfl⟩)
  exact ⟨⟨hfirst, hcomma⟩, hsecond, hclose⟩

lemma token_ne_nil {token : PyStr} {v : ℤ} (h : Token token v) : token ≠ [] := by
  cases h with
  | unset => decide
  | plain _ hne => exact hne
  | plus => exact List.cons_ne_nil _ _
  | minus => exact List.cons_ne_nil _ _

lemma delimited_of_token {groups : List (PyStr × PyStr)} (h : ∀ token ∈ tokensOf groups, ∃ v, Token token v) :
    Delimited groups := by
  refine delimited_of_tokens (fun token htoken => ?_)
  obtain ⟨v, hv⟩ := h token htoken
  exact ⟨token_ne_nil hv, token_delimiters hv⟩

lemma delimited_of_tokenValue {u : UnicodeTable} {groups : List (PyStr × PyStr)}
    (h : ∀ token ∈ tokensOf groups, ∃ v, tokenValue u token = some v) : Delimited groups := by
  refine delimited_of_tokens (fun token htoken => ?_)
  obtain ⟨v, hv⟩ := h token htoken
  exact ⟨tokenValue_ne_nil hv, tokenValue_delimiters hv⟩

/-- Groups have spans exactly when all their numbers have values. -/
lemma exists_spells {token : PyStr → ℤ → Prop} {groups : List (PyStr × PyStr)} :
    (∃ spans, Spells token groups spans) ↔ ∀ t ∈ tokensOf groups, ∃ v, token t v := by
  refine exists_forall₂.trans ⟨fun h t ht => ?_, fun h group hgroup => ?_⟩
  · obtain ⟨group, hgroup, ht⟩ := mem_tokensOf.mp ht
    obtain ⟨-, x, y, hx, hy, -⟩ := h group hgroup
    rcases ht with rfl | rfl
    · exact ⟨x, hx⟩
    · exact ⟨y, hy⟩
  · obtain ⟨x, hx⟩ := h group.1 (mem_tokensOf.mpr ⟨group, hgroup, .inl rfl⟩)
    obtain ⟨y, hy⟩ := h group.2 (mem_tokensOf.mpr ⟨group, hgroup, .inr rfl⟩)
    exact ⟨[x, y], x, y, hx, hy, rfl⟩

lemma Spells.tokens {token : PyStr → ℤ → Prop} {groups : List (PyStr × PyStr)} {spans : List Span}
    (h : Spells token groups spans) : ∀ t ∈ tokensOf groups, ∃ v, token t v :=
  exists_spells.mp ⟨spans, h⟩

/-- Two readings that never give one number two values give one list of spans. -/
lemma Spells.unique {token token' : PyStr → ℤ → Prop} (hvalue : ∀ t v v', token t v → token' t v' → v = v')
    {groups : List (PyStr × PyStr)} {spans spans' : List Span} (h : Spells token groups spans)
    (h' : Spells token' groups spans') : spans = spans' := by
  induction h generalizing spans' with
  | nil =>
    cases h'
    rfl
  | cons hgroup _ ih =>
    obtain ⟨x, y, hx, hy, rfl⟩ := hgroup
    cases h' with
    | cons hgroup' hrest' =>
      obtain ⟨x', y', hx', hy', rfl⟩ := hgroup'
      rw [hvalue _ _ _ hx hx', hvalue _ _ _ hy hy', ih hrest']

/-! ### The loop -/

/-- The numbers `int` reads, as a reading. -/
def reads (u : UnicodeTable) (token : PyStr) (v : ℤ) : Prop := tokenValue u token = some v

lemma stated_of_spells {u : UnicodeTable} {groups : List (PyStr × PyStr)} {spans : List Span}
    (h : Spells (reads u) groups spans) : Stated u (groupsText groups) spans := by
  induction h with
  | nil => exact .nil
  | cons hgroup _ ih =>
    obtain ⟨x, y, hx, hy, rfl⟩ := hgroup
    rw [groupsText_cons]
    exact .pair (tokenValue_ne_nil hx) (tokenValue_delimiters hx).1 hx (tokenValue_ne_nil hy)
      (tokenValue_delimiters hy).2 hy ih

lemma splitToken_eq {stop : PyChar} {rest token after : PyStr} (h : splitToken stop rest = some (token, after)) :
    rest = token ++ stop :: after := by
  unfold splitToken at h
  split at h
  · cases h
  · cases h
  · next i hfind =>
    obtain ⟨hlt, hstop, -⟩ := List.findIdx?_eq_some_iff_getElem.mp hfind
    obtain ⟨rfl, rfl⟩ := Prod.mk.inj (Option.some.inj h)
    rw [← of_decide_eq_true hstop, List.getElem_cons_drop, List.take_append_drop]

lemma openValue_even {values : List ℤ} {rest body : PyStr} {stop : PyChar} (heven : values.length % 2 = 0)
    (h : openValue values rest = some (body, stop)) : rest = ord '(' :: body ∧ stop = ord ',' := by
  unfold openValue at h
  rw [if_pos heven] at h
  cases rest with
  | nil => cases h
  | cons c tail =>
    simp only at h
    split at h
    · next hc =>
      obtain ⟨rfl, rfl⟩ := Prod.mk.inj (Option.some.inj h)
      exact ⟨hc ▸ rfl, rfl⟩
    · cases h

lemma openValue_odd {values : List ℤ} {rest body : PyStr} {stop : PyChar} (hodd : values.length % 2 = 1)
    (h : openValue values rest = some (body, stop)) : rest = body ∧ stop = ord ')' := by
  unfold openValue at h
  rw [if_neg (by omega)] at h
  obtain ⟨rfl, rfl⟩ := Prod.mk.inj (Option.some.inj h)
  exact ⟨rfl, rfl⟩

/-- What is left before a pair is groups; in the middle of one, its second number and groups. -/
lemma parseValues_groups (u : UnicodeTable) (values : List ℤ) (rest : PyStr) {result : List ℤ}
    (h : parseValues u values rest = some result) (hresult : result.length % 2 = 0) :
    (values.length % 2 = 0 → ∃ groups spans, rest = groupsText groups ∧ Spells (reads u) groups spans ∧
      result = values ++ spans.flatten) ∧
    (values.length % 2 = 1 → ∃ second y groups spans, rest = second ++ ord ')' :: groupsText groups ∧
      tokenValue u second = some y ∧ Spells (reads u) groups spans ∧
      result = values ++ [y] ++ spans.flatten) := by
  fun_induction parseValues u values rest with
  | case1 values =>
    obtain rfl := Option.some.inj h
    refine ⟨fun _ => ⟨[], [], rfl, .nil, (List.append_nil _).symm⟩, fun hodd => ?_⟩
    omega
  | case2 => cases h
  | case3 => cases h
  | case4 values rest hne body stop hopen token after hsplit value hvalue ih =>
    have hlen : (values ++ [value]).length = values.length + 1 := List.length_append
    obtain ⟨heven, hodd⟩ := ih h
    constructor
    · intro hparity
      obtain ⟨hrest, rfl⟩ := openValue_even hparity hopen
      obtain ⟨second, y, groups, spans, hafter, hy, hspells, hres⟩ := hodd (by omega)
      refine ⟨(token, second) :: groups, [value, y] :: spans, ?_, .cons ⟨value, y, hvalue, hy, rfl⟩ hspells, ?_⟩
      · rw [hrest, splitToken_eq hsplit, hafter, groupsText_cons]
      · rw [hres]
        simp
    · intro hparity
      obtain ⟨rfl, rfl⟩ := openValue_odd hparity hopen
      obtain ⟨groups, spans, hafter, hspells, hres⟩ := heven (by omega)
      exact ⟨token, value, groups, spans, hafter ▸ splitToken_eq hsplit, hvalue, hspells, hres⟩
  | case5 => cases h

/-! ### The outcome -/

/-- A field the parser looks into: not empty, not `NOMATCH` and not an error code. -/
structure ArrayField (field : PyStr) : Prop where
  nonempty : field ≠ []
  matched : field ≠ py "NOMATCH"
  accepted : ∀ c ∈ field.head?, ¬(ord 'A' ≤ c ∧ c ≤ ord 'Z')

/-- Such a field is refused or is groups of numbers `int` reads. -/
lemma parseDatResult_cases (u : UnicodeTable) {field : PyStr} (h : ArrayField field) :
    parseDatResult u field = .ok none ∨
      ∃ groups span spans, field = groupsText groups ∧ Spells (reads u) groups (span :: spans) ∧
        parseDatResult u field = .ok (some (matchDict span spans)) := by
  obtain ⟨c, rest, rfl⟩ := List.exists_cons_of_ne_nil h.nonempty
  cases hvalues : parseValues u [] (c :: rest) with
  | none =>
    left
    unfold parseDatResult
    rw [if_neg h.matched]
    dsimp only
    rw [if_neg (h.accepted c rfl), hvalues]
  | some values =>
    by_cases hparity : values.length % 2 = 1
    · left
      unfold parseDatResult
      rw [if_neg h.matched]
      dsimp only
      rw [if_neg (h.accepted c rfl), hvalues]
      exact if_pos hparity
    · right
      obtain ⟨groups, spans, hfield, hspells, -⟩ :=
        (parseValues_groups u [] (c :: rest) hvalues (by omega)).1 rfl
      cases hspells with
      | nil => cases hfield
      | @cons group span groups spans hgroup hrest =>
        have hspells : Spells (reads u) (group :: groups) (span :: spans) := .cons hgroup hrest
        refine ⟨group :: groups, span, spans, hfield, hspells, ?_⟩
        rw [hfield]
        exact parseDatResult_stated (stated_of_spells hspells)

lemma parseDatResult_groups {u : UnicodeTable} {groups : List (PyStr × PyStr)} {span : Span} {spans : List Span}
    (h : Spells (reads u) groups (span :: spans)) :
    parseDatResult u (groupsText groups) = .ok (some (matchDict span spans)) :=
  parseDatResult_stated (stated_of_spells h)

lemma reads_of_token {u : UnicodeTable} {token : PyStr} {v v' : ℤ} (h : Token token v) (h' : reads u token v') :
    v = v' := by
  unfold reads at h'
  rw [tokenValue_of_token u h] at h'
  split at h'
  · cases h'
  · exact Option.some.inj h'

lemma reads_of_not_long {groups : List (PyStr × PyStr)} (u : UnicodeTable)
    (htokens : ∀ token ∈ tokensOf groups, ∃ v, Token token v) (hlong : ¬LongOutcome (groupsText groups)) :
    ∀ token ∈ tokensOf groups, ∃ v, reads u token v := by
  intro token htoken
  obtain ⟨v, hv⟩ := htokens token htoken
  refine ⟨v, ?_⟩
  rw [reads, tokenValue_of_token u hv, if_neg]
  exact fun hdigits => hlong ⟨groups, rfl, htokens, token, htoken, hdigits⟩

lemma token_of_not_loose {groups : List (PyStr × PyStr)} {u : UnicodeTable}
    (hreads : ∀ token ∈ tokensOf groups, ∃ v, reads u token v) (hloose : ¬LooseOutcome u (groupsText groups)) :
    ∀ token ∈ tokensOf groups, ∃ v, Token token v := by
  intro token htoken
  by_contra hnone
  exact hloose ⟨groups, rfl, hreads, token, htoken, fun v hv => hnone ⟨v, hv⟩⟩

lemma not_exact_of_loose {u : UnicodeTable} {field : PyStr} (harray : ArrayField field)
    (h : LooseOutcome u field) : ¬OutcomeExact u field := by
  obtain ⟨groups, rfl, hreads, token, htoken, hloose⟩ := h
  rintro ⟨outcome, hparse, hiff, -⟩
  obtain ⟨spans, hspells⟩ := exists_spells.mpr hreads
  cases hspells with
  | nil => exact harray.nonempty rfl
  | @cons group span groups spans hgroup hrest =>
    have hspells : Spells (reads u) (group :: groups) (span :: spans) := .cons hgroup hrest
    rw [parseDatResult_groups hspells] at hparse
    obtain rfl := Except.ok.inj hparse
    obtain ⟨spans', groups', hfield, hspells'⟩ := hiff.mp rfl
    obtain rfl := groupsText_inj (delimited_of_tokenValue hreads) (delimited_of_token hspells'.tokens) hfield
    obtain ⟨v, hv⟩ := hspells'.tokens token htoken
    exact hloose v hv

lemma not_exact_of_long {u : UnicodeTable} {field : PyStr} (harray : ArrayField field)
    (h : LongOutcome field) : ¬OutcomeExact u field := by
  obtain ⟨groups, rfl, htokens, token, htoken, hlong⟩ := h
  rintro ⟨outcome, hparse, hiff, -⟩
  obtain ⟨spans, hspells⟩ := exists_spells.mpr htokens
  have hsome := hiff.mpr ⟨spans, groups, rfl, hspells⟩
  rcases parseDatResult_cases u harray with hnone | ⟨groups', span', spans', hfield, hspells', -⟩
  · obtain rfl := Except.ok.inj (hnone.symm.trans hparse)
    cases hsome
  · obtain rfl := groupsText_inj (delimited_of_token htokens) (delimited_of_tokenValue hspells'.tokens) hfield
    obtain ⟨v, hv⟩ := hspells'.tokens token htoken
    obtain ⟨v', hv'⟩ := htokens token htoken
    rw [reads, tokenValue_of_token u hv', if_pos hlong] at hv
    cases hv

/-- The outcome parser is right about a field exactly when its numbers are not all read by `int` with one
of them outside Go's form, nor all of that form with one of them too long. -/
theorem parseDatResult_exact (u : UnicodeTable) (field : PyStr) (harray : ArrayField field) :
    OutcomeExact u field ↔ ¬LooseOutcome u field ∧ ¬LongOutcome field := by
  constructor
  · intro h
    exact ⟨fun hloose => not_exact_of_loose harray hloose h, fun hlong => not_exact_of_long harray hlong h⟩
  · rintro ⟨hloose, hlong⟩
    rcases parseDatResult_cases u harray with hnone | ⟨groups, span, spans, rfl, hspells, hsome⟩
    · have hnot : ∀ spans, ¬MatchArray field spans := by
        rintro spans ⟨groups, rfl, hspells⟩
        obtain ⟨spans', hspells'⟩ := exists_spells.mpr (reads_of_not_long u hspells.tokens hlong)
        cases hspells' with
        | nil => exact harray.nonempty rfl
        | cons hgroup hrest =>
          rw [parseDatResult_groups (.cons hgroup hrest)] at hnone
          cases hnone
      exact ⟨none, hnone, iff_of_false Bool.false_ne_true (fun ⟨spans, h⟩ => hnot spans h),
        fun span groups h => absurd h (hnot _)⟩
    · obtain ⟨spans', hspells'⟩ := exists_spells.mpr (token_of_not_loose hspells.tokens hloose)
      refine ⟨_, hsome, iff_of_true rfl ⟨spans', groups, rfl, hspells'⟩, ?_⟩
      rintro span' spans'' ⟨groups', hfield, hstated⟩
      obtain rfl := groupsText_inj (delimited_of_tokenValue hspells.tokens) (delimited_of_token hstated.tokens) hfield
      have hvalue : ∀ t v v', Token t v → reads u t v' → v = v' := fun _ _ _ => reads_of_token
      obtain ⟨rfl, rfl⟩ := List.cons.inj (hstated.unique hvalue hspells)
      rfl

lemma arrayField_paren (rest : PyStr) : ArrayField (ord '(' :: rest) := by
  refine ⟨List.cons_ne_nil _ _, fun he => ?_, fun c hc => ?_⟩
  · have hhead : ord '(' = ord 'N' := (List.cons.inj he).1
    exact absurd hhead (by decide)
  · obtain rfl := Option.some.inj hc
    decide

theorem parseDatResult_exact_plain : OutcomeExact noUnicode (py "(0,1)(?,?)") ↔
    ¬LooseOutcome noUnicode (py "(0,1)(?,?)") ∧ ¬LongOutcome (py "(0,1)(?,?)") :=
  parseDatResult_exact noUnicode (py "(0,1)(?,?)") (arrayField_paren _)

lemma loose_space : LooseOutcome noUnicode (py "( 0,1)") := by
  have hreads : ∀ token ∈ tokensOf [(py " 0", py "1")], ∃ v, tokenValue noUnicode token = some v := by
    intro token htoken
    rcases List.mem_cons.mp htoken with rfl | htoken
    · exact ⟨0, by decide⟩
    · obtain rfl := List.mem_singleton.mp htoken
      exact ⟨1, by decide⟩
  refine ⟨[(py " 0", py "1")], by decide, hreads, py " 0", List.mem_cons_self, fun v hv => ?_⟩
  exact token_not_mem hv (c := ord ' ') (by decide) List.mem_cons_self

/-- A space inside a number: `int` reads `( 0,1)`, Go does not. -/
theorem parseDatResult_space : ¬∀ (u : UnicodeTable) (field : PyStr), ArrayField field → OutcomeExact u field :=
  fun h => not_exact_of_loose (arrayField_paren _) loose_space (h noUnicode (py "( 0,1)") (arrayField_paren _))

/-! ### Printing -/

def decimalText (n : ℕ) : PyStr :=
  if h : n < 10 then [⟨48 + n, by omega⟩] else decimalText (n / 10) ++ [⟨48 + n % 10, by omega⟩]
termination_by n
decreasing_by omega

/-- A bound as Fowler's tables write it. -/
def boundText (v : ℤ) : PyStr :=
  if v = -1 then py "?" else if v < 0 then ord '-' :: decimalText v.natAbs else decimalText v.natAbs

def printGroups (spans : List (ℤ × ℤ)) : List (PyStr × PyStr) :=
  spans.map (fun span => (boundText span.1, boundText span.2))

lemma digitValue_digit {d : ℕ} (h : d < 10) : digitValue ⟨48 + d, by omega⟩ = some d := by
  unfold digitValue
  rw [if_pos ⟨by simp, by simp; omega⟩]
  simp

lemma decimalText_digits (n : ℕ) : ∃ ds, Digits 10 (decimalText n) ds ∧ ofDigits 10 ds = n := by
  fun_induction decimalText n with
  | case1 n h => exact ⟨[n], .cons ⟨digitValue_digit h, h⟩ .nil, by simp [ofDigits]⟩
  | case2 n h ih =>
    obtain ⟨ds, hds, hn⟩ := ih
    have hlast : n % 10 < 10 := Nat.mod_lt n (by decide)
    refine ⟨ds ++ [n % 10], List.rel_append hds (.cons ⟨digitValue_digit hlast, hlast⟩ .nil), ?_⟩
    rw [ofDigits, List.foldl_append, ← ofDigits, hn, List.foldl_cons, List.foldl_nil]
    omega

lemma decimalText_ne_nil (n : ℕ) : decimalText n ≠ [] := by
  unfold decimalText
  split <;> simp

lemma token_boundText (v : ℤ) : Token (boundText v) v := by
  obtain ⟨ds, hds, hn⟩ := decimalText_digits v.natAbs
  have hne := decimalText_ne_nil v.natAbs
  unfold boundText
  split_ifs with hunset hneg
  · exact hunset ▸ .unset
  · have hv : -(ofDigits 10 ds : ℤ) = v := by omega
    have htoken := Token.minus hds hne
    rwa [hv] at htoken
  · have hv : (ofDigits 10 ds : ℤ) = v := by omega
    have htoken := Token.plain hds hne
    rwa [hv] at htoken

lemma spells_printGroups (spans : List (ℤ × ℤ)) :
    Spells Token (printGroups spans) (spans.map (fun span => [span.1, span.2])) := by
  induction spans with
  | nil => exact .nil
  | cons span spans ih => exact .cons ⟨span.1, span.2, token_boundText _, token_boundText _, rfl⟩ ih

/-- A printed match array is read back, as long as `int` takes its numbers. -/
theorem parseDatResult_print (u : UnicodeTable) (span : ℤ × ℤ) (spans : List (ℤ × ℤ))
    (h : ∀ token ∈ tokensOf (printGroups (span :: spans)), digitCount token ≤ intMaxStrDigits) :
    parseDatResult u (groupsText (printGroups (span :: spans))) =
      .ok (some (matchDict [span.1, span.2] (spans.map (fun span => [span.1, span.2])))) := by
  have htokens := spells_printGroups (span :: spans)
  have hreads : ∀ token ∈ tokensOf (printGroups (span :: spans)), ∃ v, reads u token v := by
    intro token htoken
    obtain ⟨v, hv⟩ := htokens.tokens token htoken
    exact ⟨v, by rw [reads, tokenValue_of_token u hv, if_neg (Nat.not_lt.mpr (h token htoken))]⟩
  obtain ⟨spans', hspells⟩ := exists_spells.mpr hreads
  have hvalue : ∀ t v v', Token t v → reads u t v' → v = v' := fun _ _ _ => reads_of_token
  rw [← htokens.unique hvalue hspells] at hspells
  exact parseDatResult_groups hspells

end SciForge.Corpus
