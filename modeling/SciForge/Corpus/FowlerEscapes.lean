import SciForge.Python.IntText
import SciForge.Corpus.Fowler

/-!
# The escapes of a Fowler field

A field falls into units, each a character or an escape with the characters it spans, and in one way
only: the letter after a backslash says how many characters belong to it. Go's grammar and the scan
agree on the units; the scan reads more of them, since `int` and `chr` decide what an escape denotes.
-/

namespace SciForge.Corpus

/-! ### Units -/

/-- The escapes of one letter, with the code points they denote. -/
def letterEscapes : List (Char × ℕ) :=
  [('a', 7), ('b', 8), ('f', 12), ('n', 10), ('r', 13), ('t', 9), ('v', 11), ('\\', 92), ('"', 34)]

/-- A unit of Go's grammar and the character it denotes. -/
inductive GoUnit : PyStr → PyChar → Prop
  | plain {c : PyChar} (hslash : c ≠ ord '\\') (hquote : c ≠ ord '"') (hline : c ≠ ord '\n') : GoUnit [c] c
  | letter {code : Char} {c : PyChar} (h : (code, c.val) ∈ letterEscapes) : GoUnit [ord '\\', ord code] c
  | byte {digits : PyStr} {ds : List ℕ} {c : PyChar} (h : Digits 16 digits ds) (hlen : digits.length = 2)
      (hc : c.val = ofDigits 16 ds) : GoUnit (ord '\\' :: ord 'x' :: digits) c
  | scalar {code : Char} {width : ℕ} {digits : PyStr} {ds : List ℕ} {c : PyChar}
      (hcode : (code, width) = ('u', 4) ∨ (code, width) = ('U', 8)) (h : Digits 16 digits ds)
      (hlen : digits.length = width) (hc : c.val = ofDigits 16 ds) (hscalar : c.val < 0xD800 ∨ 0xDFFF < c.val) :
      GoUnit (ord '\\' :: ord code :: digits) c
  | octal {digits : PyStr} {ds : List ℕ} {c : PyChar} (h : Digits 8 digits ds) (hlen : digits.length = 3)
      (hc : c.val = ofDigits 8 ds) (hbyte : c.val ≤ 255) : GoUnit (ord '\\' :: digits) c

/-- A unit the scan reads: any character but a backslash, a letter of its table, or digits of the width
it slices that `int` and `chr` take. -/
inductive ReadUnit (u : UnicodeTable) : PyStr → PyChar → Prop
  | plain {c : PyChar} (hslash : c ≠ ord '\\') : ReadUnit u [c] c
  | letter {code c : PyChar} (h : datEscapes.get code = some c) : ReadUnit u [ord '\\', code] c
  | hex {code : PyChar} {width : ℕ} {digits : PyStr} {n : ℤ} {c : PyChar} (hcode : datEscapes.get code = none)
      (hwidth : escapeWidths.get code = some width) (hlen : digits.length = width)
      (hint : pyInt u digits 16 = some n) (hchr : pyChr n = some c) : ReadUnit u (ord '\\' :: code :: digits) c
  | octal {code : PyChar} {digits : PyStr} {n : ℤ} {c : PyChar} (hcode : datEscapes.get code = none)
      (hwidth : escapeWidths.get code = none) (hlen : (code :: digits).length = 3)
      (hint : pyInt u (code :: digits) 8 = some n) (hchr : pyChr n = some c) :
      ReadUnit u (ord '\\' :: code :: digits) c

/-- A field is a sequence of units, `out` the characters they denote. -/
def Expands (unit : PyStr → PyChar → Prop) (field out : PyStr) : Prop :=
  ∃ units : List PyStr, field = units.flatten ∧ List.Forall₂ unit units out

/-- The expansion is right about a field: it succeeds on the grammar alone and gives what is denoted. -/
def UnquoteExact (u : UnicodeTable) (field : PyStr) : Prop :=
  ((datUnquote u field).isSome ↔ ∃ out, Expands GoUnit field out) ∧
    ∀ out, Expands GoUnit field out → datUnquote u field = some out

/-- The scan reads every unit and one of them is none of Go's. -/
def LooseField (u : UnicodeTable) (field : PyStr) : Prop :=
  ∃ units : List PyStr, field = units.flatten ∧ (∀ unit ∈ units, ∃ c, ReadUnit u unit c) ∧
    ∃ unit ∈ units, ∀ c, ¬GoUnit unit c

/-! ### Go's units are read -/

lemma datEscapes_letter {code : Char} {n : ℕ} (h : (code, n) ∈ letterEscapes) :
    (datEscapes.get (ord code)).map Fin.val = some n := by
  simp only [letterEscapes, List.mem_cons, List.not_mem_nil, or_false, Prod.mk.injEq] at h
  rcases h with ⟨rfl, rfl⟩ | ⟨rfl, rfl⟩ | ⟨rfl, rfl⟩ | ⟨rfl, rfl⟩ | ⟨rfl, rfl⟩ | ⟨rfl, rfl⟩ | ⟨rfl, rfl⟩ |
    ⟨rfl, rfl⟩ | ⟨rfl, rfl⟩ <;> decide

lemma escape_of_octal {c : PyChar} {d : ℕ} (hd : digitValue c = some d) (hlt : d < 8) :
    datEscapes.get c = none ∧ escapeWidths.get c = none := by
  have hkeys : (datEscapes.keys ++ escapeWidths.keys).all (fun key => 8 ≤ (digitValue key).getD 8) = true := by
    decide
  rw [Dict.get_eq_none, Dict.get_eq_none, ← not_or, ← List.mem_append]
  intro hmem
  have hvalue := of_decide_eq_true (List.all_eq_true.mp hkeys c hmem)
  rw [hd, Option.getD_some] at hvalue
  omega

lemma pyChr_of_val {c : PyChar} {n : ℕ} (h : c.val = n) : pyChr n = some c := by
  have hc := c.isLt
  have hrange : 0 ≤ (n : ℤ) ∧ (n : ℤ) < 0x110000 := by omega
  rw [pyChr, dif_pos hrange]
  congr 1
  ext
  simp [h]

lemma readUnit_of_goUnit (u : UnicodeTable) {unit : PyStr} {c : PyChar} (h : GoUnit unit c) : ReadUnit u unit c := by
  cases h with
  | plain hslash _ _ => exact .plain hslash
  | letter h =>
    obtain ⟨c', hc', hval⟩ := Option.map_eq_some_iff.mp (datEscapes_letter h)
    exact .letter (hc'.trans (congrArg some (Fin.ext hval)))
  | @byte digits ds c h hlen hc =>
    have hne : digits ≠ [] := List.ne_nil_of_length_eq_add_one hlen
    have hint := pyInt_digits u (by decide) h hne
    exact .hex (by decide) rfl hlen hint (pyChr_of_val hc)
  | @scalar code width digits ds c hcode h hlen hc hscalar =>
    have hcodes : datEscapes.get (ord code) = none ∧ escapeWidths.get (ord code) = some width := by
      rcases hcode with he | he <;> obtain ⟨rfl, rfl⟩ := Prod.mk.inj he <;> decide
    have hwidth : 0 < width := by
      rcases hcode with he | he <;> obtain ⟨rfl, rfl⟩ := Prod.mk.inj he <;> decide
    have hne : digits ≠ [] := List.ne_nil_of_length_pos (hlen ▸ hwidth)
    have hint := pyInt_digits u (by decide) h hne
    exact .hex hcodes.1 hcodes.2 hlen hint (pyChr_of_val hc)
  | @octal digits ds c h hlen hc hbyte =>
    cases h with
    | nil => cases hlen
    | cons hd htail =>
      have hint := pyInt_digits u (by decide) (.cons hd htail) (List.cons_ne_nil _ _)
      have hcodes := escape_of_octal hd.1 hd.2
      exact .octal hcodes.1 hcodes.2 hlen hint (pyChr_of_val hc)

/-! ### The scan -/

/-- The next unit's character and length, as the loop finds them. -/
def scanUnit (u : UnicodeTable) (field : PyStr) : Option (PyChar × ℕ) :=
  match field with
  | [] => none
  | char :: rest => if char ≠ ord '\\' then some (char, 1) else datEscape u (char :: rest)

lemma datUnquote_cons (u : UnicodeTable) (char : PyChar) (rest : PyStr) :
    datUnquote u (char :: rest) = (scanUnit u (char :: rest)).bind (fun scanned =>
      (datUnquote u (rest.drop (scanned.2 - 1))).map (fun out => scanned.1 :: out)) := by
  rw [datUnquote, scanUnit]
  split
  · rfl
  · cases datEscape u (char :: rest) <;> rfl

lemma scanUnit_read {u : UnicodeTable} {unit : PyStr} {c : PyChar} (h : ReadUnit u unit c) (rest : PyStr) :
    scanUnit u (unit ++ rest) = some (c, unit.length) := by
  cases h with
  | plain hslash => exact if_pos hslash
  | letter h => simp [scanUnit, datEscape, h]
  | @hex code width digits n c hcode hwidth hlen hint hchr =>
    have htake : (digits ++ rest).take width = digits := by rw [← hlen, List.take_left]
    simp [scanUnit, datEscape, escapeDigits, hcode, hwidth, htake, hint, hchr, hlen]
    omega
  | @octal code digits n c hcode hwidth hlen hint hchr =>
    have hdigits : digits.length = 2 := Nat.succ.inj hlen
    have htake : (digits ++ rest).take 2 = digits := by rw [← hdigits, List.take_left]
    simp [scanUnit, datEscape, escapeDigits, hcode, hwidth, htake, hint, hchr, hdigits]

lemma datEscape_digits {u : UnicodeTable} {code : PyChar} {tail digits : PyStr} {base width skip : ℕ} {c : PyChar}
    (hcode : datEscapes.get code = none) (hdigits : escapeDigits (ord '\\' :: code :: tail) = (digits, base, width))
    (h : datEscape u (ord '\\' :: code :: tail) = some (c, skip)) :
    ∃ n, pyInt u digits base = some n ∧ pyChr n = some c ∧ digits.length = width - (if base = 16 then 2 else 1) ∧
      skip = width := by
  have hnone : ((ord '\\' :: code :: tail).drop 1).head?.bind datEscapes.get = none := hcode
  unfold datEscape at h
  rw [hnone, hdigits] at h
  dsimp only at h
  cases hread : (pyInt u digits base).bind pyChr with
  | none =>
    rw [hread] at h
    cases h
  | some out =>
    rw [hread] at h
    dsimp only at h
    obtain ⟨n, hint, hchr⟩ := Option.bind_eq_some_iff.mp hread
    rw [Option.ite_none_left_eq_some, not_not] at h
    obtain ⟨hlen, hout⟩ := h
    obtain ⟨rfl, rfl⟩ := Prod.mk.inj (Option.some.inj hout)
    exact ⟨n, hint, hchr, hlen, rfl⟩

lemma readUnit_of_datEscape {u : UnicodeTable} {code : PyChar} {tail : PyStr} {c : PyChar} {skip : ℕ}
    (h : datEscape u (ord '\\' :: code :: tail) = some (c, skip)) :
    ∃ unit rest, ord '\\' :: code :: tail = unit ++ rest ∧ unit.length = skip ∧ ReadUnit u unit c := by
  cases hcode : datEscapes.get code with
  | some escaped =>
    unfold datEscape at h
    simp only [List.drop_succ_cons, List.drop_zero, List.head?_cons, Option.bind_some, hcode] at h
    obtain ⟨rfl, rfl⟩ := Prod.mk.inj (Option.some.inj h)
    exact ⟨[ord '\\', code], tail, rfl, rfl, .letter hcode⟩
  | none =>
    cases hwidth : escapeWidths.get code with
    | some width =>
      have hdigits : escapeDigits (ord '\\' :: code :: tail) = (tail.take width, 16, 2 + width) := by
        simp [escapeDigits, hwidth]
      obtain ⟨n, hint, hchr, hlen, rfl⟩ := datEscape_digits hcode hdigits h
      rw [if_pos rfl, Nat.add_sub_cancel_left] at hlen
      refine ⟨ord '\\' :: code :: tail.take width, tail.drop width, ?_, ?_, .hex hcode hwidth hlen hint hchr⟩
      · rw [List.cons_append, List.cons_append, List.take_append_drop]
      · rw [List.length_cons, List.length_cons, hlen]
        omega
    | none =>
      have hdigits : escapeDigits (ord '\\' :: code :: tail) = (code :: tail.take 2, 8, 4) := by
        simp [escapeDigits, hwidth]
      obtain ⟨n, hint, hchr, hlen, rfl⟩ := datEscape_digits hcode hdigits h
      refine ⟨ord '\\' :: code :: tail.take 2, tail.drop 2, ?_, ?_, .octal hcode hwidth hlen hint hchr⟩
      · rw [List.cons_append, List.cons_append, List.take_append_drop]
      · exact congrArg Nat.succ hlen

lemma readUnit_of_scan {u : UnicodeTable} {field : PyStr} {c : PyChar} {skip : ℕ}
    (h : scanUnit u field = some (c, skip)) :
    ∃ unit rest, field = unit ++ rest ∧ unit.length = skip ∧ ReadUnit u unit c := by
  cases field with
  | nil => cases h
  | cons char rest =>
    unfold scanUnit at h
    dsimp only at h
    split at h
    · next hslash =>
      obtain ⟨rfl, rfl⟩ := Prod.mk.inj (Option.some.inj h)
      exact ⟨[char], rest, rfl, rfl, .plain hslash⟩
    · next hslash =>
      obtain rfl := not_not.mp hslash
      cases rest with
      | nil => cases h
      | cons code tail =>
        obtain ⟨unit, after, hfield, hlen, hread⟩ := readUnit_of_datEscape h
        exact ⟨unit, after, hfield, hlen, hread⟩

lemma readUnit_ne_nil {u : UnicodeTable} {unit : PyStr} {c : PyChar} (h : ReadUnit u unit c) : unit ≠ [] := by
  cases h <;> exact List.cons_ne_nil _ _

lemma datUnquote_read {u : UnicodeTable} {unit : PyStr} {c : PyChar} (h : ReadUnit u unit c) (rest : PyStr) :
    datUnquote u (unit ++ rest) = (datUnquote u rest).map (fun out => c :: out) := by
  have hscan := scanUnit_read h rest
  obtain ⟨char, tail, rfl⟩ := List.exists_cons_of_ne_nil (readUnit_ne_nil h)
  rw [List.cons_append] at hscan ⊢
  rw [datUnquote_cons, hscan]
  simp

lemma datUnquote_of_expands {u : UnicodeTable} {field out : PyStr} (h : Expands (ReadUnit u) field out) :
    datUnquote u field = some out := by
  obtain ⟨units, rfl, hunits⟩ := h
  induction hunits with
  | nil => rw [List.flatten_nil, datUnquote]
  | cons hunit _ ih => rw [List.flatten_cons, datUnquote_read hunit, ih, Option.map_some]

lemma expands_of_datUnquote {u : UnicodeTable} {field out : PyStr} (h : datUnquote u field = some out) :
    Expands (ReadUnit u) field out := by
  induction hlen : field.length using Nat.strong_induction_on generalizing field out with
  | _ length ih =>
    cases field with
    | nil =>
      rw [datUnquote] at h
      obtain rfl := Option.some.inj h
      exact ⟨[], rfl, .nil⟩
    | cons char tail =>
      have hcons := h
      rw [datUnquote_cons] at hcons
      obtain ⟨⟨c, skip⟩, hscan, -⟩ := Option.bind_eq_some_iff.mp hcons
      obtain ⟨unit, rest, hfield, -, hread⟩ := readUnit_of_scan hscan
      rw [hfield, datUnquote_read hread] at h
      obtain ⟨expanded, hrest, rfl⟩ := Option.map_eq_some_iff.mp h
      have hshorter : rest.length < length := by
        have hpos := List.length_pos_of_ne_nil (readUnit_ne_nil hread)
        rw [← hlen, hfield, List.length_append]
        omega
      obtain ⟨units, rfl, hunits⟩ := ih rest.length hshorter hrest rfl
      exact ⟨unit :: units, hfield, .cons hread hunits⟩

/-! ### One way to take a field apart -/

lemma readUnit_unique {u : UnicodeTable} {unit unit' rest rest' : PyStr} {c c' : PyChar}
    (h : ReadUnit u unit c) (h' : ReadUnit u unit' c') (heq : unit ++ rest = unit' ++ rest') :
    unit = unit' ∧ c = c' := by
  have hscan := scanUnit_read h rest
  rw [heq, scanUnit_read h' rest'] at hscan
  obtain ⟨hc, hlen⟩ := Prod.mk.inj (Option.some.inj hscan)
  exact ⟨List.append_inj_left heq hlen.symm, hc.symm⟩

lemma units_unique {u : UnicodeTable} {units units' : List PyStr} (h : ∀ unit ∈ units, ∃ c, ReadUnit u unit c)
    (h' : ∀ unit ∈ units', ∃ c, ReadUnit u unit c) (heq : units.flatten = units'.flatten) : units = units' := by
  induction units generalizing units' with
  | nil =>
    cases units' with
    | nil => rfl
    | cons unit' units' =>
      obtain ⟨c', hread'⟩ := h' unit' List.mem_cons_self
      exact absurd (List.append_eq_nil_iff.mp heq.symm).1 (readUnit_ne_nil hread')
  | cons unit units ih =>
    obtain ⟨c, hread⟩ := h unit List.mem_cons_self
    cases units' with
    | nil => exact absurd (List.append_eq_nil_iff.mp heq).1 (readUnit_ne_nil hread)
    | cons unit' units' =>
      obtain ⟨c', hread'⟩ := h' unit' List.mem_cons_self
      rw [List.flatten_cons, List.flatten_cons] at heq
      obtain ⟨rfl, -⟩ := readUnit_unique hread hread' heq
      rw [ih (fun unit hu => h unit (List.mem_cons_of_mem _ hu))
        (fun unit hu => h' unit (List.mem_cons_of_mem _ hu)) (List.append_cancel_left heq)]

/-! ### The exact condition -/

lemma expands_read {u : UnicodeTable} {field out : PyStr} (h : Expands GoUnit field out) :
    Expands (ReadUnit u) field out := by
  obtain ⟨units, hfield, hunits⟩ := h
  exact ⟨units, hfield, hunits.imp (fun _ _ => readUnit_of_goUnit u)⟩

lemma not_exact_of_looseField {u : UnicodeTable} {field : PyStr} (h : LooseField u field) :
    ¬UnquoteExact u field := by
  obtain ⟨units, rfl, hread, unit, hunit, hloose⟩ := h
  rintro ⟨hiff, -⟩
  obtain ⟨out, hout⟩ := exists_forall₂.mpr hread
  obtain ⟨out', units', heq, hunits'⟩ := hiff.mp (by rw [datUnquote_of_expands ⟨units, rfl, hout⟩]; rfl)
  have hgo := exists_forall₂.mp ⟨out', hunits'⟩
  obtain rfl := units_unique hread
    (fun text ht => (hgo text ht).imp (fun _ => readUnit_of_goUnit u)) heq
  obtain ⟨c, hc⟩ := hgo unit hunit
  exact hloose c hc

/-- The expansion is right about a field exactly when the scan does not read all its units with one of
them outside Go's grammar. -/
theorem datUnquote_exact (u : UnicodeTable) (field : PyStr) : UnquoteExact u field ↔ ¬LooseField u field := by
  refine ⟨fun h hloose => not_exact_of_looseField hloose h, fun hloose => ⟨⟨fun hsome => ?_, ?_⟩, ?_⟩⟩
  · obtain ⟨out, hout⟩ := Option.isSome_iff_exists.mp hsome
    obtain ⟨units, rfl, hunits⟩ := expands_of_datUnquote hout
    have hread := exists_forall₂.mp ⟨out, hunits⟩
    have hgo : ∀ unit ∈ units, ∃ c, GoUnit unit c := by
      intro unit hunit
      by_contra hnone
      exact hloose ⟨units, rfl, hread, unit, hunit, fun c hc => hnone ⟨c, hc⟩⟩
    obtain ⟨out', hout'⟩ := exists_forall₂.mpr hgo
    exact ⟨out', units, rfl, hout'⟩
  · rintro ⟨out, hout⟩
    rw [datUnquote_of_expands (expands_read hout)]
    rfl
  · exact fun out hout => datUnquote_of_expands (expands_read hout)

lemma goUnit_ne_quote {unit : PyStr} {c : PyChar} (h : GoUnit unit c) : unit ≠ [ord '"'] := by
  intro he
  have hhead : unit.head? = some (ord '"') := congrArg List.head? he
  cases h with
  | plain _ hquote _ => exact hquote (Option.some.inj hhead)
  | letter => exact absurd (Option.some.inj hhead) (by decide)
  | byte => exact absurd (Option.some.inj hhead) (by decide)
  | scalar => exact absurd (Option.some.inj hhead) (by decide)
  | octal => exact absurd (Option.some.inj hhead) (by decide)

/-- A bare double quote is read, and Go refuses it. -/
theorem datUnquote_quote : ¬∀ (u : UnicodeTable) (field : PyStr), UnquoteExact u field := by
  have hslash : ord '"' ≠ ord '\\' := by decide
  intro h
  refine not_exact_of_looseField ⟨[[ord '"']], rfl, fun unit hunit => ?_, [ord '"'], List.mem_cons_self, ?_⟩
    (h ⟨fun _ => false, fun _ => none⟩ (py "\""))
  · obtain rfl := List.mem_singleton.mp hunit
    exact ⟨ord '"', .plain hslash⟩
  · exact fun c hc => goUnit_ne_quote hc rfl

end SciForge.Corpus
