import SciForge.Tools.PinLines
import Mathlib.Data.List.Forall2

/-!
# Checkout pins

Which workflow files the checkout scan reads step by step.
-/

namespace SciForge.Tools.PinScan

/-- The line of the step's own ref. -/
def Step.refLine (s : Step) (n : ℕ) : Option ℕ := (s.own n "ref").map Prod.snd

/-- The record names the step's own version, or there is none to name and no other ref is named. -/
def Placed.Reads (x : Placed) : Record → Prop
  | .pinned version line => x.step.pin x.before = some (version, line)
  | .noRef _ => x.step.pin x.before = none
  | .otherRef line _ => x.step.pin x.before = none ∧ x.step.refLine x.before = some line

/-- The scan has a record for each step that checks SciForge out, in their order, and no other. -/
def OnePerStep (jobs : List Job) : Prop :=
  List.Forall₂ Placed.Reads ((placed 0 (pieces jobs)).filter (fun x => x.step.sciforge)) (scan (lines jobs))

/-- A line of the step, or after it up to the next step, mentions the repository. -/
def Placed.mentioned (x : Placed) : Bool :=
  mentions x.step.openingLine || (x.step.rest ++ x.after).any (fun row => mentions row.line)

/-- The last ref line after the first of the step, up to the next step, is its own when it names a version, and leaves
no other to be named when it does not. -/
def Placed.Alone (x : Placed) : Prop :=
  match (refs (x.step.rest ++ x.after) (x.before + 1)).getLast? with
  | none => x.step.pin x.before = none
  | some (text, line) =>
    if (x.step.pin x.before).isSome then x.step.refLine x.before = some line
    else refValue text = [] ∨ (isVersion (refValue text) = false ∧ x.step.refLine x.before = some line)

/-- The repository is mentioned by the steps that check it out alone, and the refs of these are alone. -/
def Legible (jobs : List Job) : Prop :=
  (∀ row ∈ rowsFirst (pieces jobs), mentions row.line = false) ∧
  ∀ x ∈ placed 0 (pieces jobs), if x.step.sciforge then x.Alone else x.mentioned = false

/-! ### The own keys of a step -/

section

variable {s : Step} {n : ℕ}

lemma nested_snd (above : List (ℕ × Line)) (keys : List (ℕ × Entry × ℕ)) :
    (nested above keys).map Prod.snd = keys.map Prod.snd := by
  induction keys generalizing above with
  | nil => rfl
  | cons key rest ih =>
    obtain ⟨column, entry⟩ := key
    unfold nested
    rw [List.map_cons, List.map_cons, ih]

lemma find_spec {above : List Line} {key : Line} {entry : Entry × ℕ} (h : s.find n above key = some entry) :
    entry ∈ s.keys n ∧ entry.1.key = key := by
  unfold Step.find at h
  obtain ⟨⟨parents, entry'⟩, hfind, rfl⟩ := Option.map_eq_some_iff.mp h
  have hmem := List.mem_of_find?_eq_some hfind
  have hfound := List.find?_some hfind
  rw [Bool.and_eq_true] at hfound
  have hkeys : (nested [] (s.columns n)).map Prod.snd = s.keys n := by
    rw [nested_snd]
    unfold Step.columns
    rw [List.map_map]
    exact List.map_id (s.keys n)
  refine ⟨?_, of_decide_eq_true hfound.2⟩
  rw [← hkeys]
  exact List.mem_map_of_mem hmem

lemma own_spec {key : String} {e : Entry} {line : ℕ} (h : s.own n key = some (e, line)) :
    (Row.key e, line) ∈ (Row.key s.opening :: s.rest).zipIdx (n + 1) ∧ e.key = key.toList := by
  have hkeys : (e, line) ∈ s.keys n ∧ e.key = key.toList := by
    unfold Step.own at h
    rcases Option.or_eq_some_iff.mp h with hinput | ⟨-, hkey⟩
    · exact find_spec hinput
    · exact find_spec hkey
  refine ⟨?_, hkeys.2⟩
  obtain ⟨⟨row, line'⟩, hmem, hrow⟩ := List.mem_filterMap.mp hkeys.1
  obtain ⟨e', hentry, heq⟩ := Option.map_eq_some_iff.mp hrow
  obtain ⟨rfl, rfl⟩ := Prod.mk.inj heq
  cases row with
  | key e =>
    obtain rfl := Option.some.inj hentry
    exact hmem
  | other line item => cases hentry

lemma same_of_line {rows : List Row} {row row' : Row} {line : ℕ} (h : (row, line) ∈ rows.zipIdx n)
    (h' : (row', line) ∈ rows.zipIdx n) : row = row' := by
  obtain ⟨-, -, hrow⟩ := List.mem_zipIdx h
  obtain ⟨-, -, hrow'⟩ := List.mem_zipIdx h'
  exact hrow.trans hrow'.symm

lemma mentioned_of_sciforge {x : Placed} (h : x.step.sciforge = true) : x.mentioned = true := by
  unfold Step.sciforge at h
  obtain ⟨⟨e, line⟩, hown, hscalar⟩ := (Option.any_eq_true _ _).mp h
  obtain ⟨hline, hkey⟩ := own_spec hown
  have hmem := List.fst_mem_of_mem_zipIdx hline
  have hvalue := of_decide_eq_true hscalar
  unfold Placed.mentioned
  rw [Bool.or_eq_true]
  rcases List.mem_cons.mp hmem with hopening | hrest
  · left
    have hline : x.step.openingLine =
        (List.replicate x.step.opening.indent ' ' ++ '-' :: ' ' :: List.replicate x.step.gap ' ') ++ e.text := by
      rw [Row.key.inj hopening, List.append_assoc]
      rfl
    rw [hline]
    exact mentions_of_scalar hkey hvalue _
  · right
    exact List.any_eq_true.mpr ⟨.key e, List.mem_append_left _ hrest, mentions_of_scalar hkey hvalue _⟩

end

/-! ### The record of a step -/

section

variable (x : Placed)

lemma scanned_spec : x.scanned.records = [] ∧ x.scanned.repo = x.mentioned ∧
    x.scanned.refV = ((refs (x.step.rest ++ x.after) (x.before + 1)).getLast?.map
      (fun ref => refValue ref.1)).getD [] ∧
    x.scanned.refLn = ((refs (x.step.rest ++ x.after) (x.before + 1)).getLast?.map Prod.snd).getD 0 := by
  have hlines : x.scanned = ((x.step.rest ++ x.after).map Row.line).foldl Scan.read
      ((Scan.start x.before).read x.step.openingLine) := by
    unfold Placed.scanned Step.lines
    rw [List.cons_append, ← List.map_append]
    rfl
  obtain ⟨-, hrecords, hrepo, hvalue, hline⟩ :=
    Scan.read_rows (x.step.rest ++ x.after) ((Scan.start x.before).read x.step.openingLine)
  rw [← hlines] at hrecords hrepo hvalue hline
  rw [hrecords, hrepo, hvalue, hline, Scan.read_openingLine]
  exact ⟨rfl, rfl, rfl, rfl⟩

lemma records_scanned : x.scanned.flush.records = if x.mentioned then [x.scanned.record] else [] := by
  obtain ⟨hrecords, hrepo, -⟩ := scanned_spec x
  unfold Scan.flush
  rw [hrecords, hrepo]
  rfl

lemma pin_eq_some {s : Step} {n line : ℕ} {version : Line} : s.pin n = some (version, line) ↔
    ∃ e, s.own n "ref" = some (e, line) ∧ scalar e.value = some version ∧ isVersion version = true := by
  unfold Step.pin
  rw [Option.bind_eq_some_iff]
  constructor
  · rintro ⟨⟨e, line'⟩, hown, hread⟩
    obtain ⟨version', hversion, heq⟩ := Option.map_eq_some_iff.mp hread
    obtain ⟨rfl, rfl⟩ := Prod.mk.inj heq
    obtain ⟨hscalar, his⟩ := Option.filter_eq_some_iff.mp hversion
    exact ⟨e, hown, hscalar, his⟩
  · rintro ⟨e, hown, hscalar, his⟩
    refine ⟨(e, line), hown, Option.map_eq_some_iff.mpr ⟨version, ?_, rfl⟩⟩
    exact Option.filter_eq_some_iff.mpr ⟨hscalar, his⟩

lemma text_of_own {e : Entry} {text : Line} {line : ℕ}
    (hlast : (refs (x.step.rest ++ x.after) (x.before + 1)).getLast? = some (text, line))
    (hown : x.step.own x.before "ref" = some (e, line)) : text = e.value := by
  obtain ⟨hstep, hkey⟩ := own_spec hown
  have hown' : (Row.key e, line) ∈ ((Row.key x.step.opening :: x.step.rest) ++ x.after).zipIdx (x.before + 1) := by
    rw [List.zipIdx_append]
    exact List.mem_append_left _ hstep
  obtain ⟨⟨row, line'⟩, hmem, hrow⟩ := List.mem_filterMap.mp (List.mem_of_getLast? hlast)
  obtain ⟨text', htext, heq⟩ := Option.map_eq_some_iff.mp hrow
  obtain ⟨rfl, rfl⟩ := Prod.mk.inj heq
  obtain rfl := same_of_line hown' (List.mem_cons_of_mem _ hmem)
  have href := refText_line e
  rw [if_pos hkey] at href
  exact Option.some.inj (htext.symm.trans href)

lemma refValue_of_pin {e : Entry} {line : ℕ} (hown : x.step.own x.before "ref" = some (e, line))
    (hpin : (x.step.pin x.before).isSome = true) :
    isVersion (refValue e.value) = true ∧ x.step.pin x.before = some (refValue e.value, line) := by
  obtain ⟨⟨version, line'⟩, hversion⟩ := Option.isSome_iff_exists.mp hpin
  obtain ⟨e', hown', hscalar, his⟩ := pin_eq_some.mp hversion
  obtain ⟨rfl, rfl⟩ := Prod.mk.inj (Option.some.inj (hown.symm.trans hown'))
  rw [refValue_word hscalar (word_of_version his)]
  exact ⟨his, hversion⟩

lemma refValue_of_last {text : Line} {line : ℕ}
    (hlast : (refs (x.step.rest ++ x.after) (x.before + 1)).getLast? = some (text, line))
    (hline : x.step.refLine x.before = some line) (hpin : (x.step.pin x.before).isSome = true) :
    isVersion (refValue text) = true ∧ x.step.pin x.before = some (refValue text, line) := by
  obtain ⟨⟨e, line'⟩, hown, heq⟩ := Option.map_eq_some_iff.mp hline
  obtain rfl : line' = line := heq
  rw [text_of_own x hlast hown]
  exact refValue_of_pin x hown hpin

lemma reads_record_iff : x.Reads x.scanned.record ↔ x.Alone := by
  obtain ⟨-, -, hvalue, hline⟩ := scanned_spec x
  unfold Placed.Alone Scan.record
  cases hlast : (refs (x.step.rest ++ x.after) (x.before + 1)).getLast? with
  | none =>
    rw [hlast] at hvalue
    have hvalue' : x.scanned.refV = [] := hvalue
    rw [hvalue', if_neg (by decide), if_pos rfl]
    exact Iff.rfl
  | some ref =>
    obtain ⟨text, line⟩ := ref
    rw [hlast] at hvalue hline
    have hvalue' : x.scanned.refV = refValue text := hvalue
    have hline' : x.scanned.refLn = line := hline
    rw [hvalue', hline']
    dsimp only
    by_cases hversion : isVersion (refValue text) = true
    · rw [if_pos hversion]
      split
      · next hpin =>
        constructor
        · intro hread
          obtain ⟨e, hown, -⟩ := pin_eq_some.mp hread
          exact congrArg (Option.map Prod.snd) hown
        · exact fun hown => (refValue_of_last x hlast hown hpin).2
      · next hpin =>
        refine iff_of_false (fun hread : x.step.pin x.before = some _ => hpin (by rw [hread]; rfl)) ?_
        rintro (hempty | ⟨hnot, -⟩)
        · rw [hempty] at hversion
          cases hversion
        · rw [hversion] at hnot
          cases hnot
    · have hoff : (x.step.pin x.before).isSome = true → x.step.refLine x.before ≠ some line :=
        fun hpin hown => hversion (refValue_of_last x hlast hown hpin).1
      rw [if_neg hversion]
      by_cases hempty : refValue text = []
      · rw [if_pos hempty]
        split
        · next hpin =>
          refine iff_of_false (fun hnone : x.step.pin x.before = none => ?_) (hoff hpin)
          rw [hnone] at hpin
          cases hpin
        · next hpin => exact iff_of_true (Option.not_isSome_iff_eq_none.mp hpin) (.inl hempty)
      · rw [if_neg hempty]
        split
        · next hpin =>
          refine iff_of_false (fun hread => ?_) (hoff hpin)
          rw [hread.1] at hpin
          cases hpin
        · next hpin =>
          constructor
          · rintro ⟨-, hown⟩
            exact .inr ⟨by simpa using hversion, hown⟩
          · rintro (hnil | ⟨-, hown⟩)
            · exact absurd hnil hempty
            · exact ⟨Option.not_isSome_iff_eq_none.mp hpin, hown⟩

end

/-! ### The records of a file -/

section

variable {α β : Type} {R : α → β → Prop} {p : α → Bool} {f : α → List β}

lemma forall₂_append_iff {xs : List α} {before ys : List β} (hle : xs.length ≤ ys.length) :
    List.Forall₂ R xs (before ++ ys) ↔ before = [] ∧ List.Forall₂ R xs ys := by
  constructor
  · intro h
    have hlength := h.length_eq
    rw [List.length_append] at hlength
    have hbefore : before = [] := List.eq_nil_of_length_eq_zero (by omega)
    rw [hbefore] at h
    exact ⟨hbefore, h⟩
  · rintro ⟨rfl, h⟩
    exact h

lemma length_filter_le_flatMap {xs : List α} (hf : ∀ x ∈ xs, p x = true → ∃ y, f x = [y]) :
    (xs.filter p).length ≤ (xs.flatMap f).length := by
  induction xs with
  | nil => exact le_rfl
  | cons x rest ih =>
    have hrest := ih (fun y hy => hf y (List.mem_cons_of_mem _ hy))
    rw [List.flatMap_cons, List.length_append, List.filter_cons]
    split
    · next hx =>
      obtain ⟨y, hy⟩ := hf x List.mem_cons_self hx
      rw [hy, List.length_cons, List.length_singleton]
      omega
    · omega

lemma forall₂_filter_flatMap {xs : List α} (hf : ∀ x ∈ xs, p x = true → ∃ y, f x = [y]) :
    List.Forall₂ R (xs.filter p) (xs.flatMap f) ↔ ∀ x ∈ xs, if p x then ∀ y ∈ f x, R x y else f x = [] := by
  induction xs with
  | nil => exact iff_of_true .nil nofun
  | cons x rest ih =>
    have hrest : ∀ y ∈ rest, p y = true → ∃ z, f y = [z] := fun y hy => hf y (List.mem_cons_of_mem _ hy)
    rw [List.flatMap_cons, List.filter_cons, List.forall_mem_cons, ← ih hrest]
    split
    · next hx =>
      obtain ⟨y, hy⟩ := hf x List.mem_cons_self hx
      rw [hy, List.singleton_append, List.forall₂_cons, List.forall_mem_singleton]
    · exact forall₂_append_iff (length_filter_le_flatMap hrest)

end

/-- The lines before the first step have a record when one of them mentions the repository. -/
lemma records_rows (rows : List Row) :
    ((rows.map Row.line).foldl Scan.read (.start 0)).flush.records = [] ↔ ∀ row ∈ rows, mentions row.line = false := by
  obtain ⟨-, hrecords, hrepo, -⟩ := Scan.read_rows rows (.start 0)
  unfold Scan.flush
  dsimp only
  rw [hrecords, hrepo]
  have hstart : ((Scan.start 0).repo || rows.any (fun row => mentions row.line)) =
    rows.any (fun row => mentions row.line) := rfl
  rw [hstart]
  cases hany : rows.any (fun row => mentions row.line) with
  | false =>
    refine iff_of_true rfl (fun row hrow => ?_)
    simpa using List.any_eq_false.mp hany row hrow
  | true =>
    obtain ⟨row, hrow, hmentions⟩ := List.any_eq_true.mp hany
    refine iff_of_false (List.cons_ne_nil _ _) (fun hall => ?_)
    rw [hall row hrow] at hmentions
    cases hmentions

/-- The scan reads one pin off each checkout of SciForge exactly when the workflow is legible. -/
theorem onePerStep_iff_legible (jobs : List Job) : OnePerStep jobs ↔ Legible jobs := by
  have hone : ∀ x ∈ placed 0 (pieces jobs), x.step.sciforge = true → ∃ r, x.scanned.flush.records = [r] := by
    intro x _ hx
    rw [records_scanned, if_pos (mentioned_of_sciforge hx)]
    exact ⟨_, rfl⟩
  have hstart : (Scan.start 0).nr = 0 := rfl
  unfold OnePerStep Legible scan lines
  rw [records_pieces, hstart, forall₂_append_iff (length_filter_le_flatMap hone), forall₂_filter_flatMap hone,
    records_rows]
  refine and_congr_right (fun _ => forall₂_congr fun x _ => ?_)
  rw [records_scanned]
  split
  · next hx => rw [mentioned_of_sciforge hx, if_pos rfl, List.forall_mem_singleton, reads_record_iff]
  · cases x.mentioned with
    | false => exact iff_of_true rfl rfl
    | true => exact iff_of_false (List.cons_ne_nil _ _) nofun

/-! ### The ref of a later job -/

/-- A checkout of SciForge without a ref, the last step of its job. -/
def unpinnedCheckout : Step where
  gap := 0
  opening := ⟨6, "uses".toList, " actions/checkout@v6".toList, by decide, by decide⟩
  rest := [.key ⟨8, "with".toList, [], by decide, by decide⟩,
    .key ⟨10, "repository".toList, " RECHE23/sciforge".toList, by decide, by decide⟩]
  inside := by decide
  read := by decide

/-- A call of a reusable workflow follows it, with an input named `ref`. -/
def checkoutThenCall : List Job :=
  [.steps [.key ⟨2, "lint".toList, [], by decide, by decide⟩, .key ⟨4, "steps".toList, [], by decide, by decide⟩]
      [unpinnedCheckout],
    .call [.key ⟨2, "publish".toList, [], by decide, by decide⟩,
      .key ⟨4, "uses".toList, " someone/else/.github/workflows/publish.yml@main".toList, by decide, by decide⟩,
      .key ⟨4, "with".toList, [], by decide, by decide⟩,
      .key ⟨6, "ref".toList, " v2.0.0".toList, by decide, by decide⟩]]

/-- The scan pins the checkout at the version that the call names. -/
theorem call_pins_checkout : scan (lines checkoutThenCall) = [.pinned "v2.0.0".toList 9] ∧
    unpinnedCheckout.sciforge = true ∧ ¬OnePerStep checkoutThenCall := by
  have hscan : scan (lines checkoutThenCall) = [.pinned "v2.0.0".toList 9] := by decide
  refine ⟨hscan, by decide, fun h => ?_⟩
  unfold OnePerStep at h
  rw [hscan] at h
  cases h with
  | cons hread _ =>
    have hpin : unpinnedCheckout.pin 2 = some ("v2.0.0".toList, 9) := hread
    exact absurd hpin (by decide)

end SciForge.Tools.PinScan
