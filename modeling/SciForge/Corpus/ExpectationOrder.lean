import SciForge.Corpus.Schema
import Mathlib.Data.List.Forall2
import Mathlib.Order.Defs.PartialOrder

/-!
# Expectations as an order

What `expectation_holds` asks of the observed value, by the shape of the expectation. On the observables
made of no matches, strings, matches with both keys and lists of these it is a partial order, in which
stating fewer groups goes down.
-/

namespace SciForge.Corpus

/-! ### Shapes -/

namespace Observable

/-- Induction with the hypothesis on every item of a list. -/
@[elab_as_elim]
lemma nested {motive : Observable → Prop} (noMatch : motive .noMatch) (str : ∀ s, motive (.str s))
    (dict : ∀ d, motive (.dict d)) (list : ∀ items, (∀ item ∈ items, motive item) → motive (.list items)) :
    ∀ o, motive o
  | .noMatch => noMatch
  | .str s => str s
  | .dict d => dict d
  | .list items => list items (fun item _ => nested noMatch str dict list item)
termination_by o => sizeOf o
decreasing_by
  have := List.sizeOf_lt_of_mem ‹item ∈ items›
  simp_wf
  omega

/-- Built from `None`, strings and matches with both keys by nested lists. -/
inductive Plain : Observable → Prop
  | noMatch : Plain .noMatch
  | str (s : String) : Plain (.str s)
  | matched (span : Span) (groups : List Span) : Plain (matchDict span groups)
  | list {items : List Observable} : (∀ item ∈ items, Plain item) → Plain (.list items)

/-- The second observable is the first with trailing groups dropped, at any of its matches. -/
inductive Drops : Observable → Observable → Prop
  | noMatch : Drops .noMatch .noMatch
  | str (s : String) : Drops (.str s) (.str s)
  | matched (span : Span) {groups kept : List Span} : kept <+: groups →
      Drops (matchDict span groups) (matchDict span kept)
  | list {items kept : List Observable} : List.Forall₂ Drops items kept → Drops (.list items) (.list kept)

end Observable

/-! ### What an expectation asks -/

/-- `expectation_holds` as a relation. -/
def Holds (expected observed : Observable) : Prop := expectationHolds expected observed = true

lemma holds_iff {expected observed : Observable} : Holds expected observed ↔ expectationHolds expected observed = true :=
  Iff.rfl

lemma allHold_iff {expected observed : List Observable} (h : expected.length = observed.length) :
    allHold expected observed = true ↔ List.Forall₂ Holds expected observed := by
  induction expected generalizing observed with
  | nil =>
    cases List.length_eq_zero_iff.mp h.symm
    exact iff_of_true rfl .nil
  | cons e es ih =>
    cases observed with
    | nil => simp at h
    | cons o os =>
      have hlen : es.length = os.length := by simpa using h
      have hcons : allHold (e :: es) (o :: os) = (expectationHolds e o && allHold es os) := rfl
      rw [hcons, Bool.and_eq_true, ih hlen, List.forall₂_cons]
      exact Iff.rfl

lemma holds_noMatch {o : Observable} : Holds .noMatch o ↔ o = .noMatch := by
  have heq : expectationHolds .noMatch o = decide (.noMatch = o) := by cases o <;> rfl
  rw [holds_iff, heq, decide_eq_true_iff]
  exact eq_comm

lemma holds_str {s : String} {o : Observable} : Holds (.str s) o ↔ o = .str s := by
  have heq : expectationHolds (.str s) o = decide (.str s = o) := by cases o <;> rfl
  rw [holds_iff, heq, decide_eq_true_iff]
  exact eq_comm

lemma holds_dict {d : ObsDict} {o : Observable} :
    Holds (.dict d) o ↔ ∃ e, o = .dict e ∧ d.span = e.span ∧ d.groups.getD [] <+: e.groups.getD [] := by
  cases o with
  | dict e =>
    have heq : expectationHolds (.dict d) (.dict e) = (decide (d.span = e.span) &&
      decide ((e.groups.getD []).take (d.groups.getD []).length = d.groups.getD [])) := rfl
    have hprefix : d.groups.getD [] <+: e.groups.getD [] ↔ _ := List.prefix_iff_eq_take
    rw [holds_iff, heq, Bool.and_eq_true, decide_eq_true_iff, decide_eq_true_iff, ← hprefix.trans eq_comm]
    simp
  | noMatch | str | list => exact iff_of_false Bool.false_ne_true nofun

lemma holds_list {items : List Observable} {o : Observable} :
    Holds (.list items) o ↔ ∃ observed, o = .list observed ∧ List.Forall₂ Holds items observed := by
  cases o with
  | list observed =>
    have heq : expectationHolds (.list items) (.list observed) =
      (decide (items.length = observed.length) && allHold items observed) := rfl
    rw [holds_iff, heq, Bool.and_eq_true, decide_eq_true_iff]
    constructor
    · rintro ⟨hlen, h⟩
      exact ⟨observed, rfl, (allHold_iff hlen).mp h⟩
    · rintro ⟨observed', hobserved, h⟩
      cases hobserved
      exact ⟨h.length_eq, (allHold_iff h.length_eq).mpr h⟩
  | noMatch | str | dict => exact iff_of_false Bool.false_ne_true nofun

/-! ### The order -/

lemma holds_refl (o : Observable) : Holds o o := by
  induction o using Observable.nested with
  | noMatch => exact holds_noMatch.mpr rfl
  | str s => exact holds_str.mpr rfl
  | dict d => exact holds_dict.mpr ⟨d, rfl, rfl, List.prefix_rfl⟩
  | list items ih => exact holds_list.mpr ⟨items, rfl, List.forall₂_same.mpr ih⟩

lemma holds_trans {a b c : Observable} (hab : Holds a b) (hbc : Holds b c) : Holds a c := by
  induction a using Observable.nested generalizing b c with
  | noMatch =>
    cases holds_noMatch.mp hab
    exact hbc
  | str s =>
    cases holds_str.mp hab
    exact hbc
  | dict d =>
    obtain ⟨e, rfl, hspan, hgroups⟩ := holds_dict.mp hab
    obtain ⟨f, rfl, hspan', hgroups'⟩ := holds_dict.mp hbc
    exact holds_dict.mpr ⟨f, rfl, hspan.trans hspan', hgroups.trans hgroups'⟩
  | list items ih =>
    obtain ⟨bs, rfl, hitems⟩ := holds_list.mp hab
    obtain ⟨cs, rfl, hitems'⟩ := holds_list.mp hbc
    refine holds_list.mpr ⟨cs, rfl, ?_⟩
    rw [List.forall₂_iff_get] at hitems hitems' ⊢
    refine ⟨hitems.1.trans hitems'.1, fun i ha hc => ?_⟩
    have hb : i < bs.length := by omega
    exact ih _ (List.get_mem ..) (hitems.2 i ha hb) (hitems'.2 i hb hc)

lemma holds_antisymm {a b : Observable} (ha : a.Plain) (hb : b.Plain) (hab : Holds a b) (hba : Holds b a) :
    a = b := by
  induction ha generalizing b with
  | noMatch => exact (holds_noMatch.mp hab).symm
  | str s => exact (holds_str.mp hab).symm
  | matched span groups =>
    obtain ⟨e, rfl, hspan, hgroups⟩ := holds_dict.mp hab
    obtain ⟨d, hd, -, hgroups'⟩ := holds_dict.mp hba
    cases hd
    cases hb with
    | matched span' groups' =>
      cases hspan
      cases hgroups.eq_of_length_le hgroups'.length_le
      rfl
  | @list items _ ih =>
    obtain ⟨bs, rfl, hup⟩ := holds_list.mp hab
    obtain ⟨as, has, hdown⟩ := holds_list.mp hba
    cases has
    cases hb with
    | list hbs =>
      rw [List.forall₂_iff_get] at hup hdown
      refine congrArg _ (List.ext_get hup.1 fun i ha hb => ?_)
      exact ih _ (List.get_mem ..) (hbs _ (List.get_mem ..)) (hup.2 i ha hb) (hdown.2 i hb ha)

/-- An observable of the plain shapes. -/
abbrev PlainObservable := {o : Observable // o.Plain}

instance : PartialOrder PlainObservable where
  le a b := Holds a.1 b.1
  le_refl a := holds_refl a.1
  le_trans _ _ _ := holds_trans
  le_antisymm a b hab hba := Subtype.ext (holds_antisymm a.2 b.2 hab hba)

/-! ### Dropping groups -/

lemma holds_of_drops {o kept : Observable} (h : o.Drops kept) : Holds kept o := by
  induction o using Observable.nested generalizing kept with
  | noMatch =>
    cases h
    exact holds_refl _
  | str s =>
    cases h
    exact holds_refl _
  | dict d =>
    cases h with
    | matched span hkept => exact holds_dict.mpr ⟨_, rfl, rfl, hkept⟩
  | list items ih =>
    cases h with
    | list h =>
      refine holds_list.mpr ⟨items, rfl, ?_⟩
      rw [List.forall₂_iff_get] at h ⊢
      exact ⟨h.1.symm, fun i hk hi => ih _ (List.get_mem ..) (h.2 i hi hk)⟩

lemma plain_of_drops {o kept : Observable} (h : o.Drops kept) : kept.Plain := by
  induction o using Observable.nested generalizing kept with
  | noMatch =>
    cases h
    exact .noMatch
  | str s =>
    cases h
    exact .str s
  | dict d =>
    cases h with
    | matched span => exact .matched span _
  | list items ih =>
    cases h with
    | list h =>
      refine .list fun item hitem => ?_
      obtain ⟨i, hi, rfl⟩ := List.mem_iff_getElem.mp hitem
      rw [List.forall₂_iff_get] at h
      exact ih _ (List.get_mem ..) (h.2 i (by omega) hi)

/-- On plain observables an expectation meets itself, what meets an expectation meets what that one meets,
two that meet each other are equal, and dropping trailing groups anywhere keeps an expectation that holds. -/
theorem expectation_order {a b c : Observable} (ha : a.Plain) (hb : b.Plain) (hc : c.Plain) :
    expectationHolds a a = true ∧
      (expectationHolds a b = true → expectationHolds b c = true → expectationHolds a c = true) ∧
      (expectationHolds a b = true → expectationHolds b a = true → a = b) ∧
      ∀ kept, a.Drops kept → expectationHolds a b = true → kept.Plain ∧ expectationHolds kept b = true := by
  let x : PlainObservable := ⟨a, ha⟩
  let y : PlainObservable := ⟨b, hb⟩
  let z : PlainObservable := ⟨c, hc⟩
  refine ⟨le_refl x, fun hxy hyz => ?_, fun hxy hyx => ?_, fun kept hdrops hxy => ?_⟩
  · have h : x ≤ z := le_trans (b := y) hxy hyz
    exact h
  · have h : x = y := le_antisymm hxy hyx
    exact congrArg Subtype.val h
  · let w : PlainObservable := ⟨kept, plain_of_drops hdrops⟩
    have h : w ≤ y := le_trans (b := x) (holds_of_drops hdrops) hxy
    exact ⟨w.2, h⟩

/-- A `finditer` result of one match with these groups and one case without a match. -/
def oneMatch (groups : List Span) : Observable := .list [matchDict [0, 2] groups, .noMatch]

lemma plain_oneMatch (groups : List Span) : (oneMatch groups).Plain := by
  refine .list fun item hitem => ?_
  rcases List.mem_pair.mp hitem with rfl | rfl
  · exact .matched _ _
  · exact .noMatch

theorem expectation_order_oneMatch :
    expectationHolds (oneMatch [[0, 1]]) (oneMatch [[0, 1], [1, 2], [-1, -1]]) = true ∧
      expectationHolds (oneMatch []) (oneMatch [[0, 1], [1, 2]]) = true := by
  have h := expectation_order (plain_oneMatch [[0, 1]]) (plain_oneMatch [[0, 1], [1, 2]])
    (plain_oneMatch [[0, 1], [1, 2], [-1, -1]])
  refine ⟨h.2.1 (by decide) (by decide), (h.2.2.2 (oneMatch []) ?_ (by decide)).2⟩
  exact .list (.cons (.matched _ List.nil_prefix) (.cons .noMatch .nil))

end SciForge.Corpus
