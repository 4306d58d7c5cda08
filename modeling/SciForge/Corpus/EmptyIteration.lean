import SciForge.Corpus.Runner
import Mathlib.Data.List.Basic

/-!
# The empty-iteration signature

A driver's result as the matches it was made from, and the signature over all the groups at which real
and the oracle differ. The loops only compare the two ends of the oracle's capture, so a group that took
no part, `[-1, -1]`, passes for a zero-width one.
-/

namespace SciForge.Corpus

/-! ### Results -/

/-- A match as a driver reports it: each group took no part or has its bounds in order. -/
structure DriverMatch extends ReMatch where
  taken : ∀ g ∈ groups, g = (-1, -1) ∨ 0 ≤ g.1 ∧ g.1 ≤ g.2

def DriverMatch.observable (m : DriverMatch) : Observable := matchObservable (some m.toReMatch)

inductive DriverResult
  | noMatch
  | error
  | single (m : DriverMatch)
  | sequence (ms : List DriverMatch)

def DriverResult.observable : DriverResult → Observable
  | .noMatch => .noMatch
  | .error => .str "error"
  | .single m => m.observable
  | .sequence ms => .list (ms.map DriverMatch.observable)

/-! ### The signature -/

/-- The matches two results put side by side, real's first. -/
def paired : DriverResult → DriverResult → Option (List (DriverMatch × DriverMatch))
  | .single real, .single oracle => some [(real, oracle)]
  | .sequence reals, .sequence oracles =>
    if reals.length = oracles.length then some (reals.zip oracles) else none
  | _, _ => none

def Aligned (p : DriverMatch × DriverMatch) : Prop :=
  p.1.span = p.2.span ∧ p.1.groups.length = p.2.groups.length

/-- The groups at which two lists differ. -/
def differing (reals oracles : List (ℤ × ℤ)) : List ((ℤ × ℤ) × (ℤ × ℤ)) :=
  (reals.zip oracles).filter (fun g => g.1 ≠ g.2)

/-- Aligned matches that differ somewhere, and at every difference the oracle's group is `captured`. -/
structure Signature (captured : ℤ × ℤ → Prop) (pairs : List (DriverMatch × DriverMatch)) : Prop where
  aligned : ∀ p ∈ pairs, Aligned p
  differ : ∃ p ∈ pairs, differing p.1.groups p.2.groups ≠ []
  captured : ∀ p ∈ pairs, ∀ g ∈ differing p.1.groups p.2.groups, captured g.2

/-- A span `[i, i]` with `i ≥ 0`. -/
def ZeroWidth (g : ℤ × ℤ) : Prop := 0 ≤ g.1 ∧ g.1 = g.2

def TookNoPart (g : ℤ × ℤ) : Prop := g = (-1, -1)

/-- The class as documented: the oracle captured a zero-width span wherever the two differ. -/
def EmptyIteration (real oracle : DriverResult) : Prop :=
  ∃ pairs, paired real oracle = some pairs ∧ Signature ZeroWidth pairs

/-- The signature is met apart from differing groups in which the oracle took no part, and there is one. -/
def OracleLeftUnset (real oracle : DriverResult) : Prop :=
  ∃ pairs, paired real oracle = some pairs ∧ Signature (fun g => ZeroWidth g ∨ TookNoPart g) pairs ∧
    ∃ p ∈ pairs, ∃ g ∈ differing p.1.groups p.2.groups, TookNoPart g.2

/-! ### What the loops compute -/

def spanOf (g : ℤ × ℤ) : Span := [g.1, g.2]

lemma spanOf_inj {g h : ℤ × ℤ} : spanOf g = spanOf h ↔ g = h := by
  simp [spanOf, Prod.ext_iff]

lemma observable_inj {real oracle : DriverMatch} :
    real.observable = oracle.observable ↔ real.span = oracle.span ∧ real.groups = oracle.groups := by
  have hmap := List.map_injective_iff.mpr (fun g h => (spanOf_inj (g := g) (h := h)).mp)
  simp only [DriverMatch.observable, matchObservable, matchDict, Observable.dict.injEq,
    ObsDict.mk.injEq, Option.some.injEq, and_true]
  exact and_congr spanOf_inj hmap.eq_iff

lemma differing_cons (r o : ℤ × ℤ) (reals oracles : List (ℤ × ℤ)) :
    differing (r :: reals) (o :: oracles) =
      if r = o then differing reals oracles else (r, o) :: differing reals oracles := by
  by_cases h : r = o <;> simp [differing, h]

lemma differing_eq_nil {reals oracles : List (ℤ × ℤ)} (hlen : reals.length = oracles.length) :
    differing reals oracles = [] ↔ reals = oracles := by
  induction reals generalizing oracles with
  | nil => cases oracles <;> simp_all [differing]
  | cons r reals ih =>
    cases oracles with
    | nil => simp at hlen
    | cons o oracles =>
      rw [differing_cons]
      by_cases h : r = o
      · simp [h, ih (Nat.succ.inj hlen)]
      · simp [h]

/-- What the code asks of the oracle's group: its two ends meet. -/
def endsMeet (g : (ℤ × ℤ) × (ℤ × ℤ)) : Bool := g.2.1 = g.2.2

lemma groupsDiffer_eq (reals oracles : List (ℤ × ℤ)) (differ : Bool) :
    groupsDiffer (reals.map spanOf) (oracles.map spanOf) differ =
      .ok (if (differing reals oracles).all endsMeet
        then some (differ || !(differing reals oracles).isEmpty) else none) := by
  induction reals generalizing oracles differ with
  | nil => simp [groupsDiffer, differing]
  | cons r reals ih =>
    cases oracles with
    | nil => simp [groupsDiffer, differing]
    | cons o oracles =>
      rw [differing_cons]
      by_cases hsame : r = o
      · simp only [List.map_cons, groupsDiffer, hsame, if_true, ih]
      · have hspan : ¬spanOf r = spanOf o := fun h => hsame (spanOf_inj.mp h)
        simp only [List.map_cons, groupsDiffer, if_neg hspan, if_neg hsame]
        rw [List.all_cons, List.isEmpty_cons, Bool.not_false, Bool.or_true]
        by_cases hends : o.1 = o.2
        · have hmeet : endsMeet (r, o) = true := decide_eq_true hends
          rw [hmeet, Bool.true_and]
          simp only [spanOf, hends, ne_eq, not_true_eq_false, if_false, ih, Bool.true_or]
        · have hmeet : endsMeet (r, o) = false := decide_eq_false hends
          rw [hmeet, Bool.false_and]
          simp only [spanOf, ne_eq, hends, not_false_eq_true, if_true, Bool.false_eq_true, if_false]

/-- A pair of matches `one` accepts. -/
def accepted (p : DriverMatch × DriverMatch) : Bool :=
  decide (p.1.span = p.2.span) && decide (p.1.groups.length = p.2.groups.length) &&
    (differing p.1.groups p.2.groups).all endsMeet && !(differing p.1.groups p.2.groups).isEmpty

lemma captureOne_eq (real oracle : DriverMatch) :
    captureOne real.observable oracle.observable = .ok (accepted (real, oracle)) := by
  change (if ¬spanOf real.span = spanOf oracle.span then Except.ok false else
    if (real.groups.map spanOf).length ≠ (oracle.groups.map spanOf).length then Except.ok false else
    groupsDiffer (real.groups.map spanOf) (oracle.groups.map spanOf) false >>= fun differ =>
      Except.ok (differ.getD false)) = _
  simp only [groupsDiffer_eq, List.length_map, spanOf_inj, bind, Except.bind]
  unfold accepted
  by_cases hspan : real.span = oracle.span
  · by_cases hlen : real.groups.length = oracle.groups.length
    · cases h : (differing real.groups oracle.groups).all endsMeet <;> simp [hspan, hlen]
    · simp [hspan, hlen]
  · simp [hspan]

/-- A pair the loop over two lists of matches passes. -/
def passed (p : DriverMatch × DriverMatch) : Bool :=
  decide (p.1.observable = p.2.observable) || accepted p

lemma captureAll_eq (pairs : List (DriverMatch × DriverMatch)) (differ : Bool) :
    captureAll (pairs.map (fun p => p.1.observable)) (pairs.map (fun p => p.2.observable)) differ =
      .ok (pairs.all passed && (differ || pairs.any (fun p => decide (p.1.observable ≠ p.2.observable)))) := by
  induction pairs generalizing differ with
  | nil => simp [captureAll]
  | cons p pairs ih =>
    simp only [List.map_cons, captureAll]
    by_cases hsame : p.1.observable = p.2.observable
    · rw [if_pos hsame, ih]
      simp [hsame, passed]
    · rw [if_neg hsame, captureOne_eq]
      cases hone : accepted p
      · simp [bind, Except.bind, hsame, hone, passed, pure, Except.pure]
      · simp [bind, Except.bind, hsame, hone, passed, ih]

lemma accepted_differ {p : DriverMatch × DriverMatch} (h : accepted p = true) :
    p.1.observable ≠ p.2.observable := by
  intro hsame
  have hgroups := (observable_inj.mp hsame).2
  simp only [accepted, Bool.and_eq_true, decide_eq_true_eq, Bool.not_eq_true', List.isEmpty_eq_false_iff] at h
  exact h.2 ((differing_eq_nil (congrArg List.length hgroups)).mpr hgroups)

lemma isEmptyIterationCapture_eq (real oracle : DriverResult) :
    isEmptyIterationCapture real.observable oracle.observable =
      .ok ((paired real oracle).any (fun pairs =>
        pairs.all passed && pairs.any (fun p => decide (p.1.observable ≠ p.2.observable)))) := by
  cases real with
  | noMatch => cases oracle <;> rfl
  | error => cases oracle <;> rfl
  | single real =>
    cases oracle with
    | noMatch => rfl
    | error => rfl
    | sequence oracles => rfl
    | single oracle =>
      refine (captureOne_eq real oracle).trans (congrArg Except.ok ?_)
      cases hone : accepted (real, oracle)
      · by_cases hsame : real.observable = oracle.observable <;> simp [paired, passed, hone, hsame]
      · simp [paired, passed, hone, accepted_differ hone]
  | sequence reals =>
    cases oracle with
    | noMatch => rfl
    | error => rfl
    | single oracle => rfl
    | sequence oracles =>
      simp only [DriverResult.observable, isEmptyIterationCapture, List.length_map, paired]
      by_cases hlen : reals.length = oracles.length
      · have hreals : (reals.zip oracles).map (fun p => p.1.observable) = reals.map DriverMatch.observable := by
          conv_rhs => rw [← List.map_fst_zip hlen.le, List.map_map]
          rfl
        have horacles : (reals.zip oracles).map (fun p => p.2.observable) =
            oracles.map DriverMatch.observable := by
          conv_rhs => rw [← List.map_snd_zip hlen.ge, List.map_map]
          rfl
        have hall := captureAll_eq (reals.zip oracles) false
        rw [hreals, horacles] at hall
        simp [hlen, hall]
      · simp [hlen]

/-! ### The exact condition -/

lemma passed_iff (p : DriverMatch × DriverMatch) :
    passed p = true ↔ Aligned p ∧ ∀ g ∈ differing p.1.groups p.2.groups, g.2.1 = g.2.2 := by
  simp only [passed, accepted, Bool.or_eq_true, Bool.and_eq_true, decide_eq_true_eq, List.all_eq_true,
    Bool.not_eq_true', List.isEmpty_eq_false_iff, observable_inj, endsMeet, Aligned]
  constructor
  · rintro (⟨hspan, hgroups⟩ | ⟨⟨hpair, hmeet⟩, -⟩)
    · have hlen := congrArg List.length hgroups
      rw [(differing_eq_nil hlen).mpr hgroups]
      exact ⟨⟨hspan, hlen⟩, fun g hg => absurd hg List.not_mem_nil⟩
    · exact ⟨hpair, hmeet⟩
  · rintro ⟨hpair, hmeet⟩
    by_cases hnil : differing p.1.groups p.2.groups = []
    · exact .inl ⟨hpair.1, (differing_eq_nil hpair.2).mp hnil⟩
    · exact .inr ⟨⟨hpair, hmeet⟩, hnil⟩

lemma differ_iff {p : DriverMatch × DriverMatch} (h : Aligned p) :
    p.1.observable ≠ p.2.observable ↔ differing p.1.groups p.2.groups ≠ [] := by
  rw [ne_eq, ne_eq, observable_inj, differing_eq_nil h.2, and_iff_right h.1]

lemma capture_iff (pairs : List (DriverMatch × DriverMatch)) :
    (pairs.all passed && pairs.any (fun p => decide (p.1.observable ≠ p.2.observable))) = true ↔
      Signature (fun g => g.1 = g.2) pairs := by
  simp only [Bool.and_eq_true, List.all_eq_true, List.any_eq_true, decide_eq_true_eq, passed_iff]
  constructor
  · rintro ⟨hpassed, p, hp, hdiffer⟩
    exact ⟨fun q hq => (hpassed q hq).1, ⟨p, hp, (differ_iff (hpassed p hp).1).mp hdiffer⟩,
      fun q hq => (hpassed q hq).2⟩
  · rintro ⟨haligned, ⟨p, hp, hdiffer⟩, hcaptured⟩
    exact ⟨fun q hq => ⟨haligned q hq, hcaptured q hq⟩, p, hp, (differ_iff (haligned p hp)).mpr hdiffer⟩

lemma ends_meet_iff {p : DriverMatch × DriverMatch} {g : (ℤ × ℤ) × (ℤ × ℤ)}
    (h : g ∈ differing p.1.groups p.2.groups) : g.2.1 = g.2.2 ↔ ZeroWidth g.2 ∨ TookNoPart g.2 := by
  have hmem : g.2 ∈ p.2.groups := (List.of_mem_zip (List.mem_of_mem_filter h)).2
  constructor
  · intro hmeet
    rcases p.2.taken g.2 hmem with hunset | ⟨hstart, -⟩
    · exact .inr hunset
    · exact .inl ⟨hstart, hmeet⟩
  · rintro (⟨-, hmeet⟩ | hunset)
    · exact hmeet
    · rw [hunset]

lemma Signature.congr {captured captured' : ℤ × ℤ → Prop} {pairs : List (DriverMatch × DriverMatch)}
    (h : ∀ p ∈ pairs, ∀ g ∈ differing p.1.groups p.2.groups, captured g.2 → captured' g.2)
    (hs : Signature captured pairs) : Signature captured' pairs :=
  ⟨hs.aligned, hs.differ, fun p hp g hg => h p hp g hg (hs.captured p hp g hg)⟩

lemma captured_iff (pairs : List (DriverMatch × DriverMatch)) :
    Signature (fun g => g.1 = g.2) pairs ↔ Signature (fun g => ZeroWidth g ∨ TookNoPart g) pairs :=
  ⟨Signature.congr (fun _ _ _ hg => (ends_meet_iff hg).mp),
    Signature.congr (fun _ _ _ hg => (ends_meet_iff hg).mpr)⟩

/-- The code answers true on the documented class and where the oracle left a group unset. -/
lemma isEmptyIterationCapture_true (real oracle : DriverResult) :
    isEmptyIterationCapture real.observable oracle.observable = .ok true ↔
      EmptyIteration real oracle ∨ OracleLeftUnset real oracle := by
  rw [isEmptyIterationCapture_eq, Except.ok.injEq, Option.any_eq_true]
  simp only [capture_iff, captured_iff]
  constructor
  · rintro ⟨pairs, hpairs, hs⟩
    by_cases hunset : ∃ p ∈ pairs, ∃ g ∈ differing p.1.groups p.2.groups, TookNoPart g.2
    · exact .inr ⟨pairs, hpairs, hs, hunset⟩
    · refine .inl ⟨pairs, hpairs, hs.congr (fun p hp g hg hcaptured => hcaptured.resolve_right ?_)⟩
      exact fun hnone => hunset ⟨p, hp, g, hg, hnone⟩
  · rintro (⟨pairs, hpairs, hs⟩ | ⟨pairs, hpairs, hs, -⟩)
    · exact ⟨pairs, hpairs, hs.congr (fun _ _ _ _ => .inl)⟩
    · exact ⟨pairs, hpairs, hs⟩

lemma not_both {real oracle : DriverResult} (h : OracleLeftUnset real oracle) :
    ¬EmptyIteration real oracle := by
  obtain ⟨pairs, hpairs, -, p, hp, g, hg, hunset⟩ := h
  rintro ⟨pairs', hpairs', hs⟩
  obtain rfl : pairs = pairs' := Option.some.inj (hpairs.symm.trans hpairs')
  have hzero := (hs.captured p hp g hg).1
  rw [hunset] at hzero
  exact absurd hzero (by decide)

/-- The signature is recognised exactly when the oracle leaves no differing group unset in a pair that
otherwise has it. -/
theorem isEmptyIterationCapture_exact (real oracle : DriverResult) :
    (∃ answer, isEmptyIterationCapture real.observable oracle.observable = .ok answer ∧
      (answer = true ↔ EmptyIteration real oracle)) ↔ ¬OracleLeftUnset real oracle := by
  have htrue := isEmptyIterationCapture_true real oracle
  rw [isEmptyIterationCapture_eq, Except.ok.injEq] at htrue
  rw [isEmptyIterationCapture_eq]
  constructor
  · rintro ⟨answer, hanswer, hiff⟩ hunset
    rw [← Except.ok.inj hanswer] at hiff
    exact not_both hunset (hiff.mp (htrue.mpr (.inr hunset)))
  · intro hunset
    exact ⟨_, rfl, htrue.trans (or_iff_left hunset)⟩

/-- Real captured `[0, 1]` in a group of a match in which the oracle captured nothing. -/
theorem isEmptyIterationCapture_unset : ¬∀ real oracle : DriverResult,
    ∃ answer, isEmptyIterationCapture real.observable oracle.observable = .ok answer ∧
      (answer = true ↔ EmptyIteration real oracle) := by
  intro h
  have hreal : ∀ g ∈ [((0 : ℤ), (1 : ℤ))], g = (-1, -1) ∨ 0 ≤ g.1 ∧ g.1 ≤ g.2 := by decide
  have horacle : ∀ g ∈ [((-1 : ℤ), (-1 : ℤ))], g = (-1, -1) ∨ 0 ≤ g.1 ∧ g.1 ≤ g.2 := by decide
  obtain ⟨answer, hanswer, hiff⟩ := h (.single ⟨⟨(0, 1), [(0, 1)]⟩, hreal⟩)
    (.single ⟨⟨(0, 1), [(-1, -1)]⟩, horacle⟩)
  obtain rfl : true = answer := Except.ok.inj ((by rfl : _ = Except.ok true).symm.trans hanswer)
  obtain ⟨pairs, hpairs, hs⟩ := hiff.mp rfl
  obtain rfl := Option.some.inj hpairs
  have hzero : ZeroWidth (-1, -1) := hs.captured _ List.mem_cons_self ((0, 1), (-1, -1)) List.mem_cons_self
  exact absurd hzero.1 (by decide)

end SciForge.Corpus
