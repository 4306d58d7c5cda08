import SciForge.Bench.Percentiles
import SciForge.Lib.Sample

/-!
# Medians and quartiles in exact arithmetic

Where the operations are those of an ordered field, the median and the quartiles are the middles of the ordered
sample and of its halves.
-/

namespace SciForge.Bench

/-- The operations the medians use, computed exactly. -/
structure Arithmetic.Exact {K : Type} [Field K] [LinearOrder K] (A : Arithmetic K) : Prop where
  lt (x y : K) : A.lt x y = decide (x < y)
  add (x y : K) : A.add x y = x + y
  sub (x y : K) : A.sub x y = x - y
  half (x : K) : A.div x (A.lit 2) = .ok (x / 2)

lemma rationalArithmetic_exact (log exp : ℚ → Except String ℚ) : (rationalArithmetic log exp).Exact where
  lt _ _ := rfl
  add _ _ := rfl
  sub _ _ := rfl
  half _ := div_rat log exp two_ne_zero

section

variable {K : Type} [Field K] [LinearOrder K] [IsStrictOrderedRing K] {A : Arithmetic K} {xs ordered : List K}

omit [IsStrictOrderedRing K] in
lemma sorted_exact (hA : A.Exact) (xs : List K) : sorted A xs = Sample.inOrder xs := by
  unfold sorted Sample.inOrder
  congr! 3
  simp [hA.lt]

lemma median_exact (hA : A.Exact) (hne : xs ≠ []) : median A xs = .ok (Sample.median xs) := by
  obtain ⟨hlow, hhigh, hmiddle⟩ := Sample.middle_of_ne_nil (Sample.inOrder_ne_nil hne)
  have hpos := List.length_pos_of_ne_nil hne
  unfold median Sample.median
  simp only [sorted_exact hA]
  rw [hmiddle, if_neg (by simpa using hne)]
  rcases Nat.mod_two_eq_zero_or_one (Sample.inOrder xs).length with heven | hodd
  · have hprev : (Sample.inOrder xs).length / 2 - 1 = ((Sample.inOrder xs).length - 1) / 2 := by
      simp only [Sample.length_inOrder] at *
      omega
    rw [if_neg (by omega), hprev, item_of_lt hlow, item_of_lt hhigh]
    change A.div (A.add _ _) (A.lit 2) = _
    rw [hA.add, hA.half]
  · have hsame : ((Sample.inOrder xs).length - 1) / 2 = (Sample.inOrder xs).length / 2 := by omega
    rw [if_pos hodd, item_of_lt hhigh]
    simp only [hsame]
    rw [add_self_div_two]

end

/-! ### Halves -/

section

variable {α : Type} {ordered : List α}

/-- The values the lower quartile is the middle of: below the median, or the only value. -/
def lowerHalf (ordered : List α) : List α :=
  if ordered.length = 1 then ordered else ordered.take (ordered.length / 2)

def upperHalf (ordered : List α) : List α :=
  if ordered.length = 1 then ordered else ordered.drop (ordered.length / 2 + ordered.length % 2)

lemma lowerHalf_ne_nil (hne : ordered ≠ []) : lowerHalf ordered ≠ [] := by
  have hpos := List.length_pos_of_ne_nil hne
  unfold lowerHalf
  split_ifs with hone
  · exact hne
  · rw [← List.length_pos_iff, List.length_take]
    omega

lemma lowerHalf_sublist (ordered : List α) : (lowerHalf ordered).Sublist ordered := by
  unfold lowerHalf
  split_ifs
  · exact List.Sublist.refl _
  · exact List.take_sublist ..

lemma lowerHalf_map {β : Type} (f : α → β) (ordered : List α) :
    lowerHalf (ordered.map f) = (lowerHalf ordered).map f := by
  unfold lowerHalf
  rw [List.length_map, ← List.map_take, apply_ite (List.map f)]

lemma lowerHalf_reverse (ordered : List α) : lowerHalf ordered.reverse = (upperHalf ordered).reverse := by
  unfold lowerHalf upperHalf
  rw [List.length_reverse]
  split_ifs with hone
  · rfl
  · have hrest : ordered.length - ordered.length / 2 = ordered.length / 2 + ordered.length % 2 := by omega
    rw [List.take_reverse, hrest]

lemma upperHalf_eq (ordered : List α) : upperHalf ordered = (lowerHalf ordered.reverse).reverse := by
  rw [lowerHalf_reverse, List.reverse_reverse]

lemma upperHalf_ne_nil (hne : ordered ≠ []) : upperHalf ordered ≠ [] := by
  rw [upperHalf_eq]
  exact List.reverse_ne_nil_iff.mpr (lowerHalf_ne_nil (List.reverse_ne_nil_iff.mpr hne))

lemma upperHalf_sublist (ordered : List α) : (upperHalf ordered).Sublist ordered := by
  rw [upperHalf_eq, ← List.reverse_sublist, List.reverse_reverse]
  exact lowerHalf_sublist ordered.reverse

end

/-! ### Quartiles -/

section

variable {K : Type} [Field K] [LinearOrder K] [IsStrictOrderedRing K] {A : Arithmetic K} {xs : List K}

def lowerQuartile (xs : List K) : K := Sample.middle (lowerHalf (Sample.inOrder xs))

def upperQuartile (xs : List K) : K := Sample.middle (upperHalf (Sample.inOrder xs))

lemma upperQuartile_neg (xs : List K) : upperQuartile (xs.map (- ·)) = -lowerQuartile xs := by
  have hneg : (fun x : K => -x) = (-1 * ·) := by
    funext x
    rw [neg_one_mul]
  unfold upperQuartile lowerQuartile
  rw [Sample.inOrder_map_of_antitone (fun _ _ h => neg_le_neg h), upperHalf_eq, List.reverse_reverse, lowerHalf_map,
    Sample.middle_reverse, hneg, Sample.middle_scale, neg_one_mul]

lemma lowerQuartile_neg (xs : List K) : lowerQuartile (xs.map (- ·)) = -upperQuartile xs := by
  have h := upperQuartile_neg (xs.map (- ·))
  rw [List.map_map, (funext neg_neg : (fun x : K => -x) ∘ (- ·) = id), List.map_id] at h
  rw [h, neg_neg]

lemma lowerQuartile_le_median (hne : xs ≠ []) : lowerQuartile xs ≤ Sample.median xs := by
  apply Sample.middle_le (lowerHalf_ne_nil (Sample.inOrder_ne_nil hne))
  intro x hx
  apply Sample.le_middle_of_mem_take (Sample.pairwise_inOrder xs)
  unfold lowerHalf at hx
  split_ifs at hx with hone
  · rwa [hone, List.take_of_length_le hone.le]
  · exact List.take_subset_take_left _ (by omega) hx

lemma median_le_upperQuartile (hne : xs ≠ []) : Sample.median xs ≤ upperQuartile xs := by
  have hneg : xs.map (- ·) ≠ [] := by simpa using hne
  have h := lowerQuartile_le_median hneg
  rw [lowerQuartile_neg, Sample.median_neg] at h
  exact neg_le_neg_iff.mp h

lemma quartiles_exact (hA : A.Exact) (hne : xs ≠ []) :
    quartiles A (sorted A xs) = .ok (lowerQuartile xs, upperQuartile xs) := by
  have hmiddle : ∀ {part : List K}, part ≠ [] → part.Sublist (Sample.inOrder xs) →
      median A part = .ok (Sample.middle part) := by
    intro part hpart hsub
    have hsorted := (Sample.pairwise_inOrder xs).sublist hsub
    rw [median_exact hA hpart, Sample.median, Sample.inOrder_unique (List.Perm.refl _) hsorted]
  have hordered := Sample.inOrder_ne_nil hne
  have hlower := hmiddle (lowerHalf_ne_nil hordered) (lowerHalf_sublist _)
  have hupper := hmiddle (upperHalf_ne_nil hordered) (upperHalf_sublist _)
  unfold quartiles lowerQuartile upperQuartile
  simp only [sorted_exact hA]
  rcases eq_or_ne (Sample.inOrder xs).length 1 with hone | hmany
  · obtain ⟨x, hx⟩ := List.length_eq_one_iff.mp hone
    have hmiddle : Sample.middle [x] = x := by simp [Sample.middle]
    rw [hx, if_pos List.length_singleton]
    change Except.ok (x, x) = Except.ok (Sample.middle [x], Sample.middle [x])
    rw [hmiddle]
  · simp only [lowerHalf, upperHalf, if_neg hmany] at hlower hupper ⊢
    rw [hlower, hupper]
    rfl

lemma medianIqr_exact (hA : A.Exact) (hne : xs ≠ []) :
    ∃ minimum, medianIqr A xs = .ok (Sample.median xs, lowerQuartile xs, upperQuartile xs,
      upperQuartile xs - lowerQuartile xs, minimum) ∧ IsLeast {x | x ∈ xs} minimum := by
  have hordered := Sample.inOrder_ne_nil hne
  have hpos := List.length_pos_of_ne_nil hordered
  have hmedian : median A (Sample.inOrder xs) = .ok (Sample.median xs) := by
    rw [median_exact hA hordered, Sample.median_congr (Sample.inOrder_perm xs)]
  have hquartiles := quartiles_exact hA hne
  rw [sorted_exact hA] at hquartiles
  refine ⟨(Sample.inOrder xs)[0], ?_, Sample.isLeast_inOrder hpos⟩
  unfold medianIqr
  simp only [sorted_exact hA]
  rw [hmedian, hquartiles, item_of_lt hpos]
  change Except.ok (_, _, _, A.sub _ _, _) = _
  rw [hA.sub]

end

end SciForge.Bench
