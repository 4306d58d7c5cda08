import Mathlib.Data.List.Sort
import Mathlib.Order.Bounds.Basic
import Mathlib.Algebra.Order.Field.Basic
import Mathlib.Tactic.Ring
import Mathlib.Tactic.Linarith

/-!
# Medians over an ordered field

A sample in increasing order and its middle: both under a permutation and under a monotone or an antitone map,
and how the values lie around the median.
-/

namespace SciForge.Sample

/-! ### In increasing order -/

section

variable {α β : Type} [LinearOrder α] [LinearOrder β] {xs ys : List α}

def inOrder (xs : List α) : List α := xs.insertionSort (· ≤ ·)

lemma pairwise_inOrder (xs : List α) : (inOrder xs).Pairwise (· ≤ ·) := List.pairwise_insertionSort _ xs

lemma inOrder_perm (xs : List α) : (inOrder xs).Perm xs := List.perm_insertionSort _ xs

@[simp] lemma length_inOrder (xs : List α) : (inOrder xs).length = xs.length := (inOrder_perm xs).length_eq

@[simp] lemma mem_inOrder {x : α} : x ∈ inOrder xs ↔ x ∈ xs := (inOrder_perm xs).mem_iff

lemma inOrder_ne_nil (h : xs ≠ []) : inOrder xs ≠ [] := by
  rw [← List.length_pos_iff, length_inOrder]
  exact List.length_pos_of_ne_nil h

lemma inOrder_unique (hperm : ys.Perm xs) (hsorted : ys.Pairwise (· ≤ ·)) : inOrder xs = ys :=
  ((inOrder_perm xs).trans hperm.symm).eq_of_pairwise' (pairwise_inOrder xs) hsorted

lemma inOrder_congr (h : xs.Perm ys) : inOrder xs = inOrder ys :=
  inOrder_unique ((inOrder_perm ys).trans h.symm) (pairwise_inOrder ys)

lemma inOrder_map_of_monotone {f : α → β} (hf : Monotone f) (xs : List α) :
    inOrder (xs.map f) = (inOrder xs).map f := by
  apply inOrder_unique ((inOrder_perm xs).map f)
  rw [List.pairwise_map]
  exact (pairwise_inOrder xs).imp (fun h => hf h)

lemma inOrder_map_of_antitone {f : α → β} (hf : Antitone f) (xs : List α) :
    inOrder (xs.map f) = ((inOrder xs).map f).reverse := by
  apply inOrder_unique ((List.reverse_perm _).trans ((inOrder_perm xs).map f))
  rw [List.pairwise_reverse, List.pairwise_map]
  exact (pairwise_inOrder xs).imp (fun h => hf h)

lemma getElem_mono {ordered : List α} (hsorted : ordered.Pairwise (· ≤ ·)) {i j : ℕ} (hij : i ≤ j)
    (hj : j < ordered.length) : ordered[i] ≤ ordered[j] := by
  rcases Nat.lt_or_eq_of_le hij with hlt | rfl
  · exact List.pairwise_iff_getElem.mp hsorted i j (hij.trans_lt hj) hj hlt
  · exact le_rfl

lemma isLeast_inOrder (h : 0 < (inOrder xs).length) : IsLeast {x | x ∈ xs} (inOrder xs)[0] := by
  refine ⟨mem_inOrder.mp (List.getElem_mem h), fun x hx => ?_⟩
  obtain ⟨i, hi, rfl⟩ := List.mem_iff_getElem.mp (mem_inOrder.mpr hx)
  exact getElem_mono (pairwise_inOrder xs) (Nat.zero_le i) hi

lemma exists_isLeast (hne : xs ≠ []) : ∃ x, IsLeast {x | x ∈ xs} x :=
  ⟨_, isLeast_inOrder (List.length_pos_of_ne_nil (inOrder_ne_nil hne))⟩

lemma exists_isGreatest (hne : xs ≠ []) : ∃ x, IsGreatest {x | x ∈ xs} x := by
  have hpos := List.length_pos_of_ne_nil (inOrder_ne_nil hne)
  refine ⟨(inOrder xs)[(inOrder xs).length - 1], mem_inOrder.mp (List.getElem_mem _), fun x hx => ?_⟩
  obtain ⟨i, hi, rfl⟩ := List.mem_iff_getElem.mp (mem_inOrder.mpr hx)
  exact getElem_mono (pairwise_inOrder xs) (by omega) (by omega)

end

/-! ### The middle of an ordered list -/

section

variable {K : Type} [Field K] [LinearOrder K] [IsStrictOrderedRing K] {ordered xs ys : List K} {b x c : K}

/-- The middle value of an odd number of values, and of an even number the mean of the two in the middle. -/
def middle (ordered : List K) : K :=
  (ordered.getD ((ordered.length - 1) / 2) 0 + ordered.getD (ordered.length / 2) 0) / (2 : ℕ)

def median (xs : List K) : K := middle (inOrder xs)

omit [LinearOrder K] [IsStrictOrderedRing K] in
lemma middle_of_ne_nil (hne : ordered ≠ []) :
    ∃ (hlow : (ordered.length - 1) / 2 < ordered.length) (hhigh : ordered.length / 2 < ordered.length),
      middle ordered = (ordered[(ordered.length - 1) / 2] + ordered[ordered.length / 2]) / 2 := by
  have hpos := List.length_pos_of_ne_nil hne
  have hlow : (ordered.length - 1) / 2 < ordered.length := by omega
  have hhigh : ordered.length / 2 < ordered.length := by omega
  refine ⟨hlow, hhigh, ?_⟩
  simp [middle, hlow, hhigh]

omit [IsStrictOrderedRing K] in
lemma median_congr (h : xs.Perm ys) : median xs = median ys := congrArg middle (inOrder_congr h)

lemma le_middle (hne : ordered ≠ []) (h : ∀ x ∈ ordered, b ≤ x) : b ≤ middle ordered := by
  obtain ⟨hlow, hhigh, hmiddle⟩ := middle_of_ne_nil hne
  have h₁ := h _ (List.getElem_mem hlow)
  have h₂ := h _ (List.getElem_mem hhigh)
  linarith

lemma middle_le (hne : ordered ≠ []) (h : ∀ x ∈ ordered, x ≤ b) : middle ordered ≤ b := by
  obtain ⟨hlow, hhigh, hmiddle⟩ := middle_of_ne_nil hne
  have h₁ := h _ (List.getElem_mem hlow)
  have h₂ := h _ (List.getElem_mem hhigh)
  linarith

lemma le_median (hne : xs ≠ []) (h : ∀ x ∈ xs, b ≤ x) : b ≤ median xs :=
  le_middle (inOrder_ne_nil hne) (fun x hx => h x (mem_inOrder.mp hx))

lemma median_le (hne : xs ≠ []) (h : ∀ x ∈ xs, x ≤ b) : median xs ≤ b :=
  middle_le (inOrder_ne_nil hne) (fun x hx => h x (mem_inOrder.mp hx))

omit [LinearOrder K] [IsStrictOrderedRing K] in
lemma middle_scale (c : K) (ordered : List K) : middle (ordered.map (c * ·)) = c * middle ordered := by
  have hitem : ∀ i, (ordered.map (c * ·)).getD i 0 = c * ordered.getD i 0 := by
    intro i
    rw [List.getD_eq_getElem?_getD, List.getD_eq_getElem?_getD, List.getElem?_map]
    cases ordered[i]? <;> simp
  unfold middle
  rw [List.length_map, hitem, hitem]
  ring

omit [LinearOrder K] [IsStrictOrderedRing K] in
lemma middle_reverse (ordered : List K) : middle ordered.reverse = middle ordered := by
  rcases eq_or_ne ordered [] with rfl | hne
  · rfl
  have hpos := List.length_pos_of_ne_nil hne
  obtain ⟨hlow, hhigh, hmiddle⟩ := middle_of_ne_nil hne
  obtain ⟨hlow', hhigh', hmiddle'⟩ := middle_of_ne_nil (List.reverse_ne_nil_iff.mpr hne)
  have hswap : ordered.length - 1 - (ordered.length - 1) / 2 = ordered.length / 2 := by omega
  have hswap' : ordered.length - 1 - ordered.length / 2 = (ordered.length - 1) / 2 := by omega
  rw [hmiddle, hmiddle']
  simp only [List.getElem_reverse, List.length_reverse, hswap, hswap']
  rw [add_comm]

lemma median_scale (hc : 0 ≤ c) (xs : List K) : median (xs.map (c * ·)) = c * median xs := by
  unfold median
  rw [inOrder_map_of_monotone (monotone_mul_left_of_nonneg hc), middle_scale]

lemma median_neg (xs : List K) : median (xs.map (- ·)) = -median xs := by
  have hneg : (fun x : K => -x) = (-1 * ·) := by
    funext x
    rw [neg_one_mul]
  unfold median
  rw [inOrder_map_of_antitone (fun _ _ h => neg_le_neg h), middle_reverse, hneg, middle_scale, neg_one_mul]

/-! ### Halves -/

lemma le_middle_of_mem_take (hsorted : ordered.Pairwise (· ≤ ·)) (hx : x ∈ ordered.take ((ordered.length + 1) / 2)) :
    x ≤ middle ordered := by
  obtain ⟨i, hi, rfl⟩ := List.mem_iff_getElem.mp hx
  rw [List.length_take] at hi
  have hne : ordered ≠ [] := List.ne_nil_of_length_pos (by omega)
  obtain ⟨hlow, hhigh, hmiddle⟩ := middle_of_ne_nil hne
  rw [List.getElem_take, hmiddle]
  have h₁ := getElem_mono hsorted (i := i) (by omega) hlow
  have h₂ := getElem_mono hsorted (i := i) (by omega) hhigh
  linarith

end

end SciForge.Sample
