import SciForge.Bench.Compare
import Mathlib.Analysis.SpecialFunctions.Log.Basic

/-!
# The statistics in exact real arithmetic

What the operations of the statistics give on the reals, and that none of them raises on positive ratios.
-/

namespace SciForge.Bench

/-- `round`: the nearest integer, the even one of two. -/
noncomputable def roundHalfEven (x : ℝ) : ℤ :=
  if Int.fract x < 1 / 2 then ⌊x⌋
  else if 1 / 2 < Int.fract x then ⌊x⌋ + 1
  else if Even ⌊x⌋ then ⌊x⌋
  else ⌊x⌋ + 1

/-- The rounded tail: how many values lie below the lower bound. -/
noncomputable def tailOf (count : ℕ) (level : ℝ) : ℤ := roundHalfEven ((1 - level) / 2 * count)

noncomputable def realArithmetic : Arithmetic ℝ where
  lit q := q
  add x y := x + y
  sub x y := x - y
  mul x y := x * y
  div x y := if y = 0 then .error "ZeroDivisionError" else .ok (x / y)
  lt x y := decide (x < y)
  le x y := decide (x ≤ y)
  nonzero x := decide (x ≠ 0)
  fsum xs := xs.foldr (fun x sum => x + sum) 0
  log x := if 0 < x then .ok (Real.log x) else .error "ValueError"
  exp x := .ok (Real.exp x)
  round := roundHalfEven

variable {ρ : Type}

/-! ### Sorting and medians -/

lemma sorted_real (xs : List ℝ) : sorted realArithmetic xs = xs.insertionSort (· ≤ ·) := by
  unfold sorted realArithmetic
  congr! 3
  simp

lemma sorted_pairwise (xs : List ℝ) : (sorted realArithmetic xs).Pairwise (· ≤ ·) := by
  rw [sorted_real]
  exact List.pairwise_insertionSort _ xs

@[simp] lemma length_sorted (xs : List ℝ) : (sorted realArithmetic xs).length = xs.length := by
  rw [sorted_real, List.length_insertionSort]

@[simp] lemma mem_sorted {xs : List ℝ} {x : ℝ} : x ∈ sorted realArithmetic xs ↔ x ∈ xs := by
  rw [sorted_real, List.mem_insertionSort]

lemma div_real {x y : ℝ} (hy : y ≠ 0) : realArithmetic.div x y = .ok (x / y) := if_neg hy

lemma median_odd {xs : List ℝ} (h : xs.length % 2 = 1) (hlt : xs.length / 2 < (sorted realArithmetic xs).length) :
    median realArithmetic xs = .ok (sorted realArithmetic xs)[xs.length / 2] := by
  unfold median
  simp only [length_sorted]
  rw [if_neg (by omega), if_pos h, item_of_lt]

lemma median_even {xs : List ℝ} (h : xs.length % 2 = 0)
    (hlo : xs.length / 2 - 1 < (sorted realArithmetic xs).length)
    (hhi : xs.length / 2 < (sorted realArithmetic xs).length) :
    median realArithmetic xs = .ok (((sorted realArithmetic xs)[xs.length / 2 - 1] +
      (sorted realArithmetic xs)[xs.length / 2]) / 2) := by
  have hne : xs.length ≠ 0 := by
    rw [length_sorted] at hhi
    omega
  unfold median
  simp only [length_sorted]
  rw [if_neg hne, if_neg (by omega), item_of_lt hlo, item_of_lt hhi]
  change realArithmetic.div (_ + _) (((2 : ℚ) : ℝ)) = _
  rw [div_real (by norm_num)]
  norm_num

lemma median_pos {xs : List ℝ} (hne : xs ≠ []) (hpos : ∀ x ∈ xs, 0 < x) :
    ∃ m, median realArithmetic xs = .ok m ∧ 0 < m := by
  have hlen : 0 < xs.length := List.length_pos_iff.mpr hne
  have hmem : ∀ (i : ℕ) (hi : i < (sorted realArithmetic xs).length), 0 < (sorted realArithmetic xs)[i] :=
    fun i hi => hpos _ (mem_sorted.mp (List.getElem_mem hi))
  have hhi : xs.length / 2 < (sorted realArithmetic xs).length := by
    rw [length_sorted]
    omega
  have hlo : xs.length / 2 - 1 < (sorted realArithmetic xs).length := by
    rw [length_sorted]
    omega
  rcases Nat.mod_two_eq_zero_or_one xs.length with heven | hodd
  · refine ⟨_, median_even heven hlo hhi, ?_⟩
    have h₁ := hmem _ hlo
    have h₂ := hmem _ hhi
    positivity
  · exact ⟨_, median_odd hodd hhi, hmem _ hhi⟩

/-! ### The geometric mean -/

lemma mapM_log {xs : List ℝ} (hpos : ∀ x ∈ xs, 0 < x) :
    xs.mapM realArithmetic.log = .ok (xs.map Real.log) := by
  rw [mapM_eq_ok, List.forall₂_map_right_iff, List.forall₂_same]
  intro x hx
  exact if_pos (hpos x hx)

noncomputable def mean (xs : List ℝ) : ℝ := xs.foldr (fun x sum => x + sum) 0 / xs.length

lemma fmean_real {xs : List ℝ} (hne : xs ≠ []) : fmean realArithmetic xs = .ok (mean xs) := by
  have hlen : ((xs.length : ℚ) : ℝ) ≠ 0 := by
    simpa using hne
  unfold fmean
  rw [if_neg hne]
  change realArithmetic.div _ ((xs.length : ℚ) : ℝ) = _
  rw [div_real hlen, Rat.cast_natCast]
  rfl

lemma geomeanOf_real {xs : List ℝ} (hne : xs ≠ []) (hpos : ∀ x ∈ xs, 0 < x) :
    geomeanOf realArithmetic xs = .ok (Real.exp (mean (xs.map Real.log))) := by
  unfold geomeanOf
  rw [mapM_log hpos]
  change (do
    let mean ← fmean realArithmetic (xs.map Real.log)
    realArithmetic.exp mean) = _
  rw [fmean_real (by simpa using hne)]
  rfl

/-! ### Loops over draws -/

lemma drawOne_spec {α : Type} (rng : Rng ρ) {values : List α} (hne : values ≠ []) (s : ρ) :
    ∃ value s', drawOne rng values s = .ok (value, s') ∧ value ∈ values := by
  have hlen : 0 < values.length := List.length_pos_iff.mpr hne
  have hlt := (rng.randrange s values.length hlen).1.isLt
  refine ⟨values[(rng.randrange s values.length hlen).1.val], (rng.randrange s values.length hlen).2, ?_,
    List.getElem_mem hlt⟩
  unfold drawOne Rng.draw
  rw [dif_pos hlen]
  change (do
    let value ← item values (rng.randrange s values.length hlen).1.val
    return (value, (rng.randrange s values.length hlen).2)) = _
  rw [item_of_lt hlt]
  rfl

lemma collectN_spec {α : Type} {body : ρ → Except String (α × ρ)} {P : α → Prop}
    (h : ∀ s, ∃ value s', body s = .ok (value, s') ∧ P value) (n : ℕ) (s : ρ) :
    ∃ values s', collectN body n s = .ok (values, s') ∧ values.length = n ∧ ∀ value ∈ values, P value := by
  induction n generalizing s with
  | zero => exact ⟨[], s, rfl, rfl, fun _ h => nomatch h⟩
  | succ n ih =>
    obtain ⟨value, s', hbody, hvalue⟩ := h s
    obtain ⟨values, s'', hrest, hlen, hall⟩ := ih s'
    refine ⟨value :: values, s'', ?_, by rw [List.length_cons, hlen], List.forall_mem_cons.mpr ⟨hvalue, hall⟩⟩
    rw [collectN]
    refine bind_eq_ok.mpr ⟨(value, s'), hbody, ?_⟩
    exact bind_eq_ok.mpr ⟨(values, s''), hrest, rfl⟩

/-- The groups of a run: not empty, of positive ratios, none empty. -/
structure Ratios (groups : List (List ℝ)) : Prop where
  nonempty : groups ≠ []
  groups_nonempty : ∀ group ∈ groups, group ≠ []
  positive : ∀ group ∈ groups, ∀ x ∈ group, 0 < x

lemma resample_spec (rng : Rng ρ) {group : List ℝ} (hne : group ≠ []) (s : ρ) :
    ∃ resample s', collectN (drawOne rng group) group.length s = .ok (resample, s') ∧
      resample.length = group.length ∧ ∀ x ∈ resample, x ∈ group :=
  collectN_spec (drawOne_spec rng hne) group.length s

lemma drawMedian_spec (rng : Rng ρ) {groups : List (List ℝ)} (hgroups : Ratios groups) (s : ρ) :
    ∃ m s', drawMedian realArithmetic rng groups s = .ok (m, s') ∧ 0 < m := by
  obtain ⟨group, s₁, hgroup, hmem⟩ := drawOne_spec rng hgroups.nonempty s
  have hne := hgroups.groups_nonempty group hmem
  obtain ⟨resample, s₂, hresample, hlen, hsub⟩ := resample_spec rng hne s₁
  have hresample_ne : resample ≠ [] := by
    rw [← List.length_pos_iff, hlen]
    exact List.length_pos_iff.mpr hne
  obtain ⟨m, hm, hpos⟩ := median_pos hresample_ne (fun x hx => hgroups.positive group hmem x (hsub x hx))
  refine ⟨m, s₂, ?_, hpos⟩
  unfold drawMedian
  rw [bind_eq_ok]
  refine ⟨_, hgroup, bind_eq_ok.mpr ⟨_, hresample, bind_eq_ok.mpr ⟨m, hm, rfl⟩⟩⟩

lemma replicate_spec (rng : Rng ρ) {groups : List (List ℝ)} (hgroups : Ratios groups) (s : ρ) :
    ∃ g s', replicate realArithmetic rng groups s = .ok (g, s') ∧ 0 < g := by
  obtain ⟨medians, s', hmedians, hlen, hpos⟩ := collectN_spec (drawMedian_spec rng hgroups) groups.length s
  have hne : medians ≠ [] := by
    rw [← List.length_pos_iff, hlen]
    exact List.length_pos_iff.mpr hgroups.nonempty
  refine ⟨_, s', ?_, Real.exp_pos (mean (medians.map Real.log))⟩
  unfold replicate
  rw [bind_eq_ok]
  exact ⟨_, hmedians, bind_eq_ok.mpr ⟨_, geomeanOf_real hne hpos, rfl⟩⟩

end SciForge.Bench
