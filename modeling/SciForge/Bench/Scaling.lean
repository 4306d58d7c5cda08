import SciForge.Bench.Mirror
import SciForge.Bench.Quartiles

/-!
# Bounds and scale of the hierarchical interval

On positive ratios, medians and geometric means stay between the smallest and the largest value they are taken
of, and move along with a positive factor; so do the estimate and both bounds, whatever is drawn.
-/

namespace SciForge.Bench

variable {ρ : Type} {lo hi c : ℝ}

/-- The ratios of every case in another unit. -/
noncomputable def scaled (c : ℝ) (groups : List (List ℝ)) : List (List ℝ) :=
  groups.map (fun group => group.map (c * ·))

lemma ratios_scaled (hc : 0 < c) {groups : List (List ℝ)} (hgroups : Ratios groups) : Ratios (scaled c groups) := by
  constructor
  · simpa [scaled] using hgroups.nonempty
  · intro group hgroup
    obtain ⟨original, horiginal, rfl⟩ := List.mem_map.mp hgroup
    simpa using hgroups.groups_nonempty original horiginal
  · intro group hgroup y hy
    obtain ⟨original, horiginal, rfl⟩ := List.mem_map.mp hgroup
    obtain ⟨x, hx, rfl⟩ := List.mem_map.mp hy
    exact mul_pos hc (hgroups.positive original horiginal x hx)

/-! ### Medians -/

lemma realArithmetic_exact : realArithmetic.Exact where
  lt _ _ := rfl
  add _ _ := rfl
  sub _ _ := rfl
  half x := by
    change realArithmetic.div x ((2 : ℚ) : ℝ) = _
    rw [div_real (by norm_num)]
    norm_num

lemma median_within {xs : List ℝ} (hne : xs ≠ []) (hwithin : ∀ x ∈ xs, x ∈ Set.Icc lo hi) :
    ∃ m, median realArithmetic xs = .ok m ∧ m ∈ Set.Icc lo hi :=
  ⟨_, median_exact realArithmetic_exact hne, Sample.le_median hne (fun x hx => (hwithin x hx).1),
    Sample.median_le hne (fun x hx => (hwithin x hx).2)⟩

lemma median_scaled (hc : 0 < c) {xs : List ℝ} (hne : xs ≠ []) :
    median realArithmetic (xs.map (c * ·)) = (median realArithmetic xs).map (c * ·) := by
  rw [median_exact realArithmetic_exact hne, median_exact realArithmetic_exact (by simpa using hne),
    Sample.median_scale hc.le]
  rfl

/-! ### Geometric means -/

lemma mean_eq (xs : List ℝ) : mean xs = xs.sum / xs.length := rfl

lemma mean_within {xs : List ℝ} (hne : xs ≠ []) (hwithin : ∀ x ∈ xs, x ∈ Set.Icc lo hi) :
    mean xs ∈ Set.Icc lo hi := by
  have hpos : (0 : ℝ) < xs.length := by exact_mod_cast List.length_pos_of_ne_nil hne
  have hlow := List.card_nsmul_le_sum xs lo (fun x hx => (hwithin x hx).1)
  have hhigh := List.sum_le_card_nsmul xs hi (fun x hx => (hwithin x hx).2)
  rw [nsmul_eq_mul] at hlow hhigh
  rw [mean_eq]
  exact ⟨(le_div_iff₀' hpos).mpr hlow, (div_le_iff₀' hpos).mpr hhigh⟩

lemma mean_add {xs : List ℝ} (hne : xs ≠ []) (d : ℝ) : mean (xs.map (d + ·)) = d + mean xs := by
  have hpos : (xs.length : ℝ) ≠ 0 := by simpa using hne
  rw [mean_eq, mean_eq, List.sum_map_add, List.map_const', List.sum_replicate, List.length_map, nsmul_eq_mul,
    List.map_id']
  field_simp

lemma geomeanOf_within (hlo : 0 < lo) {xs : List ℝ} (hne : xs ≠ []) (hwithin : ∀ x ∈ xs, x ∈ Set.Icc lo hi) :
    ∃ g, geomeanOf realArithmetic xs = .ok g ∧ g ∈ Set.Icc lo hi := by
  have hpos : ∀ x ∈ xs, 0 < x := fun x hx => hlo.trans_le (hwithin x hx).1
  have hhi : 0 < hi := by
    obtain ⟨x, hx⟩ := List.exists_mem_of_ne_nil xs hne
    exact (hpos x hx).trans_le (hwithin x hx).2
  have hlogs : ∀ y ∈ xs.map Real.log, y ∈ Set.Icc (Real.log lo) (Real.log hi) := by
    intro y hy
    obtain ⟨x, hx, rfl⟩ := List.mem_map.mp hy
    exact ⟨Real.log_le_log hlo (hwithin x hx).1, Real.log_le_log (hpos x hx) (hwithin x hx).2⟩
  obtain ⟨hlow, hhigh⟩ := mean_within (by simpa using hne) hlogs
  refine ⟨_, geomeanOf_real hne hpos, (Real.exp_log hlo).symm.trans_le (Real.exp_le_exp.mpr hlow), ?_⟩
  exact (Real.exp_le_exp.mpr hhigh).trans_eq (Real.exp_log hhi)

lemma geomeanOf_scaled (hc : 0 < c) {xs : List ℝ} (hne : xs ≠ []) (hpos : ∀ x ∈ xs, 0 < x) :
    geomeanOf realArithmetic (xs.map (c * ·)) = (geomeanOf realArithmetic xs).map (c * ·) := by
  have hpos' : ∀ y ∈ xs.map (c * ·), 0 < y := by
    intro y hy
    obtain ⟨x, hx, rfl⟩ := List.mem_map.mp hy
    exact mul_pos hc (hpos x hx)
  have hlogs : (xs.map (c * ·)).map Real.log = (xs.map Real.log).map (Real.log c + ·) := by
    rw [List.map_map, List.map_map]
    exact List.map_congr_left (fun x hx => Real.log_mul hc.ne' (hpos x hx).ne')
  rw [geomeanOf_real hne hpos, geomeanOf_real (by simpa using hne) hpos', hlogs, mean_add (by simpa using hne),
    Real.exp_add, Real.exp_log hc]
  rfl

/-! ### Replicates -/

lemma drawMedian_within (rng : Rng ρ) {groups : List (List ℝ)} (hgroups : Ratios groups)
    (hwithin : ∀ group ∈ groups, ∀ x ∈ group, x ∈ Set.Icc lo hi) (s : ρ) :
    ∃ m s', drawMedian realArithmetic rng groups s = .ok (m, s') ∧ m ∈ Set.Icc lo hi := by
  obtain ⟨group, s₁, hgroup, hmem⟩ := drawOne_spec rng hgroups.nonempty s
  have hne := hgroups.groups_nonempty group hmem
  obtain ⟨resample, s₂, hresample, hlen, hsub⟩ := resample_spec rng hne s₁
  have hresample_ne : resample ≠ [] := by
    rw [← List.length_pos_iff, hlen]
    exact List.length_pos_iff.mpr hne
  obtain ⟨m, hm, hmedian⟩ := median_within hresample_ne (fun x hx => hwithin group hmem x (hsub x hx))
  exact ⟨m, s₂, bind_eq_ok.mpr ⟨_, hgroup, bind_eq_ok.mpr ⟨_, hresample, bind_eq_ok.mpr ⟨m, hm, rfl⟩⟩⟩, hmedian⟩

lemma replicate_within (hlo : 0 < lo) (rng : Rng ρ) {groups : List (List ℝ)} (hgroups : Ratios groups)
    (hwithin : ∀ group ∈ groups, ∀ x ∈ group, x ∈ Set.Icc lo hi) (s : ρ) :
    ∃ g s', replicate realArithmetic rng groups s = .ok (g, s') ∧ g ∈ Set.Icc lo hi := by
  obtain ⟨medians, s', hmedians, hlen, hmedian⟩ :=
    collectN_spec (drawMedian_within rng hgroups hwithin) groups.length s
  have hne : medians ≠ [] := by
    rw [← List.length_pos_iff, hlen]
    exact List.length_pos_iff.mpr hgroups.nonempty
  obtain ⟨g, hg, hbounds⟩ := geomeanOf_within hlo hne hmedian
  exact ⟨g, s', bind_eq_ok.mpr ⟨_, hmedians, bind_eq_ok.mpr ⟨g, hg, rfl⟩⟩, hbounds⟩

lemma replicate_scaled (hc : 0 < c) (rng : Rng ρ) {groups : List (List ℝ)} (hgroups : Ratios groups) (s : ρ) :
    replicate realArithmetic rng (scaled c groups) s =
      (replicate realArithmetic rng groups s).map (fun p => (c * p.1, p.2)) :=
  replicate_map rng hgroups
    (drawMedian_map rng hgroups (fun _ _ _ hne _ _ => median_scaled hc hne)) (geomeanOf_scaled hc) s

/-! ### Percentile bounds -/

lemma percentileBounds_within {boots : List ℝ} (hne : boots ≠ []) (hwithin : ∀ x ∈ boots, x ∈ Set.Icc lo hi)
    (level : ℝ) : ∃ low high, percentileBounds realArithmetic (sorted realArithmetic boots) level = .ok (low, high) ∧
      low ∈ Set.Icc lo hi ∧ high ∈ Set.Icc lo hi ∧
      ∀ c, 0 < c → percentileBounds realArithmetic (sorted realArithmetic (boots.map (c * ·))) level =
        .ok (c * low, c * high) := by
  have hcount : 0 < (sorted realArithmetic boots).length := by
    rw [length_sorted]
    exact List.length_pos_of_ne_nil hne
  have hsum := lowIndex_add_highIndex hcount level
  have hlow : lowIndex (sorted realArithmetic boots).length level < (sorted realArithmetic boots).length := by omega
  have hhigh : highIndex (sorted realArithmetic boots).length level < (sorted realArithmetic boots).length := by omega
  refine ⟨_, _, percentileBounds_real level hlow hhigh, hwithin _ (mem_sorted.mp (List.getElem_mem hlow)),
    hwithin _ (mem_sorted.mp (List.getElem_mem hhigh)), fun c hc => ?_⟩
  have hmap : sorted realArithmetic (boots.map (c * ·)) = (sorted realArithmetic boots).map (c * ·) := by
    rw [sorted_exact realArithmetic_exact, sorted_exact realArithmetic_exact,
      Sample.inOrder_map_of_monotone (monotone_mul_left_of_nonneg hc.le)]
  have hlen : (sorted realArithmetic (boots.map (c * ·))).length = (sorted realArithmetic boots).length := by
    rw [hmap, List.length_map]
  rw [percentileBounds_real level (by rw [hlen]; exact hlow) (by rw [hlen]; exact hhigh)]
  simp only [hmap, List.length_map, List.getElem_map]

/-! ### The interval -/

/-- The estimate and both bounds lie between the smallest and the largest ratio, and are in the unit of the
ratios. -/
theorem hierarchicalGeomeanCi_within (rng : Rng ρ) {groups : List (List ℝ)} (hgroups : Ratios groups)
    {bootstrap : ℕ} (hbootstrap : 1 ≤ bootstrap) (level : ℝ) (s : ρ) :
    ∃ g low high lo hi, hierarchicalGeomeanCi realArithmetic rng groups bootstrap level s = .ok (g, low, high) ∧
      IsLeast {x | x ∈ groups.flatten} lo ∧ IsGreatest {x | x ∈ groups.flatten} hi ∧
      (lo ≤ g ∧ g ≤ hi) ∧ (lo ≤ low ∧ low ≤ hi) ∧ (lo ≤ high ∧ high ≤ hi) ∧
      ∀ c, 0 < c →
        hierarchicalGeomeanCi realArithmetic rng (scaled c groups) bootstrap level s =
          .ok (c * g, c * low, c * high) := by
  have hflat : groups.flatten ≠ [] := by
    obtain ⟨group, hgroup⟩ := List.exists_mem_of_ne_nil groups hgroups.nonempty
    exact List.flatten_ne_nil_iff.mpr ⟨group, hgroup, hgroups.groups_nonempty group hgroup⟩
  obtain ⟨lo, hlo⟩ := Sample.exists_isLeast hflat
  obtain ⟨hi, hhi⟩ := Sample.exists_isGreatest hflat
  have hwithin : ∀ group ∈ groups, ∀ x ∈ group, x ∈ Set.Icc lo hi := by
    intro group hgroup x hx
    have hmem := List.mem_flatten_of_mem hgroup hx
    exact ⟨hlo.2 hmem, hhi.2 hmem⟩
  have hpos : 0 < lo := by
    obtain ⟨group, hgroup, hx⟩ := List.mem_flatten.mp hlo.1
    exact hgroups.positive group hgroup lo hx
  obtain ⟨medians, hmedians, hlen, hmedian⟩ := mapM_of_forall
    (fun group hgroup => median_within (hgroups.groups_nonempty group hgroup) (hwithin group hgroup))
  have hne : medians ≠ [] := by
    rw [← List.length_pos_iff, hlen]
    exact List.length_pos_iff.mpr hgroups.nonempty
  obtain ⟨g, hg, hg_within⟩ := geomeanOf_within hpos hne hmedian
  obtain ⟨boots, s', hboots, hlen_boots, hboots_within⟩ :=
    collectN_spec (replicate_within hpos rng hgroups hwithin) bootstrap s
  have hboots_ne : boots ≠ [] := by
    rw [← List.length_pos_iff, hlen_boots]
    exact hbootstrap
  obtain ⟨low, high, hbounds, hlow, hhigh, hscaled⟩ := percentileBounds_within hboots_ne hboots_within level
  refine ⟨g, low, high, lo, hi, hierarchicalGeomeanCi_ok hgroups hmedians hg hboots hbounds, hlo, hhi, hg_within,
    hlow, hhigh, fun c hc => ?_⟩
  have hmedians' : (scaled c groups).mapM (median realArithmetic) = .ok (medians.map (c * ·)) := by
    unfold scaled
    rw [mapM_translated (fun group hgroup => median_scaled hc (hgroups.groups_nonempty group hgroup)), hmedians]
    rfl
  have hg' : geomeanOf realArithmetic (medians.map (c * ·)) = .ok (c * g) := by
    rw [geomeanOf_scaled hc hne (fun m hm => hpos.trans_le (hmedian m hm).1), hg]
    rfl
  have hboots' : collectN (replicate realArithmetic rng (scaled c groups)) bootstrap s =
      .ok (boots.map (c * ·), s') := by
    rw [collectN_map (replicate_scaled hc rng hgroups), hboots]
    rfl
  exact hierarchicalGeomeanCi_ok (ratios_scaled hc hgroups) hmedians' hg' hboots' (hscaled c hc)

theorem hierarchicalGeomeanCi_within_scripted : ∃ g low high : ℝ,
    hierarchicalGeomeanCi realArithmetic scripted [[1, 2], [3]] 1 0.95 [1, 0, 1, 0] = .ok (g, low, high) ∧
      hierarchicalGeomeanCi realArithmetic scripted (scaled 5 [[1, 2], [3]]) 1 0.95 [1, 0, 1, 0] =
        .ok (5 * g, 5 * low, 5 * high) := by
  have hratios : Ratios [[1, 2], [3]] := by
    constructor
    · simp
    · simp
    · simp
  obtain ⟨g, low, high, _, _, hvalue, -, -, -, -, -, hscaled⟩ :=
    hierarchicalGeomeanCi_within scripted hratios le_rfl 0.95 [1, 0, 1, 0]
  exact ⟨g, low, high, hvalue, hscaled 5 (by norm_num)⟩

end SciForge.Bench
