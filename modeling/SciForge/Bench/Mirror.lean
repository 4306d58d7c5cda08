import SciForge.Bench.Exact

/-!
# Swapping subject and reference

Every ratio replaced by its inverse, under the same draws: medians, replicates, percentile bounds and the
classification.
-/

namespace SciForge.Bench

variable {ρ : Type}

/-- The ratios of every case with subject and reference exchanged. -/
noncomputable def swapped (groups : List (List ℝ)) : List (List ℝ) :=
  groups.map (fun group => group.map (fun x => x⁻¹))

/-- A group whose resamples all have inverse medians: an odd number of ratios, or one ratio throughout. -/
def Balanced (group : List ℝ) : Prop := group.length % 2 = 1 ∨ ∀ x ∈ group, ∀ y ∈ group, x = y

/-! ### Medians -/

lemma sorted_inv {xs : List ℝ} (hpos : ∀ x ∈ xs, 0 < x) :
    sorted realArithmetic (xs.map (fun x => x⁻¹)) = ((sorted realArithmetic xs).map (fun x => x⁻¹)).reverse := by
  have hperm : (sorted realArithmetic (xs.map (fun x => x⁻¹))).Perm
      ((sorted realArithmetic xs).map (fun x => x⁻¹)).reverse := by
    rw [sorted_real, sorted_real]
    apply (List.perm_insertionSort _ _).trans
    apply List.Perm.trans _ (List.reverse_perm _).symm
    exact ((List.perm_insertionSort _ xs).map _).symm
  apply List.Perm.eq_of_pairwise' (r := (· ≤ ·)) (sorted_pairwise _) _ hperm
  rw [List.pairwise_reverse, List.pairwise_map]
  apply (sorted_pairwise xs).imp_of_mem
  intro x y hx _ hxy
  exact inv_anti₀ (hpos x (mem_sorted.mp hx)) hxy

lemma sorted_inv_getElem {xs : List ℝ} (hpos : ∀ x ∈ xs, 0 < x) {i j : ℕ} (hij : i + j + 1 = xs.length)
    (hi : i < (sorted realArithmetic (xs.map (fun x => x⁻¹))).length) (hj : j < (sorted realArithmetic xs).length) :
    (sorted realArithmetic (xs.map (fun x => x⁻¹)))[i] = (sorted realArithmetic xs)[j]⁻¹ := by
  have hidx : (sorted realArithmetic xs).length - 1 - i = j := by
    rw [length_sorted]
    omega
  simp only [sorted_inv hpos, List.getElem_reverse, List.getElem_map, List.length_map, hidx]

lemma median_inv_odd {xs : List ℝ} (hpos : ∀ x ∈ xs, 0 < x) (hodd : xs.length % 2 = 1) :
    median realArithmetic (xs.map (fun x => x⁻¹)) = (median realArithmetic xs).map (fun m => m⁻¹) := by
  have hlt : xs.length / 2 < (sorted realArithmetic xs).length := by
    rw [length_sorted]
    omega
  have hlen : (xs.map (fun x => x⁻¹)).length = xs.length := List.length_map _
  have hlt' : (xs.map (fun x => x⁻¹)).length / 2 < (sorted realArithmetic (xs.map (fun x => x⁻¹))).length := by
    rw [length_sorted, hlen]
    omega
  rw [median_odd hodd hlt, median_odd (by rw [hlen, hodd]) hlt', sorted_inv_getElem hpos (by rw [hlen]; omega) hlt' hlt]
  rfl

lemma median_const {xs : List ℝ} {a : ℝ} (hne : xs ≠ []) (hconst : ∀ x ∈ xs, x = a) :
    median realArithmetic xs = .ok a := by
  have hlen : 0 < xs.length := List.length_pos_iff.mpr hne
  have hitem : ∀ (i : ℕ) (hi : i < (sorted realArithmetic xs).length), (sorted realArithmetic xs)[i] = a :=
    fun i hi => hconst _ (mem_sorted.mp (List.getElem_mem hi))
  have hhi : xs.length / 2 < (sorted realArithmetic xs).length := by
    rw [length_sorted]
    omega
  have hlo : xs.length / 2 - 1 < (sorted realArithmetic xs).length := by
    rw [length_sorted]
    omega
  rcases Nat.mod_two_eq_zero_or_one xs.length with heven | hodd
  · rw [median_even heven hlo hhi, hitem _ hlo, hitem _ hhi, add_self_div_two]
  · rw [median_odd hodd hhi, hitem _ hhi]

lemma median_inv {xs : List ℝ} (hne : xs ≠ []) (hpos : ∀ x ∈ xs, 0 < x) (hbalanced : Balanced xs) :
    median realArithmetic (xs.map (fun x => x⁻¹)) = (median realArithmetic xs).map (fun m => m⁻¹) := by
  rcases hbalanced with hodd | hconst
  · exact median_inv_odd hpos hodd
  · obtain ⟨a, ha⟩ := List.exists_mem_of_ne_nil xs hne
    have hall : ∀ x ∈ xs, x = a := fun x hx => hconst x hx a ha
    rw [median_const hne hall, median_const (a := a⁻¹) (by simpa using hne)]
    · rfl
    · intro y hy
      obtain ⟨x, hx, rfl⟩ := List.mem_map.mp hy
      rw [hall x hx]

/-! ### Draws -/

lemma drawOne_map {α β : Type} (f : α → β) (rng : Rng ρ) (values : List α) (s : ρ) :
    drawOne rng (values.map f) s = (drawOne rng values s).map (fun p => (f p.1, p.2)) := by
  unfold drawOne
  rw [List.length_map]
  cases rng.draw values.length s with
  | error e => rfl
  | ok p =>
    change (do
      let value ← item (values.map f) p.1
      return (value, p.2)) = Except.map _ (do
      let value ← item values p.1
      return (value, p.2))
    unfold item
    rw [List.getElem?_map]
    cases values[p.1]? with
    | none => rfl
    | some value => rfl

lemma collectN_map {α β : Type} {f : α → β} {body : ρ → Except String (α × ρ)} {body' : ρ → Except String (β × ρ)}
    (h : ∀ s, body' s = (body s).map (fun p => (f p.1, p.2))) (n : ℕ) (s : ρ) :
    collectN body' n s = (collectN body n s).map (fun p => (p.1.map f, p.2)) := by
  induction n generalizing s with
  | zero => rfl
  | succ n ih =>
    unfold collectN
    rw [h]
    cases body s with
    | error e => rfl
    | ok p =>
      change (do
        let rest ← collectN body' n p.2
        return (f p.1 :: rest.1, rest.2)) = Except.map _ (do
        let rest ← collectN body n p.2
        return (p.1 :: rest.1, rest.2))
      rw [ih]
      cases collectN body n p.2 with
      | error e => rfl
      | ok q => rfl

lemma ratios_swapped {groups : List (List ℝ)} (hgroups : Ratios groups) : Ratios (swapped groups) := by
  constructor
  · simpa [swapped] using hgroups.nonempty
  · intro group hgroup
    obtain ⟨original, horiginal, rfl⟩ := List.mem_map.mp hgroup
    simpa using hgroups.groups_nonempty original horiginal
  · intro group hgroup y hy
    obtain ⟨original, horiginal, rfl⟩ := List.mem_map.mp hgroup
    obtain ⟨x, hx, rfl⟩ := List.mem_map.mp hy
    exact inv_pos.mpr (hgroups.positive original horiginal x hx)

/-- A map of the ratios under which every resample's median moves along moves the drawn median along. -/
lemma drawMedian_map {f : ℝ → ℝ} (rng : Rng ρ) {groups : List (List ℝ)} (hgroups : Ratios groups)
    (hmedian : ∀ group ∈ groups, ∀ resample : List ℝ, resample ≠ [] → resample.length = group.length →
      (∀ x ∈ resample, x ∈ group) →
        median realArithmetic (resample.map f) = (median realArithmetic resample).map f) (s : ρ) :
    drawMedian realArithmetic rng (groups.map (fun group => group.map f)) s =
      (drawMedian realArithmetic rng groups s).map (fun p => (f p.1, p.2)) := by
  obtain ⟨group, s₁, hgroup, hmem⟩ := drawOne_spec rng hgroups.nonempty s
  have hne := hgroups.groups_nonempty group hmem
  obtain ⟨resample, s₂, hresample, hlen, hsub⟩ := resample_spec rng hne s₁
  have hresample_ne : resample ≠ [] := by
    rw [← List.length_pos_iff, hlen]
    exact List.length_pos_iff.mpr hne
  have hmapped : drawOne rng (groups.map (fun group => group.map f)) s = .ok (group.map f, s₁) := by
    rw [drawOne_map, hgroup]
    rfl
  have hmapped_resample : collectN (drawOne rng (group.map f)) group.length s₁ = .ok (resample.map f, s₂) := by
    rw [collectN_map (drawOne_map _ rng group), hresample]
    rfl
  unfold drawMedian
  rw [hgroup, hmapped]
  change (do
    let drawn ← collectN (drawOne rng (group.map f)) (group.map f).length s₁
    let value ← median realArithmetic drawn.1
    return (value, drawn.2)) = Except.map _ (do
    let drawn ← collectN (drawOne rng group) group.length s₁
    let value ← median realArithmetic drawn.1
    return (value, drawn.2))
  rw [List.length_map, hmapped_resample, hresample]
  change (do
    let value ← median realArithmetic (resample.map f)
    return (value, s₂)) = Except.map _ (do
    let value ← median realArithmetic resample
    return (value, s₂))
  rw [hmedian group hmem resample hresample_ne hlen hsub]
  cases median realArithmetic resample with
  | error e => rfl
  | ok m => rfl

lemma replicate_map {f : ℝ → ℝ} (rng : Rng ρ) {groups : List (List ℝ)} (hgroups : Ratios groups)
    (hdraw : ∀ s, drawMedian realArithmetic rng (groups.map (fun group => group.map f)) s =
      (drawMedian realArithmetic rng groups s).map (fun p => (f p.1, p.2)))
    (hmean : ∀ {medians : List ℝ}, medians ≠ [] → (∀ m ∈ medians, 0 < m) →
      geomeanOf realArithmetic (medians.map f) = (geomeanOf realArithmetic medians).map f) (s : ρ) :
    replicate realArithmetic rng (groups.map (fun group => group.map f)) s =
      (replicate realArithmetic rng groups s).map (fun p => (f p.1, p.2)) := by
  obtain ⟨medians, s', hmedians, hlen, hpos⟩ := collectN_spec (drawMedian_spec rng hgroups) groups.length s
  have hne : medians ≠ [] := by
    rw [← List.length_pos_iff, hlen]
    exact List.length_pos_iff.mpr hgroups.nonempty
  unfold replicate
  rw [List.length_map, collectN_map hdraw, hmedians]
  change (do
    let value ← geomeanOf realArithmetic (medians.map f)
    return (value, s')) = Except.map _ (do
    let value ← geomeanOf realArithmetic medians
    return (value, s'))
  rw [hmean hne hpos]
  cases geomeanOf realArithmetic medians with
  | error e => rfl
  | ok g => rfl

lemma drawMedian_inv (rng : Rng ρ) {groups : List (List ℝ)} (hgroups : Ratios groups)
    (hbalanced : ∀ group ∈ groups, Balanced group) (s : ρ) :
    drawMedian realArithmetic rng (swapped groups) s =
      (drawMedian realArithmetic rng groups s).map (fun p => (p.1⁻¹, p.2)) := by
  refine drawMedian_map rng hgroups (fun group hmem resample hne hlen hsub => ?_) s
  have hpos : ∀ x ∈ resample, 0 < x := fun x hx => hgroups.positive group hmem x (hsub x hx)
  have hresample_balanced : Balanced resample := by
    rcases hbalanced group hmem with hodd | hconst
    · exact .inl (by rw [hlen, hodd])
    · exact .inr (fun x hx y hy => hconst x (hsub x hx) y (hsub y hy))
  exact median_inv hne hpos hresample_balanced

lemma mean_log_inv (xs : List ℝ) :
    mean ((xs.map (fun x => x⁻¹)).map Real.log) = -mean (xs.map Real.log) := by
  unfold mean
  simp only [List.length_map]
  rw [← neg_div]
  congr 1
  induction xs with
  | nil => simp
  | cons x xs ih =>
    simp only [List.map_cons, List.foldr_cons, ih, Real.log_inv]
    ring

lemma geomeanOf_inv {xs : List ℝ} (hne : xs ≠ []) (hpos : ∀ x ∈ xs, 0 < x) :
    geomeanOf realArithmetic (xs.map (fun x => x⁻¹)) = (geomeanOf realArithmetic xs).map (fun g => g⁻¹) := by
  have hpos' : ∀ y ∈ xs.map (fun x => x⁻¹), 0 < y := by
    intro y hy
    obtain ⟨x, hx, rfl⟩ := List.mem_map.mp hy
    exact inv_pos.mpr (hpos x hx)
  rw [geomeanOf_real hne hpos, geomeanOf_real (by simpa using hne) hpos', mean_log_inv, Real.exp_neg]
  rfl

lemma replicate_inv (rng : Rng ρ) {groups : List (List ℝ)} (hgroups : Ratios groups)
    (hbalanced : ∀ group ∈ groups, Balanced group) (s : ρ) :
    replicate realArithmetic rng (swapped groups) s =
      (replicate realArithmetic rng groups s).map (fun p => (p.1⁻¹, p.2)) :=
  replicate_map rng hgroups (drawMedian_inv rng hgroups hbalanced) geomeanOf_inv s

/-! ### Percentile bounds -/

noncomputable def lowIndex (count : ℕ) (level : ℝ) : ℕ := (clamp (tailOf count level) count).toNat

noncomputable def highIndex (count : ℕ) (level : ℝ) : ℕ := (clamp (count - 1 - tailOf count level) count).toNat

lemma lowIndex_add_highIndex {count : ℕ} (hcount : 0 < count) (level : ℝ) :
    lowIndex count level + highIndex count level + 1 = count := by
  unfold lowIndex highIndex clamp
  omega

lemma percentileBounds_real {ordered : List ℝ} (level : ℝ) (hlow : lowIndex ordered.length level < ordered.length)
    (hhigh : highIndex ordered.length level < ordered.length) :
    percentileBounds realArithmetic ordered level =
      .ok (ordered[lowIndex ordered.length level], ordered[highIndex ordered.length level]) := by
  have hhalf : realArithmetic.div (realArithmetic.sub (realArithmetic.lit 1) level) (realArithmetic.lit 2) =
      .ok ((1 - level) / 2) := by
    change realArithmetic.div (((1 : ℚ) : ℝ) - level) ((2 : ℚ) : ℝ) = _
    rw [div_real (by norm_num)]
    norm_num
  have htail : realArithmetic.round (realArithmetic.mul ((1 - level) / 2) (realArithmetic.lit ordered.length)) =
      tailOf ordered.length level := by
    change roundHalfEven ((1 - level) / 2 * ((ordered.length : ℚ) : ℝ)) = _
    rw [Rat.cast_natCast]
    rfl
  unfold percentileBounds
  rw [bind_eq_ok]
  apply Exists.intro _
  apply And.intro hhalf
  rw [htail, bind_eq_ok]
  exact ⟨_, item_of_lt hlow, bind_eq_ok.mpr ⟨_, item_of_lt hhigh, rfl⟩⟩

lemma lowIndex_le_highIndex (count : ℕ) (hcount : 0 < count) : lowIndex count 0.95 ≤ highIndex count 0.95 := by
  have hround : ((tailOf count 0.95 : ℤ) : ℝ) ≤ 0.025 * count + 1 / 2 := by
    unfold tailOf roundHalfEven
    have hfloor := Int.floor_add_fract ((1 - 0.95) / 2 * (count : ℝ))
    have hfract := Int.fract_nonneg ((1 - 0.95) / 2 * (count : ℝ))
    split_ifs
    · linarith
    · push_cast
      linarith
    · linarith
    · push_cast
      linarith
  have hcast : ((40 * tailOf count 0.95 : ℤ) : ℝ) ≤ ((count + 20 : ℤ) : ℝ) := by
    push_cast
    linarith
  have htail : 40 * tailOf count 0.95 ≤ count + 20 := Int.cast_le.mp hcast
  unfold lowIndex highIndex clamp
  omega

lemma percentileBounds_inv {boots : List ℝ} (hne : boots ≠ []) (hpos : ∀ x ∈ boots, 0 < x) (level : ℝ) :
    ∃ low high, percentileBounds realArithmetic (sorted realArithmetic boots) level = .ok (low, high) ∧
      percentileBounds realArithmetic (sorted realArithmetic (boots.map (fun x => x⁻¹))) level =
        .ok (high⁻¹, low⁻¹) ∧ 0 < low ∧ 0 < high ∧ (level = 0.95 → low ≤ high) := by
  have hcount : 0 < boots.length := List.length_pos_iff.mpr hne
  have hsum := lowIndex_add_highIndex hcount level
  have hlen : (sorted realArithmetic boots).length = boots.length := length_sorted boots
  have hlen' : (sorted realArithmetic (boots.map (fun x => x⁻¹))).length = boots.length := by
    rw [length_sorted, List.length_map]
  have hlow : lowIndex (sorted realArithmetic boots).length level < (sorted realArithmetic boots).length := by
    rw [hlen]
    omega
  have hhigh : highIndex (sorted realArithmetic boots).length level < (sorted realArithmetic boots).length := by
    rw [hlen]
    omega
  have hlow' : lowIndex (sorted realArithmetic (boots.map (fun x => x⁻¹))).length level <
      (sorted realArithmetic (boots.map (fun x => x⁻¹))).length := by
    rw [hlen']
    omega
  have hhigh' : highIndex (sorted realArithmetic (boots.map (fun x => x⁻¹))).length level <
      (sorted realArithmetic (boots.map (fun x => x⁻¹))).length := by
    rw [hlen']
    omega
  refine ⟨_, _, percentileBounds_real level hlow hhigh, ?_, hpos _ (mem_sorted.mp (List.getElem_mem _)),
    hpos _ (mem_sorted.mp (List.getElem_mem _)), ?_⟩
  · rw [percentileBounds_real level hlow' hhigh']
    congr 2
    · apply sorted_inv_getElem hpos
      rw [hlen, hlen']
      omega
    · apply sorted_inv_getElem hpos
      rw [hlen, hlen']
      omega
  · rintro rfl
    have hle := lowIndex_le_highIndex boots.length hcount
    rw [← hlen] at hle
    exact (sorted_pairwise boots).rel_get_of_le hle

/-! ### The interval -/

lemma hierarchicalGeomeanCi_ok {rng : Rng ρ} {groups : List (List ℝ)} (hgroups : Ratios groups) {bootstrap : ℕ}
    {level point low high : ℝ} {medians boots : List ℝ} {s s' : ρ}
    (hmedians : groups.mapM (median realArithmetic) = .ok medians)
    (hpoint : geomeanOf realArithmetic medians = .ok point)
    (hboots : collectN (replicate realArithmetic rng groups) bootstrap s = .ok (boots, s'))
    (hbounds : percentileBounds realArithmetic (sorted realArithmetic boots) level = .ok (low, high)) :
    hierarchicalGeomeanCi realArithmetic rng groups bootstrap level s = .ok (point, low, high) := by
  have hguard : (groups.isEmpty || groups.any List.isEmpty) = false := by
    simp only [Bool.or_eq_false_iff, List.isEmpty_eq_false_iff, List.any_eq_false, List.isEmpty_iff]
    exact ⟨hgroups.nonempty, hgroups.groups_nonempty⟩
  unfold hierarchicalGeomeanCi
  rw [hguard, if_neg Bool.false_ne_true, bind_eq_ok]
  exact ⟨medians, hmedians, bind_eq_ok.mpr ⟨_, hpoint, bind_eq_ok.mpr ⟨_, hboots, bind_eq_ok.mpr ⟨_, hbounds, rfl⟩⟩⟩⟩

lemma hierarchicalGeomeanCi_swapped (rng : Rng ρ) {groups : List (List ℝ)} (hgroups : Ratios groups)
    (hbalanced : ∀ group ∈ groups, Balanced group) {bootstrap : ℕ} (hbootstrap : 1 ≤ bootstrap) (level : ℝ) (s : ρ) :
    ∃ g low high, hierarchicalGeomeanCi realArithmetic rng groups bootstrap level s = .ok (g, low, high) ∧
      hierarchicalGeomeanCi realArithmetic rng (swapped groups) bootstrap level s = .ok (g⁻¹, high⁻¹, low⁻¹) ∧
      0 < low ∧ 0 < high ∧ (level = 0.95 → low ≤ high) := by
  obtain ⟨medians, hmedians, hlen, hpos⟩ := mapM_of_forall
    (fun group hgroup => median_pos (hgroups.groups_nonempty group hgroup) (hgroups.positive group hgroup))
  have hmedians' : (swapped groups).mapM (median realArithmetic) = .ok (medians.map (fun m => m⁻¹)) := by
    unfold swapped
    rw [mapM_translated (fun group hgroup => median_inv (hgroups.groups_nonempty group hgroup)
      (hgroups.positive group hgroup) (hbalanced group hgroup)), hmedians]
    rfl
  have hmedians_ne : medians ≠ [] := by
    rw [← List.length_pos_iff, hlen]
    exact List.length_pos_iff.mpr hgroups.nonempty
  obtain ⟨boots, s', hboots, hlen_boots, hboots_pos⟩ := collectN_spec (replicate_spec rng hgroups) bootstrap s
  have hboots' : collectN (replicate realArithmetic rng (swapped groups)) bootstrap s =
      .ok (boots.map (fun x => x⁻¹), s') := by
    rw [collectN_map (replicate_inv rng hgroups hbalanced), hboots]
    rfl
  have hboots_ne : boots ≠ [] := by
    rw [← List.length_pos_iff, hlen_boots]
    exact hbootstrap
  obtain ⟨low, high, hbounds, hbounds', hlow, hhigh, hle⟩ := percentileBounds_inv hboots_ne hboots_pos level
  have hpoint := geomeanOf_real hmedians_ne hpos
  have hpoint' := geomeanOf_inv hmedians_ne hpos
  rw [hpoint] at hpoint'
  exact ⟨_, low, high, hierarchicalGeomeanCi_ok hgroups hmedians hpoint hboots hbounds,
    hierarchicalGeomeanCi_ok (ratios_swapped hgroups) hmedians' hpoint' hboots' hbounds', hlow, hhigh, hle⟩

/-! ### The classification -/

/-- The classification of an interval on the reals. -/
noncomputable def classification (margin low high : ℝ) : String :=
  if 0 < margin ∧ 1 / (1 + margin) ≤ low ∧ high ≤ 1 + margin then "equivalent"
  else if 1 < low then "faster"
  else if high < 1 then "slower"
  else "indecisive"

lemma withinMargin_real {margin : ℝ} (hmargin : 0 ≤ margin) (low high : ℝ) :
    withinMargin realArithmetic margin low high =
      .ok (decide (0 < margin ∧ 1 / (1 + margin) ≤ low ∧ high ≤ 1 + margin)) := by
  have hone : realArithmetic.lit 1 = 1 := Rat.cast_one
  have hzero : realArithmetic.lit 0 = 0 := Rat.cast_zero
  have hdiv : realArithmetic.div 1 (realArithmetic.add 1 margin) = .ok (1 / (1 + margin)) := by
    apply div_real
    change 1 + margin ≠ 0
    linarith
  have hlt : realArithmetic.lt 0 margin = decide (0 < margin) := rfl
  unfold withinMargin
  rw [hone, hzero, hdiv, hlt]
  by_cases hpos : 0 < margin
  · simp only [hpos, decide_true, if_true, true_and, Bool.decide_and]
    rfl
  · simp [hpos]

lemma classify_real (fmt : Format ℝ) (label : String) {margin : ℝ} (hmargin : 0 ≤ margin) (g low high : ℝ) :
    ∃ text, classify realArithmetic fmt label margin g low high = .ok (classification margin low high, text) := by
  have hone : realArithmetic.lit 1 = 1 := Rat.cast_one
  unfold classify classification
  rw [withinMargin_real hmargin, hone]
  simp only [Except.map, decide_eq_true_eq, realArithmetic]
  split_ifs <;> exact ⟨_, rfl⟩

/-- Faster and slower exchanged. -/
def mirrored (classification : String) : String :=
  if classification = "faster" then "slower" else if classification = "slower" then "faster" else classification

lemma classification_inv {margin low high : ℝ} (hmargin : 0 ≤ margin) (hlow : 0 < low) (hle : low ≤ high) :
    classification margin high⁻¹ low⁻¹ = mirrored (classification margin low high) := by
  have hhigh : 0 < high := hlow.trans_le hle
  have hsum : 0 < 1 + margin := by linarith
  have hwithin : 1 / (1 + margin) ≤ high⁻¹ ∧ low⁻¹ ≤ 1 + margin ↔ 1 / (1 + margin) ≤ low ∧ high ≤ 1 + margin := by
    rw [one_div, inv_le_inv₀ hsum hhigh, inv_le_comm₀ hlow hsum, and_comm]
  have hfaster : 1 < high⁻¹ ↔ high < 1 := one_lt_inv₀ hhigh
  have hslower : low⁻¹ < 1 ↔ 1 < low := inv_lt_one₀ hlow
  unfold classification
  simp only [hwithin, hfaster, hslower]
  by_cases hequivalent : 0 < margin ∧ 1 / (1 + margin) ≤ low ∧ high ≤ 1 + margin
  · rw [if_pos hequivalent, if_pos hequivalent]
    rfl
  · rw [if_neg hequivalent, if_neg hequivalent]
    by_cases hfast : 1 < low
    · rw [if_neg (by linarith), if_pos hfast, if_pos hfast]
      rfl
    · by_cases hslow : high < 1
      · rw [if_pos hslow, if_neg hfast, if_pos hslow]
        rfl
      · rw [if_neg hslow, if_neg hfast, if_neg hfast, if_neg hslow]
        rfl

/-! ### Which groups mirror -/

/-- The key cases of a list that passed the gate have these ratios. -/
def Gating (key : Option (Case ℝ → Bool)) (cases : List (Case ℝ)) (groups : List (List ℝ)) : Prop :=
  ratioGroups realArithmetic (key.getD (defaultKey realArithmetic)) cases =
    groups.map (fun group => .list (group.map .num))

/-- Under these draws the swap inverts the interval and exchanges faster and slower. -/
structure Mirrors (rng : Rng ρ) (s : ρ) (bootstrap : ℕ) (groups : List (List ℝ)) : Prop where
  interval : ∀ level, ∃ g low high,
    hierarchicalGeomeanCi realArithmetic rng groups bootstrap level s = .ok (g, low, high) ∧
      hierarchicalGeomeanCi realArithmetic rng (swapped groups) bootstrap level s = .ok (g⁻¹, high⁻¹, low⁻¹)
  verdicts : ∀ fmt key key' cases cases' label margin, 0 ≤ margin → Gating key cases groups →
    Gating key' cases' (swapped groups) → ∃ v v',
      verdict realArithmetic fmt rng cases key label bootstrap margin s = .ok v ∧
      verdict realArithmetic fmt rng cases' key' label bootstrap margin s = .ok v' ∧
      v'.geomean = v.geomean⁻¹ ∧ v'.ciLow = v.ciHigh⁻¹ ∧ v'.ciHigh = v.ciLow⁻¹ ∧
      v'.classification = mirrored v.classification

lemma asRatios_nums (groups : List (List ℝ)) :
    (groups.map (fun group => Value.list (group.map .num))).mapM (asRatios realArithmetic) = .ok groups := by
  rw [mapM_eq_ok, List.forall₂_map_left_iff, List.forall₂_same]
  intro group _
  change (group.map Value.num).mapM (asRatio realArithmetic) = .ok group
  rw [mapM_eq_ok, List.forall₂_map_left_iff, List.forall₂_same]
  exact fun x _ => rfl

lemma verdict_real (fmt : Format ℝ) (rng : Rng ρ) {key : Option (Case ℝ → Bool)} {cases : List (Case ℝ)}
    {groups : List (List ℝ)} (hne : groups ≠ []) (hgating : Gating key cases groups) (label : String)
    {bootstrap : ℕ} {margin : ℝ} (hmargin : 0 ≤ margin) {s : ρ} {g low high : ℝ}
    (hinterval : hierarchicalGeomeanCi realArithmetic rng groups bootstrap 0.95 s = .ok (g, low, high)) :
    ∃ v, verdict realArithmetic fmt rng cases key label bootstrap margin s = .ok v ∧ v.geomean = g ∧
      v.ciLow = low ∧ v.ciHigh = high ∧ v.classification = classification margin low high := by
  have hempty : (groups.map (fun group => Value.list (group.map .num))).isEmpty = false := by
    simpa [List.isEmpty_eq_false_iff] using hne
  have hlevel : realArithmetic.lit 0.95 = 0.95 := by
    change ((0.95 : ℚ) : ℝ) = 0.95
    norm_num
  obtain ⟨text, hclass⟩ := classify_real fmt label hmargin g low high
  have hspeed : speedOf realArithmetic fmt rng (groups.map (fun group => .list (group.map .num))) label bootstrap
      margin s = .ok ⟨g, low, high, classification margin low high, text⟩ := by
    unfold speedOf
    rw [hempty, if_neg Bool.false_ne_true, bind_eq_ok]
    refine ⟨groups, asRatios_nums groups, ?_⟩
    rw [hlevel]
    exact bind_eq_ok.mpr ⟨_, hinterval, bind_eq_ok.mpr ⟨_, hclass, rfl⟩⟩
  unfold verdict
  dsimp only
  rw [hgating, hspeed]
  exact ⟨_, rfl, rfl, rfl, rfl, rfl⟩

lemma mirrors_of_balanced (rng : Rng ρ) {groups : List (List ℝ)} (hgroups : Ratios groups)
    (hbalanced : ∀ group ∈ groups, Balanced group) {bootstrap : ℕ} (hbootstrap : 1 ≤ bootstrap) (s : ρ) :
    Mirrors rng s bootstrap groups := by
  constructor
  · intro level
    obtain ⟨g, low, high, hinterval, hinterval', -⟩ :=
      hierarchicalGeomeanCi_swapped rng hgroups hbalanced hbootstrap level s
    exact ⟨g, low, high, hinterval, hinterval'⟩
  · intro fmt key key' cases cases' label margin hmargin hgating hgating'
    obtain ⟨g, low, high, hinterval, hinterval', hlow, hhigh, hle⟩ :=
      hierarchicalGeomeanCi_swapped rng hgroups hbalanced hbootstrap 0.95 s
    obtain ⟨v, hv, hg, hl, hh, hc⟩ := verdict_real fmt rng hgroups.nonempty hgating label hmargin hinterval
    obtain ⟨v', hv', hg', hl', hh', hc'⟩ :=
      verdict_real fmt rng (ratios_swapped hgroups).nonempty hgating' label hmargin hinterval'
    refine ⟨v, v', hv, hv', ?_, ?_, ?_, ?_⟩
    · rw [hg, hg']
    · rw [hl', hh]
    · rw [hh', hl]
    · rw [hc, hc', classification_inv hmargin hlow (hle rfl)]

/-! ### Groups that do not mirror -/

/-- A generator whose draws are given. -/
def scripted : Rng (List ℕ) where
  randrange script n h := (⟨script.headD 0 % n, Nat.mod_lt _ h⟩, script.tail)

lemma drawOne_scripted {α : Type} {values : List α} {i : ℕ} {value : α} (h : values[i]? = some value)
    (rest : List ℕ) : drawOne scripted values (i :: rest) = .ok (value, rest) := by
  have hi : i < values.length := (List.getElem?_eq_some_iff.mp h).1
  have hdraw : scripted.draw values.length (i :: rest) = .ok (i, rest) := by
    unfold Rng.draw
    rw [dif_pos (by omega)]
    change Except.ok (i % values.length, rest) = _
    rw [Nat.mod_eq_of_lt hi]
  have hitem : item values i = .ok value := by
    unfold item
    rw [h]
  unfold drawOne
  exact bind_eq_ok.mpr ⟨_, hdraw, bind_eq_ok.mpr ⟨value, hitem, rfl⟩⟩

lemma collectN_scripted {α : Type} {body : List ℕ → Except String (α × List ℕ)} {codes : List (List ℕ)}
    {values : List α} (h : List.Forall₂ (fun code value => ∀ rest, body (code ++ rest) = .ok (value, rest)) codes values)
    (rest : List ℕ) : collectN body codes.length (codes.flatten ++ rest) = .ok (values, rest) := by
  induction h with
  | nil => rfl
  | @cons code value codes values hbody _ ih =>
    rw [List.flatten_cons, List.append_assoc, List.length_cons, collectN]
    exact bind_eq_ok.mpr ⟨_, hbody _, bind_eq_ok.mpr ⟨_, ih, rfl⟩⟩

lemma forall₂_replicate {α β : Type} {R : α → β → Prop} {x : α} {y : β} (h : R x y) (n : ℕ) :
    List.Forall₂ R (List.replicate n x) (List.replicate n y) := by
  induction n with
  | zero => exact .nil
  | succ n ih => exact .cons h ih

/-- Half of the resample is one ratio, half another. -/
def halves {α : Type} (k : ℕ) (x y : α) : List α := List.replicate k x ++ List.replicate k y

lemma map_halves {α β : Type} (f : α → β) (k : ℕ) (x y : α) : (halves k x y).map f = halves k (f x) (f y) := by
  simp [halves]

lemma drawMedian_scripted {groups : List (List ℝ)} {group : List ℝ} {j ia ib k : ℕ} {a b : ℝ}
    (hgroup : groups[j]? = some group) (hlen : group.length = k + k) (ha : group[ia]? = some a)
    (hb : group[ib]? = some b) {m : ℝ} (hm : median realArithmetic (halves k a b) = .ok m) (rest : List ℕ) :
    drawMedian realArithmetic scripted groups ((j :: halves k ia ib) ++ rest) = .ok (m, rest) := by
  have hresample : collectN (drawOne scripted group) group.length (halves k ia ib ++ rest) =
      .ok (halves k a b, rest) := by
    have hcodes : List.Forall₂ (fun code value => ∀ rest, drawOne scripted group (code ++ rest) = .ok (value, rest))
        (halves k [ia] [ib]) (halves k a b) := by
      apply List.rel_append
      · exact forall₂_replicate (drawOne_scripted ha) k
      · exact forall₂_replicate (drawOne_scripted hb) k
    have hflat : (halves k [ia] [ib]).flatten = halves k ia ib := by
      simp [halves]
    have hrun := collectN_scripted hcodes rest
    rw [hflat] at hrun
    rw [hlen, ← hrun]
    congr 1
    simp [halves]
  unfold drawMedian
  rw [List.cons_append, bind_eq_ok]
  exact ⟨_, drawOne_scripted hgroup _, bind_eq_ok.mpr ⟨_, hresample, bind_eq_ok.mpr ⟨m, hm, rfl⟩⟩⟩

lemma geomeanOf_replicate {n : ℕ} (hn : 0 < n) {m : ℝ} (hm : 0 < m) :
    geomeanOf realArithmetic (List.replicate n m) = .ok m := by
  have hmean : mean (List.replicate n (Real.log m)) = Real.log m := by
    unfold mean
    have hsum : ∀ k : ℕ, (List.replicate k (Real.log m)).foldr (fun x sum => x + sum) 0 = k * Real.log m := by
      intro k
      induction k with
      | zero => simp
      | succ k ih =>
        rw [List.replicate_succ, List.foldr_cons, ih]
        push_cast
        ring
    have hne : (n : ℝ) ≠ 0 := by
      simp only [ne_eq, Nat.cast_eq_zero]
      omega
    rw [hsum, List.length_replicate]
    field_simp
  rw [geomeanOf_real (by simp; omega) (fun x hx => by rw [List.eq_of_mem_replicate hx]; exact hm),
    List.map_replicate, hmean, Real.exp_log hm]

lemma bounds_scripted {groups : List (List ℝ)} {group : List ℝ} {j ia ib k : ℕ} {a b : ℝ}
    (hgroup : groups[j]? = some group) (hlen : group.length = k + k) (ha : group[ia]? = some a)
    (hb : group[ib]? = some b) {m : ℝ} (hm : median realArithmetic (halves k a b) = .ok m) (hpos : 0 < m)
    {level g low high : ℝ}
    (hinterval : hierarchicalGeomeanCi realArithmetic scripted groups 1 level
      (List.replicate groups.length (j :: halves k ia ib)).flatten = .ok (g, low, high)) : low = m ∧ high = m := by
  have hcount : 0 < groups.length := by
    have := (List.getElem?_eq_some_iff.mp hgroup).1
    omega
  have hmedians : collectN (drawMedian realArithmetic scripted groups) groups.length
      (List.replicate groups.length (j :: halves k ia ib)).flatten = .ok (List.replicate groups.length m, []) := by
    have hrun := collectN_scripted
      (forall₂_replicate (drawMedian_scripted hgroup hlen ha hb hm) groups.length) []
    rwa [List.append_nil, List.length_replicate] at hrun
  have hreplicate : replicate realArithmetic scripted groups
      (List.replicate groups.length (j :: halves k ia ib)).flatten = .ok (m, []) := by
    unfold replicate
    exact bind_eq_ok.mpr ⟨_, hmedians, bind_eq_ok.mpr ⟨m, geomeanOf_replicate hcount hpos, rfl⟩⟩
  have hboots : collectN (replicate realArithmetic scripted groups) 1
      (List.replicate groups.length (j :: halves k ia ib)).flatten = .ok ([m], []) := by
    unfold collectN
    rw [hreplicate]
    rfl
  unfold hierarchicalGeomeanCi at hinterval
  split at hinterval
  · cases hinterval
  · obtain ⟨medians, -, hinterval⟩ := bind_eq_ok.mp hinterval
    obtain ⟨point, -, hinterval⟩ := bind_eq_ok.mp hinterval
    obtain ⟨boots, hboots', hinterval⟩ := bind_eq_ok.mp hinterval
    obtain rfl := Except.ok.inj (hboots.symm.trans hboots')
    obtain ⟨⟨low', high'⟩, hbounds, hinterval⟩ := bind_eq_ok.mp hinterval
    obtain ⟨-, hlow, hhigh⟩ : point = g ∧ low' = low ∧ high' = high := by
      simpa using Except.ok.inj hinterval
    have hmem : ∀ {i : ℕ} {x : ℝ}, item (sorted realArithmetic [m]) i = .ok x → x = m := by
      intro i x hx
      unfold item at hx
      split at hx
      · next y hy =>
        obtain rfl := Except.ok.inj hx
        exact List.mem_singleton.mp (mem_sorted.mp (List.mem_of_getElem? hy))
      · cases hx
    unfold percentileBounds at hbounds
    obtain ⟨half, -, hbounds⟩ := bind_eq_ok.mp hbounds
    obtain ⟨x, hx, hbounds⟩ := bind_eq_ok.mp hbounds
    obtain ⟨y, hy, hbounds⟩ := bind_eq_ok.mp hbounds
    obtain ⟨rfl, rfl⟩ := Prod.mk.inj (Except.ok.inj hbounds)
    rw [← hlow, ← hhigh]
    exact ⟨hmem hx, hmem hy⟩

lemma median_halves {k : ℕ} (hk : 0 < k) {a b : ℝ} (hab : a < b) (ha : 0 < a) :
    median realArithmetic (halves k a b) = .ok ((a + b) / 2) ∧
      median realArithmetic (halves k a⁻¹ b⁻¹) = .ok ((b⁻¹ + a⁻¹) / 2) := by
  have hpos : ∀ x ∈ halves k a b, 0 < x := by
    intro x hx
    rcases List.mem_append.mp hx with hx | hx
    · rw [List.eq_of_mem_replicate hx]
      exact ha
    · rw [List.eq_of_mem_replicate hx]
      exact ha.trans hab
  have hlen : (halves k a b).length = k + k := by
    simp [halves]
  have hlen' : ((halves k a b).map (fun x => x⁻¹)).length = k + k := by
    rw [List.length_map, hlen]
  have hsorted : sorted realArithmetic (halves k a b) = halves k a b := by
    rw [sorted_real]
    apply List.Pairwise.insertionSort_eq
    unfold halves
    rw [List.pairwise_append]
    refine ⟨List.pairwise_replicate_of_refl, List.pairwise_replicate_of_refl, ?_⟩
    intro x hx y hy
    rw [List.eq_of_mem_replicate hx, List.eq_of_mem_replicate hy]
    exact hab.le
  have hlower : ∀ (i : ℕ) (hi : i < (sorted realArithmetic (halves k a b)).length), i = k - 1 →
      (sorted realArithmetic (halves k a b))[i] = a := by
    rintro i hi rfl
    have hget : (sorted realArithmetic (halves k a b))[k - 1]? = some a := by
      rw [hsorted, halves, List.getElem?_append_left (by rw [List.length_replicate]; omega)]
      exact List.getElem?_replicate_of_lt (by omega)
    exact (List.getElem?_eq_some_iff.mp hget).2
  have hupper : ∀ (i : ℕ) (hi : i < (sorted realArithmetic (halves k a b)).length), i = k →
      (sorted realArithmetic (halves k a b))[i] = b := by
    rintro i hi rfl
    have hget : (sorted realArithmetic (halves i a b))[i]? = some b := by
      rw [hsorted, halves, List.getElem?_append_right (by rw [List.length_replicate]), List.length_replicate]
      exact List.getElem?_replicate_of_lt (by omega)
    exact (List.getElem?_eq_some_iff.mp hget).2
  constructor
  · rw [median_even (by rw [hlen]; omega) (by rw [length_sorted, hlen]; omega)
      (by rw [length_sorted, hlen]; omega), hlower _ _ (by rw [hlen]; omega), hupper _ _ (by rw [hlen]; omega)]
  · rw [← map_halves (fun x => x⁻¹), median_even (by rw [hlen']; omega) (by rw [length_sorted, hlen']; omega)
      (by rw [length_sorted, hlen']; omega)]
    have hk' : k < (sorted realArithmetic (halves k a b)).length := by
      rw [length_sorted, hlen]
      omega
    have hk'' : k - 1 < (sorted realArithmetic (halves k a b)).length := by
      rw [length_sorted, hlen]
      omega
    rw [sorted_inv_getElem hpos (by rw [hlen, hlen']; omega) _ hk',
      sorted_inv_getElem hpos (by rw [hlen, hlen']; omega) _ hk'', hupper k hk' rfl, hlower _ hk'' rfl]

/-- The draws that take half of each resample at one ratio of an even group and half at a larger one. -/
lemma not_mirrors_halves {groups : List (List ℝ)} {group : List ℝ} {j ia ib k : ℕ} {a b : ℝ}
    (hj : groups[j]? = some group) (hlen : group.length = k + k) (hk : 0 < k) (hia : group[ia]? = some a)
    (hib : group[ib]? = some b) (ha : 0 < a) (hab : a < b) :
    ¬Mirrors scripted (List.replicate groups.length (j :: halves k ia ib)).flatten 1 groups := by
  have hb : 0 < b := ha.trans hab
  obtain ⟨hm, hm'⟩ := median_halves hk hab ha
  intro hmirrors
  obtain ⟨g, low, high, hinterval, hinterval'⟩ := hmirrors.interval 0.95
  have hj' : (swapped groups)[j]? = some (group.map (fun x => x⁻¹)) := by
    unfold swapped
    rw [List.getElem?_map, hj]
    rfl
  have hscript : (swapped groups).length = groups.length := List.length_map _
  rw [← hscript] at hinterval'
  obtain ⟨-, hhigh⟩ := bounds_scripted hj hlen hia hib hm (by positivity) hinterval
  obtain ⟨hlow', -⟩ := bounds_scripted hj' (by rw [List.length_map]; exact hlen)
    (by rw [List.getElem?_map, hia]; rfl) (by rw [List.getElem?_map, hib]; rfl) hm' (by positivity) hinterval'
  rw [hhigh] at hlow'
  have hsquare : (b - a) ^ 2 = 0 := by
    field_simp at hlow'
    nlinarith
  have hzero : b - a = 0 := by simpa using hsquare
  linarith

lemma not_mirrors {groups : List (List ℝ)} (hgroups : Ratios groups) {group : List ℝ} (hgroup : group ∈ groups)
    (hbalanced : ¬Balanced group) : ∃ script, ¬Mirrors scripted script 1 groups := by
  unfold Balanced at hbalanced
  push Not at hbalanced
  obtain ⟨heven, x, hx, y, hy, hne⟩ := hbalanced
  obtain ⟨a, ha, b, hb, hab⟩ : ∃ a ∈ group, ∃ b ∈ group, a < b := by
    rcases lt_or_gt_of_ne hne with hlt | hlt
    · exact ⟨x, hx, y, hy, hlt⟩
    · exact ⟨y, hy, x, hx, hlt⟩
  obtain ⟨j, hj⟩ := List.mem_iff_getElem?.mp hgroup
  obtain ⟨ia, hia⟩ := List.mem_iff_getElem?.mp ha
  obtain ⟨ib, hib⟩ := List.mem_iff_getElem?.mp hb
  have hlen : group.length = group.length / 2 + group.length / 2 := by omega
  have hk : 0 < group.length / 2 := by
    have hpos := List.length_pos_iff.mpr (hgroups.groups_nonempty group hgroup)
    omega
  exact ⟨_, not_mirrors_halves hj hlen hk hia hib (hgroups.positive group hgroup a ha) hab⟩

/-- The swap mirrors the interval and the verdict under all draws exactly when every group has an odd number of
ratios or a single one throughout. -/
theorem mirrors_iff_balanced (groups : List (List ℝ)) (hne : groups ≠ [])
    (hgroups : ∀ group ∈ groups, group ≠ [] ∧ ∀ x ∈ group, 0 < x) :
    (∀ (ρ : Type) (rng : Rng ρ) (s : ρ) (bootstrap : ℕ), 1 ≤ bootstrap → Mirrors rng s bootstrap groups) ↔
      ∀ group ∈ groups, Balanced group := by
  have hratios : Ratios groups :=
    ⟨hne, fun group hgroup => (hgroups group hgroup).1, fun group hgroup => (hgroups group hgroup).2⟩
  constructor
  · intro hmirrors group hgroup
    by_contra hbalanced
    obtain ⟨script, hscript⟩ := not_mirrors hratios hgroup hbalanced
    exact hscript (hmirrors _ scripted script 1 le_rfl)
  · intro hbalanced ρ rng s bootstrap hbootstrap
    exact mirrors_of_balanced rng hratios hbalanced hbootstrap s

/-- Two ratios and one replicate that draws each once: the bounds are 3/2 and 3/2, after the swap 3/4 and 3/4. -/
theorem pair_does_not_mirror : Ratios [[1, 2]] ∧ ¬Mirrors scripted [0, 0, 1] 1 [[1, 2]] := by
  constructor
  · constructor
    · simp
    · simp
    · simp
  · have hpair : ([[1, 2]] : List (List ℝ))[0]? = some [1, 2] := rfl
    have hone : ([1, 2] : List ℝ)[0]? = some 1 := rfl
    have htwo : ([1, 2] : List ℝ)[1]? = some 2 := rfl
    exact not_mirrors_halves hpair rfl Nat.one_pos hone htwo one_pos one_lt_two

theorem triple_mirrors : Mirrors scripted [0, 0, 1, 2] 1 [[1, 2, 3]] := by
  apply (mirrors_iff_balanced [[1, 2, 3]] (by simp) (by simp)).mpr
  · intro group hgroup
    rw [List.mem_singleton.mp hgroup]
    exact .inl rfl
  · exact le_rfl

end SciForge.Bench
