import SciForge.Bench.Scaling

/-!
# The other bootstrap intervals

`bootstrap_ci`, `ratio_ci` and `geomean_ci`: how they lie between the values of the data, and how they move along with
its unit and with its inverse, whatever is drawn.
-/

namespace SciForge.Bench

variable {F ρ : Type}

/-- One replicate of `bootstrap_ci`. -/
def resampleStat (rng : Rng ρ) (samples : List F) (stat : List F → Except String F) (s : ρ) : Except String (F × ρ) := do
  let (resample, s) ← collectN (drawOne rng samples) samples.length s
  let value ← stat resample
  return (value, s)

def bootstrapCi (A : Arithmetic F) (rng : Rng ρ) (samples : List F) (stat : List F → Except String F) (bootstrap : ℕ)
    (level : F) (s : ρ) : Except String (F × F) :=
  if samples.isEmpty then .error "ValueError"
  else do
    let (boots, _) ← collectN (resampleStat rng samples stat) bootstrap s
    percentileBounds A (sorted A boots) level

/-- One replicate of `ratio_ci`. -/
def ratioReplicate (A : Arithmetic F) (rng : Rng ρ) (numerator denominator : List F) (s : ρ) :
    Except String (F × ρ) := do
  let (num, s) ← resampleStat rng numerator (median A) s
  let (den, s) ← resampleStat rng denominator (median A) s
  let ratio ← A.div num den
  return (ratio, s)

def ratioCi (A : Arithmetic F) (rng : Rng ρ) (numerator denominator : List F) (bootstrap : ℕ) (level : F) (s : ρ) :
    Except String (F × F × F) :=
  if numerator.isEmpty || denominator.isEmpty then .error "ValueError"
  else do
    let num ← median A numerator
    let den ← median A denominator
    let point ← A.div num den
    let (boots, _) ← collectN (ratioReplicate A rng numerator denominator) bootstrap s
    let (low, high) ← percentileBounds A (sorted A boots) level
    return (point, low, high)

/-- `geomean_of` in `geomean_ci`, on logarithms. -/
def expMean (A : Arithmetic F) (logs : List F) : Except String F := do
  let mean ← fmean A logs
  A.exp mean

def geomeanCi (A : Arithmetic F) (rng : Rng ρ) (pairedRatios : List F) (bootstrap : ℕ) (level : F) (s : ρ) :
    Except String (F × F × F) :=
  if pairedRatios.isEmpty then .error "ValueError"
  else do
    let logs ← pairedRatios.mapM A.log
    let point ← expMean A logs
    let (low, high) ← bootstrapCi A rng logs (expMean A) bootstrap level s
    return (point, low, high)

/-! ### Replicates -/

/-- The statistic of every list of values of the samples has the property. -/
def StatMeets (samples : List F) (stat : List F → Except String F) (P : F → Prop) : Prop :=
  ∀ resample : List F, resample ≠ [] → (∀ x ∈ resample, x ∈ samples) → ∃ value, stat resample = .ok value ∧ P value

lemma resampleStat_spec (rng : Rng ρ) {samples : List F} (hne : samples ≠ []) {stat : List F → Except String F}
    {P : F → Prop} (hstat : StatMeets samples stat P) (s : ρ) :
    ∃ value s', resampleStat rng samples stat s = .ok (value, s') ∧ P value := by
  obtain ⟨resample, s', hresample, hlen, hsub⟩ := collectN_spec (drawOne_spec rng hne) samples.length s
  have hresample_ne : resample ≠ [] := by
    rw [← List.length_pos_iff, hlen]
    exact List.length_pos_iff.mpr hne
  obtain ⟨value, hvalue, hp⟩ := hstat resample hresample_ne hsub
  exact ⟨value, s', bind_eq_ok.mpr ⟨_, hresample, bind_eq_ok.mpr ⟨value, hvalue, rfl⟩⟩, hp⟩

/-- Samples moved by `f`, where the statistic moves by `g`, move every replicate by `g`. -/
lemma resampleStat_map (rng : Rng ρ) {samples : List F} (hne : samples ≠ []) {stat : List F → Except String F}
    {f g : F → F} (hstat : ∀ resample : List F, resample ≠ [] → (∀ x ∈ resample, x ∈ samples) →
      stat (resample.map f) = (stat resample).map g) (s : ρ) :
    resampleStat rng (samples.map f) stat s = (resampleStat rng samples stat s).map (fun p => (g p.1, p.2)) := by
  obtain ⟨resample, s', hresample, hlen, hsub⟩ := collectN_spec (drawOne_spec rng hne) samples.length s
  have hresample_ne : resample ≠ [] := by
    rw [← List.length_pos_iff, hlen]
    exact List.length_pos_iff.mpr hne
  have hmapped : collectN (drawOne rng (samples.map f)) samples.length s = .ok (resample.map f, s') := by
    rw [collectN_map (drawOne_map f rng samples), hresample]
    rfl
  unfold resampleStat
  rw [List.length_map, hmapped, hresample, ok_bind, ok_bind]
  change (do
    let value ← stat (resample.map f)
    return (value, s')) = Except.map _ (do
    let value ← stat resample
    return (value, s'))
  rw [hstat resample hresample_ne hsub]
  cases stat resample with
  | error e => rfl
  | ok value => rfl

variable {lo hi c d : ℝ}

lemma boots_ne {bootstrap : ℕ} (hbootstrap : 1 ≤ bootstrap) {boots : List ℝ} (hlen : boots.length = bootstrap) :
    boots ≠ [] := by
  rw [← List.length_pos_iff, hlen]
  exact hbootstrap

/-! ### Ratios of medians -/

lemma div_within {a b x y : ℝ} (ha : 0 ≤ a) (hx : x ∈ Set.Icc a b) (hc : 0 < c) (hy : y ∈ Set.Icc c d) :
    realArithmetic.div x y = .ok (x / y) ∧ x / y ∈ Set.Icc (a / d) (b / c) := by
  have hpos : 0 < y := hc.trans_le hy.1
  refine ⟨div_real hpos.ne', div_le_div₀ (ha.trans hx.1) hx.1 hpos hy.2, ?_⟩
  exact div_le_div₀ ((ha.trans hx.1).trans hx.2) hx.2 hc hy.1

lemma median_meets {samples : List ℝ} (hwithin : ∀ x ∈ samples, x ∈ Set.Icc lo hi) :
    StatMeets samples (median realArithmetic) (· ∈ Set.Icc lo hi) :=
  fun _ hne hsub => median_within hne (fun x hx => hwithin x (hsub x hx))

lemma div_scaled (hc : 0 < c) (hd : 0 < d) {x y : ℝ} (hy : 0 < y) :
    realArithmetic.div (c * x) (d * y) = (realArithmetic.div x y).map (c / d * ·) := by
  rw [div_real (mul_pos hd hy).ne', div_real hy.ne']
  refine congrArg Except.ok ?_
  field_simp

/-- The samples of `ratio_ci` and their extremes: numerators that are not negative over positive denominators. -/
structure Sides (numerator denominator : List ℝ) (a b lo hi : ℝ) : Prop where
  top : ∀ x ∈ numerator, x ∈ Set.Icc a b
  bottom : ∀ y ∈ denominator, y ∈ Set.Icc lo hi
  top_ne : numerator ≠ []
  bottom_ne : denominator ≠ []
  nonneg : 0 ≤ a
  positive : 0 < lo

variable {numerator denominator : List ℝ} {a b : ℝ}

lemma ratioReplicate_within (rng : Rng ρ) (h : Sides numerator denominator a b lo hi) (s : ρ) :
    ∃ ratio s', ratioReplicate realArithmetic rng numerator denominator s = .ok (ratio, s') ∧
      ratio ∈ Set.Icc (a / hi) (b / lo) := by
  obtain ⟨num, s₁, hnum, hnum_within⟩ := resampleStat_spec rng h.top_ne (median_meets h.top) s
  obtain ⟨den, s₂, hden, hden_within⟩ := resampleStat_spec rng h.bottom_ne (median_meets h.bottom) s₁
  obtain ⟨hdiv, hratio⟩ := div_within h.nonneg hnum_within h.positive hden_within
  exact ⟨num / den, s₂, bind_eq_ok.mpr ⟨_, hnum, bind_eq_ok.mpr ⟨_, hden, bind_eq_ok.mpr ⟨_, hdiv, rfl⟩⟩⟩, hratio⟩

lemma ratioReplicate_scaled (rng : Rng ρ) (h : Sides numerator denominator a b lo hi) (hc : 0 < c) (hd : 0 < d) (s : ρ) :
    ratioReplicate realArithmetic rng (numerator.map (c * ·)) (denominator.map (d * ·)) s =
      (ratioReplicate realArithmetic rng numerator denominator s).map (fun p => (c / d * p.1, p.2)) := by
  obtain ⟨num, s₁, hnum, -⟩ := resampleStat_spec rng h.top_ne (median_meets h.top) s
  obtain ⟨den, s₂, hden, hden_within⟩ := resampleStat_spec rng h.bottom_ne (median_meets h.bottom) s₁
  have hpos : 0 < den := h.positive.trans_le hden_within.1
  have hnum' : resampleStat rng (numerator.map (c * ·)) (median realArithmetic) s = .ok (c * num, s₁) := by
    rw [resampleStat_map rng h.top_ne (fun _ hne _ => median_scaled hc hne), hnum]
    rfl
  have hden' : resampleStat rng (denominator.map (d * ·)) (median realArithmetic) s₁ = .ok (d * den, s₂) := by
    rw [resampleStat_map rng h.bottom_ne (fun _ hne _ => median_scaled hd hne), hden]
    rfl
  unfold ratioReplicate
  rw [hnum', hnum, ok_bind, ok_bind]
  dsimp only
  rw [hden', hden, ok_bind, ok_bind]
  dsimp only
  rw [div_scaled hc hd hpos, div_real hpos.ne']
  rfl

lemma ratioCi_ok {rng : Rng ρ} (hnumerator : numerator ≠ []) (hdenominator : denominator ≠ []) {bootstrap : ℕ}
    {level num den point low high : ℝ} {boots : List ℝ} {s s' : ρ} (hnum : median realArithmetic numerator = .ok num)
    (hden : median realArithmetic denominator = .ok den) (hpoint : realArithmetic.div num den = .ok point)
    (hboots : collectN (ratioReplicate realArithmetic rng numerator denominator) bootstrap s = .ok (boots, s'))
    (hbounds : percentileBounds realArithmetic (sorted realArithmetic boots) level = .ok (low, high)) :
    ratioCi realArithmetic rng numerator denominator bootstrap level s = .ok (point, low, high) := by
  have hguard : (numerator.isEmpty || denominator.isEmpty) = false := by
    rw [Bool.or_eq_false_iff, List.isEmpty_eq_false_iff, List.isEmpty_eq_false_iff]
    exact ⟨hnumerator, hdenominator⟩
  unfold ratioCi
  rw [hguard, if_neg Bool.false_ne_true]
  refine bind_eq_ok.mpr ⟨num, hnum, bind_eq_ok.mpr ⟨den, hden, bind_eq_ok.mpr ⟨point, hpoint, ?_⟩⟩⟩
  exact bind_eq_ok.mpr ⟨_, hboots, bind_eq_ok.mpr ⟨_, hbounds, rfl⟩⟩

/-- The estimate and both bounds of `ratio_ci` lie between the smallest numerator over the largest denominator and the
largest over the smallest, and are in the unit of the numerators over that of the denominators. -/
theorem ratioCi_within (rng : Rng ρ) (hnumerator : numerator ≠ []) (hdenominator : denominator ≠ [])
    (hnonneg : ∀ x ∈ numerator, 0 ≤ x) (hpositive : ∀ y ∈ denominator, 0 < y) {bootstrap : ℕ}
    (hbootstrap : 1 ≤ bootstrap) (level : ℝ) (s : ρ) :
    ∃ ratio low high a b lo hi,
      ratioCi realArithmetic rng numerator denominator bootstrap level s = .ok (ratio, low, high) ∧
      IsLeast {x | x ∈ numerator} a ∧ IsGreatest {x | x ∈ numerator} b ∧ IsLeast {y | y ∈ denominator} lo ∧
      IsGreatest {y | y ∈ denominator} hi ∧ (a / hi ≤ ratio ∧ ratio ≤ b / lo) ∧ (a / hi ≤ low ∧ low ≤ b / lo) ∧
      (a / hi ≤ high ∧ high ≤ b / lo) ∧
      ∀ c d, 0 < c → 0 < d →
        ratioCi realArithmetic rng (numerator.map (c * ·)) (denominator.map (d * ·)) bootstrap level s =
          .ok (c / d * ratio, c / d * low, c / d * high) := by
  obtain ⟨a, ha⟩ := Sample.exists_isLeast hnumerator
  obtain ⟨b, hb⟩ := Sample.exists_isGreatest hnumerator
  obtain ⟨lo, hlo⟩ := Sample.exists_isLeast hdenominator
  obtain ⟨hi, hhi⟩ := Sample.exists_isGreatest hdenominator
  have hsides : Sides numerator denominator a b lo hi :=
    ⟨fun x hx => ⟨ha.2 hx, hb.2 hx⟩, fun y hy => ⟨hlo.2 hy, hhi.2 hy⟩, hnumerator, hdenominator, hnonneg a ha.1,
      hpositive lo hlo.1⟩
  obtain ⟨num, hnum, hnum_within⟩ := median_within hnumerator hsides.top
  obtain ⟨den, hden, hden_within⟩ := median_within hdenominator hsides.bottom
  obtain ⟨hdiv, hpoint⟩ := div_within hsides.nonneg hnum_within hsides.positive hden_within
  obtain ⟨boots, s', hboots, hlen, hboots_within⟩ := collectN_spec (ratioReplicate_within rng hsides) bootstrap s
  obtain ⟨low, high, hbounds, hlow, hhigh, hscaled⟩ :=
    percentileBounds_within (boots_ne hbootstrap hlen) hboots_within level
  refine ⟨num / den, low, high, a, b, lo, hi, ratioCi_ok hnumerator hdenominator hnum hden hdiv hboots hbounds, ha, hb,
    hlo, hhi, hpoint, hlow, hhigh, fun c d hc hd => ?_⟩
  have hpos : 0 < den := hsides.positive.trans_le hden_within.1
  have hnum' : median realArithmetic (numerator.map (c * ·)) = .ok (c * num) := by
    rw [median_scaled hc hnumerator, hnum]
    rfl
  have hden' : median realArithmetic (denominator.map (d * ·)) = .ok (d * den) := by
    rw [median_scaled hd hdenominator, hden]
    rfl
  have hdiv' : realArithmetic.div (c * num) (d * den) = .ok (c / d * (num / den)) := by
    rw [div_scaled hc hd hpos, hdiv]
    rfl
  have hboots' : collectN (ratioReplicate realArithmetic rng (numerator.map (c * ·)) (denominator.map (d * ·)))
      bootstrap s = .ok (boots.map (c / d * ·), s') := by
    rw [collectN_map (ratioReplicate_scaled rng hsides hc hd), hboots]
    rfl
  exact ratioCi_ok (by simpa using hnumerator) (by simpa using hdenominator) hnum' hden' hdiv' hboots'
    (hscaled (c / d) (div_pos hc hd))

theorem ratioCi_within_scripted : ∃ ratio low high : ℝ,
    ratioCi realArithmetic scripted [1, 3] [2] 1 0.95 [0, 1, 0] = .ok (ratio, low, high) ∧
      ratioCi realArithmetic scripted ([1, 3].map (1000 * ·)) ([2].map (10 * ·)) 1 0.95 [0, 1, 0] =
        .ok (1000 / 10 * ratio, 1000 / 10 * low, 1000 / 10 * high) := by
  obtain ⟨ratio, low, high, _, _, _, _, hvalue, -, -, -, -, -, -, -, hscaled⟩ :=
    ratioCi_within scripted (List.cons_ne_nil 1 [3]) (List.cons_ne_nil 2 []) (by simp) (by simp) le_rfl 0.95 [0, 1, 0]
  exact ⟨ratio, low, high, hvalue, hscaled 1000 10 (by norm_num) (by norm_num)⟩

/-! ### Geometric means of pairs -/

lemma bootstrapCi_ok {rng : Rng ρ} {samples : List ℝ} (hne : samples ≠ []) {stat : List ℝ → Except String ℝ}
    {bootstrap : ℕ} {level : ℝ} {boots : List ℝ} {bounds : ℝ × ℝ} {s s' : ρ}
    (hboots : collectN (resampleStat rng samples stat) bootstrap s = .ok (boots, s'))
    (hbounds : percentileBounds realArithmetic (sorted realArithmetic boots) level = .ok bounds) :
    bootstrapCi realArithmetic rng samples stat bootstrap level s = .ok bounds := by
  unfold bootstrapCi
  rw [List.isEmpty_eq_false_iff.mpr hne, if_neg Bool.false_ne_true]
  exact bind_eq_ok.mpr ⟨_, hboots, hbounds⟩

lemma expMean_real {logs : List ℝ} (hne : logs ≠ []) : expMean realArithmetic logs = .ok (Real.exp (mean logs)) :=
  bind_eq_ok.mpr ⟨_, fmean_real hne, rfl⟩

lemma expMean_meets (hlo : 0 < lo) (hhi : 0 < hi) {logs : List ℝ}
    (hwithin : ∀ x ∈ logs, x ∈ Set.Icc (Real.log lo) (Real.log hi)) :
    StatMeets logs (expMean realArithmetic) (· ∈ Set.Icc lo hi) := by
  intro resample hne hsub
  obtain ⟨hlow, hhigh⟩ := mean_within hne (fun x hx => hwithin x (hsub x hx))
  refine ⟨_, expMean_real hne, (Real.exp_log hlo).symm.trans_le (Real.exp_le_exp.mpr hlow), ?_⟩
  exact (Real.exp_le_exp.mpr hhigh).trans_eq (Real.exp_log hhi)

lemma expMean_add (hc : 0 < c) {logs : List ℝ} (hne : logs ≠ []) :
    expMean realArithmetic (logs.map (Real.log c + ·)) = (expMean realArithmetic logs).map (c * ·) := by
  rw [expMean_real hne, expMean_real (by simpa using hne), mean_add hne, Real.exp_add, Real.exp_log hc]
  rfl

lemma mean_neg (xs : List ℝ) : mean (xs.map (fun x => -x)) = -mean xs := by
  have hsum : (xs.map (fun x => -x)).sum = -xs.sum := by
    induction xs with
    | nil => simp
    | cons x xs ih => rw [List.map_cons, List.sum_cons, List.sum_cons, ih, neg_add]
  rw [mean_eq, mean_eq, hsum, List.length_map, neg_div]

lemma expMean_neg {logs : List ℝ} (hne : logs ≠ []) :
    expMean realArithmetic (logs.map (fun x => -x)) = (expMean realArithmetic logs).map (fun g => g⁻¹) := by
  rw [expMean_real hne, expMean_real (by simpa using hne), mean_neg, Real.exp_neg]
  rfl

lemma geomeanCi_ok {rng : Rng ρ} {ratios logs : List ℝ} (hne : ratios ≠ []) {bootstrap : ℕ} {level point low high : ℝ}
    {s : ρ} (hlogs : ratios.mapM realArithmetic.log = .ok logs) (hpoint : expMean realArithmetic logs = .ok point)
    (hbounds : bootstrapCi realArithmetic rng logs (expMean realArithmetic) bootstrap level s = .ok (low, high)) :
    geomeanCi realArithmetic rng ratios bootstrap level s = .ok (point, low, high) := by
  unfold geomeanCi
  rw [List.isEmpty_eq_false_iff.mpr hne, if_neg Bool.false_ne_true]
  exact bind_eq_ok.mpr ⟨logs, hlogs, bind_eq_ok.mpr ⟨point, hpoint, bind_eq_ok.mpr ⟨_, hbounds, rfl⟩⟩⟩

/-- The estimate and both bounds of `geomean_ci` lie between the smallest and the largest ratio, are in the unit of the
ratios, and turn into their inverses, the bounds exchanged, when every ratio does. -/
theorem geomeanCi_within (rng : Rng ρ) {ratios : List ℝ} (hne : ratios ≠ []) (hpos : ∀ x ∈ ratios, 0 < x) {bootstrap : ℕ}
    (hbootstrap : 1 ≤ bootstrap) (level : ℝ) (s : ρ) :
    ∃ g low high lo hi, geomeanCi realArithmetic rng ratios bootstrap level s = .ok (g, low, high) ∧
      IsLeast {x | x ∈ ratios} lo ∧ IsGreatest {x | x ∈ ratios} hi ∧
      (lo ≤ g ∧ g ≤ hi) ∧ (lo ≤ low ∧ low ≤ hi) ∧ (lo ≤ high ∧ high ≤ hi) ∧
      (∀ c, 0 < c → geomeanCi realArithmetic rng (ratios.map (c * ·)) bootstrap level s =
        .ok (c * g, c * low, c * high)) ∧
      geomeanCi realArithmetic rng (ratios.map (fun x => x⁻¹)) bootstrap level s = .ok (g⁻¹, high⁻¹, low⁻¹) := by
  obtain ⟨lo, hlo⟩ := Sample.exists_isLeast hne
  obtain ⟨hi, hhi⟩ := Sample.exists_isGreatest hne
  have hlo_pos : 0 < lo := hpos lo hlo.1
  have hhi_pos : 0 < hi := hpos hi hhi.1
  have hlogs_ne : ratios.map Real.log ≠ [] := by simpa using hne
  have hlogs_within : ∀ y ∈ ratios.map Real.log, y ∈ Set.Icc (Real.log lo) (Real.log hi) := by
    intro y hy
    obtain ⟨x, hx, rfl⟩ := List.mem_map.mp hy
    exact ⟨Real.log_le_log hlo_pos (hlo.2 hx), Real.log_le_log (hpos x hx) (hhi.2 hx)⟩
  have hmeets := expMean_meets hlo_pos hhi_pos hlogs_within
  obtain ⟨g, hg, hg_within⟩ := hmeets _ hlogs_ne (fun _ hx => hx)
  obtain ⟨boots, s', hboots, hlen, hboots_within⟩ :=
    collectN_spec (resampleStat_spec rng hlogs_ne hmeets) bootstrap s
  have hboots_ne := boots_ne hbootstrap hlen
  have hboots_pos : ∀ x ∈ boots, 0 < x := fun x hx => hlo_pos.trans_le (hboots_within x hx).1
  obtain ⟨low, high, hbounds, hlow, hhigh, hscaled⟩ := percentileBounds_within hboots_ne hboots_within level
  obtain ⟨low', high', hbounds', hinv, -, -, -⟩ := percentileBounds_inv hboots_ne hboots_pos level
  obtain ⟨rfl, rfl⟩ := Prod.mk.inj (Except.ok.inj (hbounds.symm.trans hbounds'))
  refine ⟨g, low, high, lo, hi, geomeanCi_ok hne (mapM_log hpos) hg (bootstrapCi_ok hlogs_ne hboots hbounds), hlo, hhi,
    hg_within, hlow, hhigh, fun c hc => ?_, ?_⟩
  · have hpos' : ∀ y ∈ ratios.map (c * ·), 0 < y := by
      intro y hy
      obtain ⟨x, hx, rfl⟩ := List.mem_map.mp hy
      exact mul_pos hc (hpos x hx)
    have hlogs : (ratios.map (c * ·)).map Real.log = (ratios.map Real.log).map (Real.log c + ·) := by
      rw [List.map_map, List.map_map]
      exact List.map_congr_left (fun x hx => Real.log_mul hc.ne' (hpos x hx).ne')
    have hg' : expMean realArithmetic ((ratios.map Real.log).map (Real.log c + ·)) = .ok (c * g) := by
      rw [expMean_add hc hlogs_ne, hg]
      rfl
    have hboots' : collectN (resampleStat rng ((ratios.map Real.log).map (Real.log c + ·)) (expMean realArithmetic))
        bootstrap s = .ok (boots.map (c * ·), s') := by
      rw [collectN_map (resampleStat_map rng hlogs_ne (fun _ hne _ => expMean_add hc hne)), hboots]
      rfl
    rw [← hlogs] at hg' hboots'
    exact geomeanCi_ok (by simpa using hne) (mapM_log hpos') hg'
      (bootstrapCi_ok (by simpa using hne) hboots' (hscaled c hc))
  · have hpos' : ∀ y ∈ ratios.map (fun x => x⁻¹), 0 < y := by
      intro y hy
      obtain ⟨x, hx, rfl⟩ := List.mem_map.mp hy
      exact inv_pos.mpr (hpos x hx)
    have hlogs : (ratios.map (fun x => x⁻¹)).map Real.log = (ratios.map Real.log).map (fun x => -x) := by
      rw [List.map_map, List.map_map]
      exact List.map_congr_left (fun x _ => Real.log_inv x)
    have hg' : expMean realArithmetic ((ratios.map Real.log).map (fun x => -x)) = .ok g⁻¹ := by
      rw [expMean_neg hlogs_ne, hg]
      rfl
    have hboots' : collectN (resampleStat rng ((ratios.map Real.log).map (fun x => -x)) (expMean realArithmetic))
        bootstrap s = .ok (boots.map (fun x => x⁻¹), s') := by
      rw [collectN_map (resampleStat_map rng hlogs_ne (fun _ hne _ => expMean_neg hne)), hboots]
      rfl
    rw [← hlogs] at hg' hboots'
    exact geomeanCi_ok (by simpa using hne) (mapM_log hpos') hg' (bootstrapCi_ok (by simpa using hne) hboots' hinv)

theorem geomeanCi_within_scripted : ∃ g low high : ℝ,
    geomeanCi realArithmetic scripted [1, 2] 1 0.95 [0, 1] = .ok (g, low, high) ∧
      geomeanCi realArithmetic scripted ([1, 2].map (fun x => x⁻¹)) 1 0.95 [0, 1] = .ok (g⁻¹, high⁻¹, low⁻¹) := by
  have hpos : ∀ x ∈ ([1, 2] : List ℝ), 0 < x := by simp
  obtain ⟨g, low, high, _, _, hvalue, -, -, -, -, -, -, hinverse⟩ :=
    geomeanCi_within scripted (by simp) hpos le_rfl 0.95 [0, 1]
  exact ⟨g, low, high, hvalue, hinverse⟩

end SciForge.Bench
