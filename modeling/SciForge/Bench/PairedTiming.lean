import SciForge.Bench.Runner
import SciForge.Bench.Scaling

/-!
# Ratios out of clock readings

The paired collector on `calibrate` and `batch_time`, whose only source of numbers is a clock that never goes
back: when the ratios exist, when they are positive, and that the verdict over positive ratios never takes a
logarithm that does not exist.
-/

namespace SciForge.Bench

variable {V ρ : Type}

/-- The timing of the collector: two readings for a calibration at the default target, two for a batch. -/
noncomputable def runnerTiming (readings : ℕ → ℝ) (gcEnabled : V → Bool) (gcSwitch : Bool → V → V) :
    Timing (V × ℕ) ℝ where
  calibrate fn := calibrate readings fn (5 / 1000)
  batchTime fn n := batchTime readings fn n
  gcEnabled w := gcEnabled w.1
  gcSwitch b w := (gcSwitch b w.1, w.2)

/-- The clock moves during both batches of round `i`: four readings of calibration, then four a round. -/
def Moves (readings : ℕ → ℝ) (i : ℕ) : Prop :=
  readings (4 * i + 4) < readings (4 * i + 5) ∧ readings (4 * i + 6) < readings (4 * i + 7)

/-! ### Rounds -/

/-- The first readings of the subject's and of the reference's batch in round `i`. -/
def subjectRead (i : ℕ) : ℕ := if i % 2 = 0 then 4 * i + 4 else 4 * i + 6

def referenceRead (i : ℕ) : ℕ := if i % 2 = 0 then 4 * i + 6 else 4 * i + 4

noncomputable def elapsed (readings : ℕ → ℝ) (k : ℕ) : ℝ := readings (k + 1) - readings k

section

variable (readings : ℕ → ℝ) (gcEnabled : V → Bool) (gcSwitch : Bool → V → V) {subject reference : Prog V String Unit}
  {nSubject nReference : ℕ}

lemma moves_iff (i : ℕ) :
    Moves readings i ↔ 0 < elapsed readings (subjectRead i) ∧ 0 < elapsed readings (referenceRead i) := by
  unfold Moves elapsed subjectRead referenceRead
  split_ifs
  · rw [sub_pos, sub_pos]
  · rw [sub_pos, sub_pos, and_comm]

/-- The rounds from `i` on, in a world whose clock has been read for the calibrations and the rounds before. -/
noncomputable def roundsFrom (subject reference : Prog V String Unit) (nSubject nReference i rounds : ℕ) (v : V) :
    Except String (List ℝ × List ℝ × List ℝ) :=
  (collectRounds realArithmetic (runnerTiming readings gcEnabled gcSwitch) subject.lift reference.lift nSubject
    nReference i rounds (v, 4 * i + 4)).1

lemma runnerTiming_batchTime {fn : Prog V String Unit} (hfn : Terminates fn) {n : ℕ} (hn : 1 ≤ n) (v : V) (k : ℕ) :
    ∃ v', (runnerTiming readings gcEnabled gcSwitch).batchTime fn.lift n (v, k) =
      (.ok (elapsed readings k / n), (v', k + 2)) := batchTime_lift readings hfn hn v k

lemma runnerTiming_calibrate {fn : Prog V String Unit} (hfn : Terminates fn) (v : V) (k : ℕ) :
    ∃ n v', 1 ≤ n ∧ (runnerTiming readings gcEnabled gcSwitch).calibrate fn.lift (v, k) = (.ok n, (v', k + 2)) := by
  obtain ⟨v', h⟩ := calibrate_lift readings hfn (5 / 1000) v k
  exact ⟨_, v', by omega, h⟩

lemma roundsFrom_succ (hsubject : Terminates subject) (hreference : Terminates reference) (hs : 1 ≤ nSubject)
    (hr : 1 ≤ nReference) (i rounds : ℕ) (v : V) : ∃ v',
      roundsFrom readings gcEnabled gcSwitch subject reference nSubject nReference i (rounds + 1) v = (do
        let s := elapsed readings (subjectRead i) / nSubject
        let r := elapsed readings (referenceRead i) / nReference
        let ratio ← realArithmetic.div r s
        let rest ← roundsFrom readings gcEnabled gcSwitch subject reference nSubject nReference (i + 1) rounds v'
        return (s :: rest.1, r :: rest.2.1, ratio :: rest.2.2)) := by
  unfold roundsFrom subjectRead referenceRead
  rw [collectRounds]
  by_cases heven : i % 2 = 0
  · obtain ⟨v₁, h₁⟩ := runnerTiming_batchTime readings gcEnabled gcSwitch hsubject hs v (4 * i + 4)
    obtain ⟨v₂, h₂⟩ := runnerTiming_batchTime readings gcEnabled gcSwitch hreference hr v₁ (4 * i + 4 + 2)
    refine ⟨v₂, ?_⟩
    rw [if_pos heven, if_pos heven, if_pos heven, Prog.run_bind_ok h₁, Prog.run_bind_ok h₂]
    rw [Prog.run_pure_bind]
    exact (Prog.fst_bind _ _ _).trans (bind_congr fun ratio => Prog.fst_bind _ _ _)
  · obtain ⟨v₁, h₁⟩ := runnerTiming_batchTime readings gcEnabled gcSwitch hreference hr v (4 * i + 4)
    obtain ⟨v₂, h₂⟩ := runnerTiming_batchTime readings gcEnabled gcSwitch hsubject hs v₁ (4 * i + 4 + 2)
    refine ⟨v₂, ?_⟩
    rw [if_neg heven, if_neg heven, if_neg heven, Prog.run_bind_ok h₁, Prog.run_bind_ok h₂]
    rw [Prog.run_pure_bind]
    exact (Prog.fst_bind _ _ _).trans (bind_congr fun ratio => Prog.fst_bind _ _ _)

lemma moved_of_ratio {s r ratio : ℝ} {n m : ℕ} (hs : 0 ≤ s) (hn : (0 : ℝ) < n) (hm : (0 : ℝ) < m)
    (h : realArithmetic.div (r / m) (s / n) = .ok ratio) (hpos : 0 < ratio) : 0 < s ∧ 0 < r := by
  by_cases hzero : s / n = 0
  · have herror : realArithmetic.div (r / m) (s / n) = .error "ZeroDivisionError" := if_pos hzero
    rw [herror] at h
    cases h
  · rw [div_real hzero] at h
    cases h
    have hs' : 0 < s := hs.lt_of_ne (fun h => hzero (by rw [← h, zero_div]))
    have hr' : 0 < r / m := (div_pos_iff_of_pos_right (div_pos hs' hn)).mp hpos
    exact ⟨hs', (div_pos_iff_of_pos_right hm).mp hr'⟩

/-- What every round gives is positive exactly when the clock moves in both of its batches. -/
lemma roundsFrom_iff (hmono : Monotone readings) (hsubject : Terminates subject) (hreference : Terminates reference)
    (hs : 1 ≤ nSubject) (hr : 1 ≤ nReference) (i rounds : ℕ) (v : V) :
    (∃ subjectTimes referenceTimes ratios,
      roundsFrom readings gcEnabled gcSwitch subject reference nSubject nReference i rounds v =
        .ok (subjectTimes, referenceTimes, ratios) ∧ ratios.length = rounds ∧ ∀ x ∈ ratios, 0 < x) ↔
      ∀ j < rounds, Moves readings (i + j) := by
  have hn : (0 : ℝ) < nSubject := Nat.cast_pos.mpr hs
  have hm : (0 : ℝ) < nReference := Nat.cast_pos.mpr hr
  have hnonneg : ∀ k, 0 ≤ elapsed readings k := fun k => sub_nonneg.mpr (hmono (Nat.le_succ k))
  induction rounds generalizing i v with
  | zero =>
    refine iff_of_true ⟨[], [], [], rfl, rfl, fun _ h => nomatch h⟩ (fun j hj => ?_)
    omega
  | succ rounds ih =>
    obtain ⟨v', hround⟩ := roundsFrom_succ readings gcEnabled gcSwitch hsubject hreference hs hr i rounds v
    have hsplit : (∀ j < rounds + 1, Moves readings (i + j)) ↔
        Moves readings i ∧ ∀ j < rounds, Moves readings (i + 1 + j) := by
      rw [Nat.forall_lt_succ_left]
      simp only [Nat.add_zero, Nat.add_right_comm i 1, Nat.add_assoc]
    rw [hsplit, hround, moves_iff]
    constructor
    · rintro ⟨ss, rs, ratios, h, hlen, hpos⟩
      obtain ⟨ratio, hratio, h⟩ := bind_eq_ok.mp h
      obtain ⟨⟨ss', rs', ratios'⟩, hrest, h⟩ := bind_eq_ok.mp h
      cases h
      obtain ⟨hhead, htail⟩ := List.forall_mem_cons.mp hpos
      refine ⟨moved_of_ratio (hnonneg _) hn hm hratio hhead, ?_⟩
      exact (ih (i + 1) v').mp ⟨ss', rs', ratios', hrest, Nat.succ.inj hlen, htail⟩
    · rintro ⟨⟨hsubject_moves, hreference_moves⟩, hrest⟩
      obtain ⟨ss', rs', ratios', h, hlen, hpos⟩ := (ih (i + 1) v').mpr hrest
      have hs_pos : 0 < elapsed readings (subjectRead i) / nSubject := div_pos hsubject_moves hn
      have hr_pos : 0 < elapsed readings (referenceRead i) / nReference := div_pos hreference_moves hm
      refine ⟨_, _, _, bind_eq_ok.mpr ⟨_, div_real hs_pos.ne', bind_eq_ok.mpr ⟨_, h, rfl⟩⟩, ?_, ?_⟩
      · rw [List.length_cons, hlen]
      · exact List.forall_mem_cons.mpr ⟨div_pos hr_pos hs_pos, hpos⟩

lemma collectPair_rounds (hsubject : Terminates subject) (hreference : Terminates reference) (samples : ℕ) (v : V) :
    ∃ nSubject nReference v', 1 ≤ nSubject ∧ 1 ≤ nReference ∧
      (collectPair realArithmetic (runnerTiming readings gcEnabled gcSwitch) subject.lift reference.lift samples
        (v, 0)).1 = roundsFrom readings gcEnabled gcSwitch subject reference nSubject nReference 0 samples v' := by
  obtain ⟨v₁, h₁⟩ := lift_terminates hsubject v 0
  obtain ⟨v₂, h₂⟩ := lift_terminates hreference v₁ 0
  obtain ⟨n, v₃, hn, h₃⟩ := runnerTiming_calibrate readings gcEnabled gcSwitch hsubject v₂ 0
  obtain ⟨m, v₄, hm, h₄⟩ := runnerTiming_calibrate readings gcEnabled gcSwitch hreference v₃ 2
  refine ⟨n, m, gcSwitch false v₄, hn, hm, ?_⟩
  unfold collectPair
  rw [Prog.run_bind_ok h₁, Prog.run_bind_ok h₂, Prog.run_bind_ok h₃, Prog.run_bind_ok h₄]
  rfl

end

/-! ### The verdict -/

/-- The case `compare` builds of what the collector returned. -/
def pairCase (label : String) (fields : Fields ℝ) (pair : List ℝ × List ℝ × List ℝ) : Case ℝ :=
  ⟨label, "s", pair.1, .none, Dict.update [("reference_samples", .list (pair.2.1.map .num)),
    ("ratios", .list (pair.2.2.map .num)), ("mismatch", .bool false)] fields.items⟩

lemma compare_pairCase {α β : Type} {timing : Timing (V × ℕ) ℝ} {label : String} {subject : Prog (V × ℕ) String α}
    {reference : Prog (V × ℕ) String β} {equal : α → β → Prog (V × ℕ) String Bool} {samples : ℕ} {fields : Fields ℝ}
    {w w₁ w₂ w₃ : V × ℕ} {a : α} {b : β} (hsubject : subject w = (.ok a, w₁)) (hreference : reference w₁ = (.ok b, w₂))
    (hequal : equal a b w₂ = (.ok true, w₃)) :
    compare realArithmetic timing label subject reference equal samples fields w =
      (do
        let pair ← collectPair realArithmetic timing (do let _ ← subject; pure ()) (do let _ ← reference; pure ())
          samples
        pure (pairCase label fields pair)) w₃ := by
  unfold compare
  rw [Prog.run_bind_ok hsubject, Prog.run_bind_ok hreference, Prog.run_bind_ok hequal]
  rfl

lemma percentileBounds_nil (level : ℝ) : percentileBounds realArithmetic [] level = .error "IndexError" := by
  have hhalf : realArithmetic.div (1 - level) 2 = .ok ((1 - level) / 2) := div_real two_ne_zero
  have hone : realArithmetic.lit 1 = 1 := Rat.cast_one
  have htwo : realArithmetic.lit 2 = 2 := Rat.cast_ofNat 2
  unfold percentileBounds
  rw [hone, htwo]
  change realArithmetic.div (1 - level) 2 >>= _ = _
  rw [hhalf]
  rfl

lemma hierarchicalGeomeanCi_none (rng : Rng ρ) {groups : List (List ℝ)} (hgroups : Ratios groups) (level : ℝ) (s : ρ) :
    hierarchicalGeomeanCi realArithmetic rng groups 0 level s = .error "IndexError" := by
  obtain ⟨medians, hmedians, hlen, hpos⟩ := mapM_of_forall
    (fun group hgroup => median_pos (hgroups.groups_nonempty group hgroup) (hgroups.positive group hgroup))
  have hne : medians ≠ [] := by
    rw [← List.length_pos_iff, hlen]
    exact List.length_pos_iff.mpr hgroups.nonempty
  have hguard : (groups.isEmpty || groups.any List.isEmpty) = false := by
    simp only [Bool.or_eq_false_iff, List.isEmpty_eq_false_iff, List.any_eq_false, List.isEmpty_iff]
    exact ⟨hgroups.nonempty, hgroups.groups_nonempty⟩
  unfold hierarchicalGeomeanCi
  rw [hguard, if_neg Bool.false_ne_true, hmedians, ok_bind, geomeanOf_real hne hpos, ok_bind, collectN, ok_bind]
  change percentileBounds realArithmetic [] level >>= _ = _
  rw [percentileBounds_nil]
  rfl

lemma classify_returns (fmt : Format ℝ) (label : String) (margin g low high : ℝ) :
    Returns (classify realArithmetic fmt label margin g low high) := by
  rcases le_or_gt 0 margin with hmargin | hmargin
  · obtain ⟨text, h⟩ := classify_real fmt label hmargin g low high
    exact ⟨_, h⟩
  · have hzero : realArithmetic.lit 0 = 0 := Rat.cast_zero
    have hlt : realArithmetic.lt 0 margin = false := decide_eq_false hmargin.not_gt
    have hwithin : withinMargin realArithmetic margin low high = .ok false := by
      unfold withinMargin
      rw [hzero, hlt, if_neg Bool.false_ne_true]
    unfold classify
    rw [hwithin]
    exact ⟨_, rfl⟩

lemma speedOf_positive (fmt : Format ℝ) (rng : Rng ρ) {ratios : List ℝ} (hne : ratios ≠ []) (hpos : ∀ x ∈ ratios, 0 < x)
    (subjectLabel : String) (bootstrap : ℕ) (margin : ℝ) (s : ρ) :
    Returns (speedOf realArithmetic fmt rng [.list (ratios.map .num)] subjectLabel bootstrap margin s) ∨
      bootstrap = 0 ∧
        speedOf realArithmetic fmt rng [.list (ratios.map .num)] subjectLabel bootstrap margin s =
          .error "IndexError" := by
  have hratios : Ratios [ratios] := by
    constructor
    · exact List.cons_ne_nil _ _
    · simpa using hne
    · simpa using hpos
  have hgroups : [Value.list (ratios.map .num)].mapM (asRatios realArithmetic) = .ok [ratios] := asRatios_nums [ratios]
  unfold speedOf
  rw [List.isEmpty_cons, if_neg Bool.false_ne_true, hgroups, ok_bind]
  rcases Nat.eq_zero_or_pos bootstrap with rfl | hbootstrap
  · right
    rw [hierarchicalGeomeanCi_none rng hratios]
    exact ⟨rfl, rfl⟩
  · left
    obtain ⟨g, low, high, _, _, h, -⟩ :=
      hierarchicalGeomeanCi_within rng hratios hbootstrap (realArithmetic.lit 0.95) s
    obtain ⟨⟨classification, text⟩, hclass⟩ := classify_returns fmt subjectLabel margin g low high
    rw [h, ok_bind]
    exact ⟨_, bind_eq_ok.mpr ⟨_, hclass, rfl⟩⟩

lemma verdict_pairCase (fmt : Format ℝ) (rng : Rng ρ) {label : String} {fields : Fields ℝ}
    (hfields : fields.items.get "ratios" = none) {ss rs ratios : List ℝ} (hne : ratios ≠ [])
    (hpos : ∀ x ∈ ratios, 0 < x) (key : Option (Case ℝ → Bool)) (subjectLabel : String) (bootstrap : ℕ)
    (margin : ℝ) (s : ρ) :
    Returns (verdict realArithmetic fmt rng [pairCase label fields (ss, rs, ratios)] key subjectLabel
        bootstrap margin s) ∨
      bootstrap = 0 ∧ verdict realArithmetic fmt rng [pairCase label fields (ss, rs, ratios)] key subjectLabel
        bootstrap margin s = .error "IndexError" := by
  set case := pairCase label fields (ss, rs, ratios) with hcase
  have hextra : case.extra.get "ratios" = some (.list (ratios.map .num)) := by
    rw [hcase, pairCase, Dict.get_update fields.nodup, hfields]
    rfl
  have hflag : flagged realArithmetic "ratios" case = true := by
    unfold flagged
    rw [hextra]
    simpa [truthy] using hne
  have hgroups : ratioGroups realArithmetic (key.getD (defaultKey realArithmetic)) [case] = [] ∨
      ratioGroups realArithmetic (key.getD (defaultKey realArithmetic)) [case] = [.list (ratios.map .num)] := by
    unfold ratioGroups
    by_cases hkey : key.getD (defaultKey realArithmetic) case = true
    · by_cases hmismatch : flagged realArithmetic "mismatch" case = true
      · simp [hkey, hmismatch]
      · simp [hkey, hmismatch, hflag, hextra]
    · simp [hkey]
  unfold verdict
  rcases hgroups with hnone | hone
  · left
    simp only [hnone]
    exact ⟨_, rfl⟩
  · simp only [hone]
    rcases speedOf_positive fmt rng hne hpos subjectLabel bootstrap margin s with hreturns | ⟨hzero, herror⟩
    · exact .inl (returns_map.mpr hreturns)
    · rw [herror]
      exact .inr ⟨hzero, rfl⟩

/-! ### Paired timing -/

/-- The collector returns that many positive ratios, and no verdict over a case built of them takes a logarithm
that does not exist. -/
def TimesSafely (readings : ℕ → ℝ) (gcEnabled : V → Bool) (gcSwitch : Bool → V → V)
    (subject reference : Prog V String Unit) (samples : ℕ) (v : V) : Prop :=
  ∃ subjectTimes referenceTimes ratios,
    (collectPair realArithmetic (runnerTiming readings gcEnabled gcSwitch) subject.lift reference.lift samples
      (v, 0)).1 = .ok (subjectTimes, referenceTimes, ratios) ∧
    (ratios.length = samples ∧ ∀ x ∈ ratios, 0 < x) ∧
    ∀ (ρ : Type) (fmt : Format ℝ) (rng : Rng ρ) (label : String) (fields : Fields ℝ),
      fields.items.get "ratios" = none → ∀ key subjectLabel bootstrap margin s,
        verdict realArithmetic fmt rng [pairCase label fields (subjectTimes, referenceTimes, ratios)] key subjectLabel
          bootstrap margin s ≠ .error "ValueError"

/-- The pair is timed safely exactly when the clock moves during every batch. -/
theorem collectPair_safe_iff {readings : ℕ → ℝ} (hmono : Monotone readings) (gcEnabled : V → Bool)
    (gcSwitch : Bool → V → V) {subject reference : Prog V String Unit} (hsubject : Terminates subject)
    (hreference : Terminates reference) {samples : ℕ} (hsamples : 1 ≤ samples) (v : V) :
    TimesSafely readings gcEnabled gcSwitch subject reference samples v ↔ ∀ i < samples, Moves readings i := by
  obtain ⟨n, m, v', hn, hm, hrounds⟩ :=
    collectPair_rounds readings gcEnabled gcSwitch hsubject hreference samples v
  have hiff := roundsFrom_iff readings gcEnabled gcSwitch hmono hsubject hreference hn hm 0 samples v'
  simp only [Nat.zero_add] at hiff
  rw [← hiff, ← hrounds]
  constructor
  · rintro ⟨ss, rs, ratios, h, hpos, -⟩
    exact ⟨ss, rs, ratios, h, hpos⟩
  · rintro ⟨ss, rs, ratios, h, hlen, hpos⟩
    have hne : ratios ≠ [] := by
      rw [← List.length_pos_iff, hlen]
      exact hsamples
    refine ⟨ss, rs, ratios, h, ⟨hlen, hpos⟩, ?_⟩
    intro ρ fmt rng label fields hfields key subjectLabel bootstrap margin s herror
    rcases verdict_pairCase fmt rng hfields hne hpos key subjectLabel bootstrap margin s with ⟨v, hreturns⟩ | ⟨-, h⟩
    · cases hreturns.symm.trans herror
    · exact absurd (h.symm.trans herror) (by simp)

theorem collectPair_safe_ticking : TimesSafely (fun k => (k : ℝ)) (fun _ => true) (fun _ w => w) idle idle 2 () := by
  refine (collectPair_safe_iff Nat.mono_cast _ _ idle_terminates idle_terminates one_le_two ()).mpr ?_
  intro i _
  unfold Moves
  constructor <;> exact_mod_cast Nat.lt_succ_self _

/-- A clock that stands still during the first two batches: the collector divides by zero. -/
theorem collectPair_divides_by_zero :
    (collectPair realArithmetic (runnerTiming (fun _ => 0) (fun _ => true) (fun _ w => w)) idle.lift idle.lift 1
      ((), 0)).1 = .error "ZeroDivisionError" := by
  obtain ⟨n, m, v', hn, hm, hrounds⟩ := collectPair_rounds (fun _ => 0) (fun _ => true) (fun _ w => w)
    idle_terminates idle_terminates 1 ()
  obtain ⟨_, hround⟩ := roundsFrom_succ (fun _ => 0) (fun _ => true) (fun _ w => w) idle_terminates idle_terminates
    hn hm 0 0 v'
  have hzero : realArithmetic.div (elapsed (fun _ => 0) (referenceRead 0) / m)
      (elapsed (fun _ => 0) (subjectRead 0) / n) = .error "ZeroDivisionError" := if_pos (by simp [elapsed])
  rw [hrounds, hround]
  dsimp only
  rw [hzero]
  rfl

end SciForge.Bench
