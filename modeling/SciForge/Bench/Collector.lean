import SciForge.Bench.Compare
import SciForge.Bench.Runner

/-!
# The two collectors

`collect` of the Python runner and of the C++ header, on the same clock and the same operation, which may raise.
-/

namespace SciForge.Bench

variable {V K : Type} [Field K]

/-! ### Python -/

/-- The garbage collector of a world. -/
structure Gc (V : Type) where
  isEnabled : V → Bool
  switch : Bool → V → V
  isEnabled_switch : ∀ b v, isEnabled (switch b v) = b

/-- `[batch_time(fn, batch) for _ in range(samples)]`. -/
def batches [DecidableEq K] (readings : ℕ → K) (fn : Prog (V × ℕ) String Unit) (batch : ℕ) :
    ℕ → Prog (V × ℕ) String (List K)
  | 0 => pure []
  | samples + 1 => do
    let time ← batchTime readings fn batch
    let rest ← batches readings fn batch samples
    pure (time :: rest)

/-- The `finally` of `collect`. -/
def Gc.restore (gc : Gc V) (wasEnabled : Bool) (w : V × ℕ) : V × ℕ :=
  if wasEnabled then (gc.switch true w.1, w.2) else w

def collect [LinearOrder K] [FloorRing K] (gc : Gc V) (readings : ℕ → K) (label : String)
    (fn : Prog (V × ℕ) String Unit) (samples : ℤ) (batchTarget : K) : Prog (V × ℕ) String (Case K) := do
  let w ← Prog.get
  let wasEnabled := gc.isEnabled w.1
  Prog.modify (fun w => (gc.switch false w.1, w.2))
  let raw ← Prog.cleanup (do
    let batch ← calibrate readings fn batchTarget
    batches readings fn batch samples.toNat) (gc.restore wasEnabled)
  pure ⟨label, "s", raw, .none, []⟩

/-! ### C++ -/

def batchTimeCpp (readings : ℕ → K) (thunk : Prog (V × ℕ) String Unit) (n : ℤ) : Prog (V × ℕ) String K := do
  let start ← perfCounter readings
  callTimes thunk n.toNat
  let stop ← perfCounter readings
  pure ((stop - start) / n)

def batchesCpp (readings : ℕ → K) (thunk : Prog (V × ℕ) String Unit) (n : ℤ) : ℕ → Prog (V × ℕ) String (List K)
  | 0 => pure []
  | samples + 1 => do
    let time ← batchTimeCpp readings thunk n
    let rest ← batchesCpp readings thunk n samples
    pure (time :: rest)

/-- `none` is a conversion out of range. -/
def collectCpp [LinearOrder K] [FloorRing K] (readings : ℕ → K) (thunk : Prog (V × ℕ) String Unit)
    (samples inner : ℤ) (batchTarget : K) : Prog (V × ℕ) String (Option (List K)) := do
  let n ← if 0 < inner then pure (some inner) else calibrateCpp readings thunk batchTarget
  match n with
  | none => pure none
  | some n => do
    let raw ← batchesCpp readings thunk n samples.toNat
    pure (some raw)

/-! ### Programs that differ only where they are never run -/

section

variable {σ ε α β : Type}

/-- From a state with `I` the two programs do the same, and leave a state with `I`. -/
def SameOn (I : σ → Prop) (p q : Prog σ ε α) : Prop := ∀ s, I s → p s = q s ∧ I (q s).2

variable {I : σ → Prop}

lemma SameOn.bind {p q : Prog σ ε α} (h : SameOn I p q) {f g : α → Prog σ ε β} (hfg : ∀ a, SameOn I (f a) (g a)) :
    SameOn I (p >>= f) (q >>= g) := by
  intro s hs
  obtain ⟨heq, hq⟩ := h s hs
  rcases hrun : q s with ⟨e | a, s'⟩
  · rw [hrun] at heq hq
    rw [Prog.run_bind_error heq, Prog.run_bind_error hrun]
    exact ⟨rfl, hq⟩
  · rw [hrun] at heq hq
    rw [Prog.run_bind_ok heq, Prog.run_bind_ok hrun]
    exact hfg a s' hq

lemma SameOn.pure (a : α) : SameOn I (Pure.pure a : Prog σ ε α) (Pure.pure a) := fun _ hs => ⟨rfl, hs⟩

lemma SameOn.raise (e : ε) : SameOn I (Prog.raise e : Prog σ ε α) (Prog.raise e) := fun _ hs => ⟨rfl, hs⟩

end

lemma run_cleanup {σ ε α : Type} {p : Prog σ ε α} {last : σ → σ} {s t : σ} {r : Except ε α} (h : p s = (r, t)) :
    Prog.cleanup p last s = (r, last t) := by
  unfold Prog.cleanup
  rw [h]

/-! ### A run of the collectors -/

section

variable {I : V × ℕ → Prop} {fn fn' : Prog (V × ℕ) String Unit} (readings : ℕ → K)

omit [Field K] in
lemma perfCounter_same (hclock : ∀ v k, I (v, k) → I (v, k + 1)) :
    SameOn I (perfCounter readings) (perfCounter readings) := fun w hw => ⟨rfl, hclock w.1 w.2 hw⟩

lemma callTimes_same (h : SameOn I fn fn') (n : ℕ) : SameOn I (callTimes fn n) (callTimes fn' n) := by
  induction n with
  | zero => exact .pure ()
  | succ n ih => exact h.bind (fun _ => ih)

lemma calibrate_same [LinearOrder K] [FloorRing K] (h : SameOn I fn fn') (hclock : ∀ v k, I (v, k) → I (v, k + 1))
    (batchTarget : K) : SameOn I (calibrate readings fn batchTarget) (calibrate readings fn' batchTarget) := by
  unfold calibrate
  refine h.bind (fun _ => (perfCounter_same readings hclock).bind (fun start => ?_))
  exact h.bind (fun _ => (perfCounter_same readings hclock).bind (fun stop => .pure _))

lemma batchTime_same [DecidableEq K] (h : SameOn I fn fn') (hclock : ∀ v k, I (v, k) → I (v, k + 1)) (n : ℕ) :
    SameOn I (batchTime readings fn n) (batchTime readings fn' n) := by
  unfold batchTime
  refine (perfCounter_same readings hclock).bind (fun start => (callTimes_same h n).bind (fun _ => ?_))
  refine (perfCounter_same readings hclock).bind (fun stop => ?_)
  split
  · exact .raise _
  · exact .pure _

lemma batches_same [DecidableEq K] (h : SameOn I fn fn') (hclock : ∀ v k, I (v, k) → I (v, k + 1)) (batch samples : ℕ) :
    SameOn I (batches readings fn batch samples) (batches readings fn' batch samples) := by
  induction samples with
  | zero => exact .pure []
  | succ samples ih =>
    exact (batchTime_same readings h hclock batch).bind (fun _ => ih.bind (fun _ => .pure _))

end

/-- The readings that the samples are made of: two for the calibration, then two for each batch. -/
def sampleTimes (readings : ℕ → K) (k batch samples : ℕ) : List K :=
  (List.range samples).map fun i => (readings (k + 2 * i + 1) - readings (k + 2 * i)) / batch

lemma sampleTimes_succ (readings : ℕ → K) (k batch samples : ℕ) :
    sampleTimes readings k batch (samples + 1) =
      (readings (k + 1) - readings k) / batch :: sampleTimes readings (k + 2) batch samples := by
  unfold sampleTimes
  rw [List.range_succ_eq_map, List.map_cons, List.map_map]
  refine congrArg _ (List.map_congr_left (fun i _ => ?_))
  have hread : k + 2 * (i + 1) = k + 2 + 2 * i := by omega
  simp only [Function.comp_apply, Nat.succ_eq_add_one, hread]

section

lemma run_lift (fn : Prog V String Unit) (v : V) (k : ℕ) :
    (∃ v', fn.lift (v, k) = (.ok (), (v', k))) ∨ ∃ e v', fn.lift (v, k) = (.error e, (v', k)) := by
  unfold Prog.lift
  rcases fn v with ⟨e | a, v'⟩
  · exact .inr ⟨e, v', rfl⟩
  · exact .inl ⟨v', rfl⟩

lemma run_callTimes (fn : Prog V String Unit) (n : ℕ) (v : V) (k : ℕ) :
    (∃ v', callTimes fn.lift n (v, k) = (.ok (), (v', k))) ∨ ∃ e v', callTimes fn.lift n (v, k) = (.error e, (v', k)) := by
  induction n generalizing v with
  | zero => exact .inl ⟨v, rfl⟩
  | succ n ih =>
    obtain ⟨v', h⟩ | ⟨e, v', h⟩ := run_lift fn v k
    · exact (ih v').imp (fun ⟨v'', h'⟩ => ⟨v'', (Prog.run_bind_ok h).trans h'⟩)
        (fun ⟨e, v'', h'⟩ => ⟨e, v'', (Prog.run_bind_ok h).trans h'⟩)
    · exact .inr ⟨e, v', Prog.run_bind_error h⟩

variable (fn : Prog V String Unit) (readings : ℕ → K)

lemma run_batchTime [DecidableEq K] [CharZero K] {n : ℕ} (hn : 1 ≤ n) (v : V) (k : ℕ) :
    (∃ v', batchTime readings fn.lift n (v, k) = (.ok ((readings (k + 1) - readings k) / n), (v', k + 2))) ∨
      ∃ e w, batchTime readings fn.lift n (v, k) = (.error e, w) := by
  have hne : (n : K) ≠ 0 := Nat.cast_ne_zero.mpr (by omega)
  unfold batchTime
  rw [Prog.run_bind_ok (show perfCounter readings (v, k) = (.ok (readings k), (v, k + 1)) from rfl)]
  obtain ⟨v', h⟩ | ⟨e, v', h⟩ := run_callTimes fn n v (k + 1)
  · refine .inl ⟨v', ?_⟩
    rw [Prog.run_bind_ok h,
      Prog.run_bind_ok (show perfCounter readings (v', k + 1) = (.ok (readings (k + 1)), (v', k + 2)) from rfl),
      if_neg hne]
    rfl
  · exact .inr ⟨e, _, Prog.run_bind_error h⟩

lemma run_batches [DecidableEq K] [CharZero K] {batch : ℕ} (hbatch : 1 ≤ batch) (samples : ℕ) (v : V) (k : ℕ) :
    (∃ w, batches readings fn.lift batch samples (v, k) = (.ok (sampleTimes readings k batch samples), w)) ∨
      ∃ e w, batches readings fn.lift batch samples (v, k) = (.error e, w) := by
  induction samples generalizing v k with
  | zero => exact .inl ⟨(v, k), rfl⟩
  | succ samples ih =>
    obtain ⟨v', h⟩ | ⟨e, w, h⟩ := run_batchTime fn readings hbatch v k
    · obtain ⟨w, h'⟩ | ⟨e, w, h'⟩ := ih v' (k + 2)
      · refine .inl ⟨w, ?_⟩
        rw [batches, Prog.run_bind_ok h, Prog.run_bind_ok h', sampleTimes_succ]
        rfl
      · refine .inr ⟨e, w, ?_⟩
        rw [batches, Prog.run_bind_ok h, Prog.run_bind_error h']
    · exact .inr ⟨e, w, Prog.run_bind_error h⟩

end

/-! ### One collector for the other -/

section

variable (fn : Prog V String Unit) (readings : ℕ → ℚ)

/-- The batch that both calibrations come to on two readings. -/
def batchOf (batchTarget start stop : ℚ) : ℕ := (max 1 ⌊batchTarget / max (stop - start) (1 / 10 ^ 9)⌋).toNat

lemma one_le_batchOf (batchTarget start stop : ℚ) : 1 ≤ batchOf batchTarget start stop := by
  unfold batchOf
  omega

lemma run_calibrate {batchTarget : ℚ} (htarget : 0 ≤ batchTarget) (v : V) (k : ℕ)
    (hsmall : batchTarget < 2 ^ 31 * max (readings (k + 1) - readings k) (1 / 10 ^ 9)) :
    (∃ v', calibrate readings fn.lift batchTarget (v, k) =
        (.ok (batchOf batchTarget (readings k) (readings (k + 1))), (v', k + 2)) ∧
      calibrateCpp readings fn.lift batchTarget (v, k) =
        (.ok (some (batchOf batchTarget (readings k) (readings (k + 1)) : ℤ)), (v', k + 2))) ∨
      ∃ e w, calibrate readings fn.lift batchTarget (v, k) = (.error e, w) ∧
        calibrateCpp readings fn.lift batchTarget (v, k) = (.error e, w) := by
  have honce : 0 < max (readings (k + 1) - readings k) (1 / 10 ^ 9) := lt_max_of_lt_right (by norm_num)
  have hquotient : 0 ≤ batchTarget / max (readings (k + 1) - readings k) (1 / 10 ^ 9) := div_nonneg htarget honce.le
  have hfits := (div_lt_iff₀ honce).mpr hsmall
  have hcount : ((batchOf batchTarget (readings k) (readings (k + 1)) : ℕ) : ℤ) =
      max 1 ⌊batchTarget / max (readings (k + 1) - readings k) (1 / 10 ^ 9)⌋ := Int.toNat_of_nonneg (by omega)
  unfold calibrate calibrateCpp
  obtain ⟨v₁, h₁⟩ | ⟨e, v₁, h₁⟩ := run_lift fn v k
  · rw [Prog.run_bind_ok h₁, Prog.run_bind_ok h₁]
    have hstart : perfCounter readings (v₁, k) = (.ok (readings k), (v₁, k + 1)) := rfl
    rw [Prog.run_bind_ok hstart, Prog.run_bind_ok hstart]
    obtain ⟨v₂, h₂⟩ | ⟨e, v₂, h₂⟩ := run_lift fn v₁ (k + 1)
    · have hstop : perfCounter readings (v₂, k + 1) = (.ok (readings (k + 1)), (v₂, k + 2)) := rfl
      rw [Prog.run_bind_ok h₂, Prog.run_bind_ok h₂, Prog.run_bind_ok hstop, Prog.run_bind_ok hstop]
      refine .inl ⟨v₂, ?_, ?_⟩
      · rw [truncate, if_pos hquotient]
        rfl
      · rw [staticCastInt_of_nonneg hquotient, if_pos hfits, hcount]
        rfl
    · rw [Prog.run_bind_error h₂, Prog.run_bind_error h₂]
      exact .inr ⟨e, _, rfl, rfl⟩
  · rw [Prog.run_bind_error h₁, Prog.run_bind_error h₁]
    exact .inr ⟨e, _, rfl, rfl⟩

lemma batchTimeCpp_eq {n : ℕ} (hn : 1 ≤ n) (thunk : Prog (V × ℕ) String Unit) :
    batchTimeCpp readings thunk n = batchTime readings thunk n := by
  have hne : (n : ℚ) ≠ 0 := Nat.cast_ne_zero.mpr (by omega)
  unfold batchTimeCpp batchTime
  simp only [Int.toNat_natCast, Int.cast_natCast, if_neg hne]

lemma batchesCpp_eq {n : ℕ} (hn : 1 ≤ n) (thunk : Prog (V × ℕ) String Unit) (samples : ℕ) :
    batchesCpp readings thunk n samples = batches readings thunk n samples := by
  induction samples with
  | zero => rfl
  | succ samples ih => rw [batchesCpp, batches, batchTimeCpp_eq readings hn, ih]

variable (gc : Gc V)

/-- What Python's collector comes to when the C++ one comes to `r` in the same world with its gc off. -/
def Gc.outcome (label : String) (wasEnabled : Bool) (r : Except String (Option (List ℚ)) × (V × ℕ)) :
    Except String (Case ℚ) × (V × ℕ) :=
  (r.1.map fun raw => ⟨label, "s", raw.getD [], .none, []⟩, gc.restore wasEnabled r.2)

lemma collect_eq (label : String) (fn : Prog (V × ℕ) String Unit) (samples : ℤ) (batchTarget : ℚ) (v : V) (k : ℕ) :
    collect gc readings label fn samples batchTarget (v, k) =
      (Prog.cleanup (do
        let batch ← calibrate readings fn batchTarget
        batches readings fn batch samples.toNat) (gc.restore (gc.isEnabled v)) >>= fun raw =>
          (pure ⟨label, "s", raw, .none, []⟩ : Prog (V × ℕ) String (Case ℚ))) (gc.switch false v, k) := rfl

/-- Both collectors make the same calls and readings, and give the same samples or raise the same. -/
lemma collect_run {batchTarget : ℚ} (htarget : 0 ≤ batchTarget) (label : String) (samples : ℤ) (v : V) (k : ℕ)
    (hsmall : batchTarget < 2 ^ 31 * max (readings (k + 1) - readings k) (1 / 10 ^ 9)) :
    ∃ r : Except String (Option (List ℚ)) × (V × ℕ),
      collectCpp readings fn.lift samples 0 batchTarget (gc.switch false v, k) = r ∧
      collect gc readings label fn.lift samples batchTarget (v, k) = gc.outcome label (gc.isEnabled v) r ∧
      ((∃ e, r.1 = .error e) ∨ r.1 = .ok (some (sampleTimes readings (k + 2)
        (batchOf batchTarget (readings k) (readings (k + 1))) samples.toNat))) := by
  have hbatch := one_le_batchOf batchTarget (readings k) (readings (k + 1))
  rw [collect_eq]
  unfold collectCpp
  rw [if_neg (lt_irrefl 0)]
  obtain ⟨v', hpython, hcpp⟩ | ⟨e, w, hpython, hcpp⟩ := run_calibrate fn readings htarget (gc.switch false v) k hsmall
  · generalize batchOf batchTarget (readings k) (readings (k + 1)) = batch at *
    obtain ⟨w, hrun⟩ | ⟨e, w, hrun⟩ := run_batches fn readings hbatch samples.toNat v' (k + 2)
    · have hbody := (Prog.run_bind_ok (q := fun batch => batches readings fn.lift batch samples.toNat) hpython).trans hrun
      refine ⟨(.ok (some (sampleTimes readings (k + 2) batch samples.toNat)), w), ?_, ?_, .inr rfl⟩
      · rw [Prog.run_bind_ok hcpp]
        dsimp only
        rw [batchesCpp_eq readings hbatch, Prog.run_bind_ok hrun]
        rfl
      · rw [Prog.run_bind_ok (run_cleanup hbody)]
        rfl
    · have hbody := (Prog.run_bind_ok (q := fun batch => batches readings fn.lift batch samples.toNat) hpython).trans hrun
      refine ⟨(.error e, w), ?_, ?_, .inl ⟨e, rfl⟩⟩
      · rw [Prog.run_bind_ok hcpp]
        dsimp only
        rw [batchesCpp_eq readings hbatch, Prog.run_bind_error hrun]
      · rw [Prog.run_bind_error (run_cleanup hbody)]
        rfl
  · have hbody := Prog.run_bind_error (q := fun batch => batches readings fn.lift batch samples.toNat) hpython
    refine ⟨(.error e, w), Prog.run_bind_error hcpp, ?_, .inl ⟨e, rfl⟩⟩
    rw [Prog.run_bind_error (run_cleanup hbody)]
    rfl

end

/-! ### The garbage collector -/

lemma lift_same (gc : Gc V) {fn fn' : Prog V String Unit} (hgc : ∀ v, gc.isEnabled (fn v).2 = gc.isEnabled v)
    (hfn : ∀ v, gc.isEnabled v = false → fn' v = fn v) :
    SameOn (fun w : V × ℕ => gc.isEnabled w.1 = false) fn'.lift fn.lift := by
  intro w hw
  unfold Prog.lift
  rw [hfn w.1 hw]
  exact ⟨rfl, (hgc w.1).trans hw⟩

/-- Up to the switch of its garbage collector, Python's collector is the C++ one; it switches it back however the
operation ends, and never runs the operation with it on. -/
theorem collect_mirrors (gc : Gc V) (readings : ℕ → ℚ) {fn : Prog V String Unit}
    (hgc : ∀ v, gc.isEnabled (fn v).2 = gc.isEnabled v) (label : String) (samples : ℤ) {batchTarget : ℚ}
    (htarget : 0 ≤ batchTarget) (v : V) (k : ℕ)
    (hsmall : batchTarget < 2 ^ 31 * max (readings (k + 1) - readings k) (1 / 10 ^ 9)) :
    let cpp := collectCpp readings fn.lift samples 0 batchTarget (gc.switch false v, k)
    let python := collect gc readings label fn.lift samples batchTarget (v, k)
    python = gc.outcome label (gc.isEnabled v) cpp ∧
      ((∃ e, cpp.1 = .error e) ∨ cpp.1 = .ok (some (sampleTimes readings (k + 2)
        (batchOf batchTarget (readings k) (readings (k + 1))) samples.toNat))) ∧
      gc.isEnabled python.2.1 = gc.isEnabled v ∧
      ∀ fn' : Prog V String Unit, (∀ v, gc.isEnabled v = false → fn' v = fn v) →
        collect gc readings label fn'.lift samples batchTarget (v, k) = python := by
  obtain ⟨r, hcpp, hpython, hr⟩ := collect_run fn readings gc htarget label samples v k hsmall
  have hoff : gc.isEnabled (gc.switch false v) = false := gc.isEnabled_switch false v
  have hclock : ∀ (v : V) (k : ℕ), gc.isEnabled v = false → gc.isEnabled v = false := fun _ _ h => h
  have hbody : ∀ fn' : Prog V String Unit, (∀ v, gc.isEnabled v = false → fn' v = fn v) →
      SameOn (fun w : V × ℕ => gc.isEnabled w.1 = false)
        (calibrate readings fn'.lift batchTarget >>= fun batch => batches readings fn'.lift batch samples.toNat)
        (calibrate readings fn.lift batchTarget >>= fun batch => batches readings fn.lift batch samples.toNat) := by
    intro fn' hfn
    have hsame := lift_same gc hgc hfn
    exact (calibrate_same readings hsame hclock batchTarget).bind
      (fun batch => batches_same readings hsame hclock batch samples.toNat)
  dsimp only
  rw [hcpp]
  refine ⟨hpython, hr, ?_, fun fn' hfn => ?_⟩
  · obtain ⟨-, hkept⟩ := hbody fn (fun _ _ => rfl) (gc.switch false v, k) hoff
    rw [collect_eq]
    generalize calibrate readings fn.lift batchTarget >>= (fun batch =>
      batches readings fn.lift batch samples.toNat) = body at hkept
    have hstate : ((Prog.cleanup body (gc.restore (gc.isEnabled v)) >>= fun raw =>
        (pure ⟨label, "s", raw, .none, []⟩ : Prog (V × ℕ) String (Case ℚ))) (gc.switch false v, k)).2 =
          gc.restore (gc.isEnabled v) (body (gc.switch false v, k)).2 := by
      rcases hrun : body (gc.switch false v, k) with ⟨e | raw, w⟩
      · rw [Prog.run_bind_error (run_cleanup hrun)]
      · rw [Prog.run_bind_ok (run_cleanup hrun)]
        rfl
    rw [hstate, Gc.restore]
    split
    · next h => rw [gc.isEnabled_switch, h]
    · next h => rw [hkept, Bool.eq_false_iff.mpr h]
  · obtain ⟨heq, -⟩ := hbody fn' hfn (gc.switch false v, k) hoff
    rw [collect_eq, collect_eq]
    refine Prog.run_bind_congr ?_
    unfold Prog.cleanup
    rw [heq]

/-- A world of one flag, and an operation that raises on its second call. -/
def flagGc : Gc (Bool × ℕ) := ⟨Prod.fst, fun b v => (b, v.2), fun _ _ => rfl⟩

def failsTwice : Prog (Bool × ℕ) String Unit := fun v =>
  (if v.2 = 1 then .error "RuntimeError" else .ok (), (v.1, v.2 + 1))

/-- The collector is switched on again after an exception. -/
theorem collect_mirrors_raise :
    (collect flagGc milliseconds "op" failsTwice.lift 3 (5 / 1000) ((true, 0), 0)).2.1.1 = true := by
  have hsmall : (5 / 1000 : ℚ) < 2 ^ 31 * max (milliseconds (0 + 1) - milliseconds 0) (1 / 10 ^ 9) := by
    norm_num [milliseconds]
  have hgc : ∀ v, flagGc.isEnabled (failsTwice v).2 = flagGc.isEnabled v := fun _ => rfl
  exact (collect_mirrors flagGc milliseconds hgc "op" 3 (by norm_num) (true, 0) 0 hsmall).2.2.1

end SciForge.Bench
