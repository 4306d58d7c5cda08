import SciForge.Lib.Prog
import Mathlib.Algebra.Order.Floor.Ring
import Mathlib.Algebra.Order.Field.Basic
import Mathlib.Data.Rat.Floor
import Mathlib.Tactic.Linarith
import Mathlib.Tactic.NormNum

/-!
# Sizing and timing a loop

`calibrate` and `batch_time` of the Python collector, and `calibrate` of the C++ one, in exact arithmetic. The
world of a callable comes with the number of times the collector has read the clock.
-/

namespace SciForge.Bench

variable {V K : Type} [Field K]

/-- The next reading of the clock. -/
def perfCounter (readings : ℕ → K) : Prog (V × ℕ) String K := fun w => (.ok (readings w.2), (w.1, w.2 + 1))

/-- `for _ in range(n): fn()`. -/
def callTimes (fn : Prog (V × ℕ) String Unit) : ℕ → Prog (V × ℕ) String Unit
  | 0 => pure ()
  | n + 1 => do
    fn
    callTimes fn n

/-- `int(x)`, and what a C++ conversion to an integer type keeps: toward zero. -/
def truncate [LinearOrder K] [FloorRing K] (x : K) : ℤ := if 0 ≤ x then ⌊x⌋ else ⌈x⌉

/-! ### Python -/

def calibrate [LinearOrder K] [FloorRing K] (readings : ℕ → K) (fn : Prog (V × ℕ) String Unit) (batchTarget : K) :
    Prog (V × ℕ) String ℕ := do
  fn
  let start ← perfCounter readings
  fn
  let stop ← perfCounter readings
  let once := max (stop - start) (1 / 10 ^ 9)
  pure (max 1 (truncate (batchTarget / once))).toNat

def batchTime [DecidableEq K] (readings : ℕ → K) (fn : Prog (V × ℕ) String Unit) (n : ℕ) :
    Prog (V × ℕ) String K := do
  let start ← perfCounter readings
  callTimes fn n
  let stop ← perfCounter readings
  if (n : K) = 0 then Prog.raise "ZeroDivisionError" else pure ((stop - start) / n)

/-! ### C++ -/

/-- `static_cast<int>(x)`: undefined when the truncated value does not fit in 32 bits. -/
def staticCastInt [LinearOrder K] [FloorRing K] (x : K) : Option ℤ :=
  if -2 ^ 31 ≤ truncate x ∧ truncate x < 2 ^ 31 then some (truncate x) else none

def calibrateCpp [LinearOrder K] [FloorRing K] (readings : ℕ → K) (thunk : Prog (V × ℕ) String Unit)
    (batchTarget : K) : Prog (V × ℕ) String (Option ℤ) := do
  thunk
  let start ← perfCounter readings
  thunk
  let stop ← perfCounter readings
  let once := max (stop - start) (1 / 10 ^ 9)
  pure ((staticCastInt (batchTarget / once)).map (max 1))

/-! ### What they give -/

/-- From every world the callable returns. -/
def Terminates (fn : Prog V String Unit) : Prop := ∀ v, ∃ v', fn v = (.ok (), v')

section

variable [LinearOrder K] [FloorRing K] {fn : Prog V String Unit} (readings : ℕ → K)

lemma lift_terminates (hfn : Terminates fn) (v : V) (k : ℕ) : ∃ v', fn.lift (v, k) = (.ok (), (v', k)) := by
  obtain ⟨v', h⟩ := hfn v
  refine ⟨v', ?_⟩
  unfold Prog.lift
  rw [h]

lemma calibrate_lift (hfn : Terminates fn) (batchTarget : K) (v : V) (k : ℕ) :
    ∃ v', calibrate readings fn.lift batchTarget (v, k) =
      (.ok (max 1 (truncate (batchTarget / max (readings (k + 1) - readings k) (1 / 10 ^ 9)))).toNat, (v', k + 2)) := by
  obtain ⟨v₁, h₁⟩ := lift_terminates hfn v k
  obtain ⟨v₂, h₂⟩ := lift_terminates hfn v₁ (k + 1)
  refine ⟨v₂, ?_⟩
  unfold calibrate
  rw [Prog.run_bind_ok h₁, Prog.run_bind_ok (show perfCounter readings (v₁, k) = _ from rfl), Prog.run_bind_ok h₂]
  rfl

lemma calibrateCpp_lift (hfn : Terminates fn) (batchTarget : K) (v : V) (k : ℕ) :
    ∃ v', calibrateCpp readings fn.lift batchTarget (v, k) =
      (.ok ((staticCastInt (batchTarget / max (readings (k + 1) - readings k) (1 / 10 ^ 9))).map (max 1)),
        (v', k + 2)) := by
  obtain ⟨v₁, h₁⟩ := lift_terminates hfn v k
  obtain ⟨v₂, h₂⟩ := lift_terminates hfn v₁ (k + 1)
  refine ⟨v₂, ?_⟩
  unfold calibrateCpp
  rw [Prog.run_bind_ok h₁, Prog.run_bind_ok (show perfCounter readings (v₁, k) = _ from rfl), Prog.run_bind_ok h₂]
  rfl

lemma callTimes_lift (hfn : Terminates fn) (n : ℕ) (v : V) (k : ℕ) :
    ∃ v', callTimes fn.lift n (v, k) = (.ok (), (v', k)) := by
  induction n generalizing v with
  | zero => exact ⟨v, rfl⟩
  | succ n ih =>
    obtain ⟨v₁, h₁⟩ := lift_terminates hfn v k
    obtain ⟨v₂, h₂⟩ := ih v₁
    exact ⟨v₂, (Prog.run_bind_ok h₁).trans h₂⟩

end

lemma batchTime_lift [DecidableEq K] [CharZero K] {fn : Prog V String Unit} (readings : ℕ → K) (hfn : Terminates fn)
    {n : ℕ} (hn : 1 ≤ n) (v : V) (k : ℕ) :
    ∃ v', batchTime readings fn.lift n (v, k) = (.ok ((readings (k + 1) - readings k) / n), (v', k + 2)) := by
  have hne : (n : K) ≠ 0 := Nat.cast_ne_zero.mpr (by omega)
  obtain ⟨v', h⟩ := callTimes_lift hfn n v (k + 1)
  refine ⟨v', ?_⟩
  unfold batchTime
  rw [Prog.run_bind_ok (show perfCounter readings (v, k) = _ from rfl), Prog.run_bind_ok h,
    Prog.run_bind_ok (show perfCounter readings (v', k + 1) = _ from rfl), if_neg hne]
  rfl

/-! ### The same batch size -/

lemma staticCastInt_of_nonneg {x : ℚ} (hx : 0 ≤ x) : staticCastInt x = if x < 2 ^ 31 then some ⌊x⌋ else none := by
  have hfloor : 0 ≤ ⌊x⌋ := Int.floor_nonneg.mpr hx
  have hlt : ⌊x⌋ < 2 ^ 31 ↔ x < 2 ^ 31 := by
    rw [Int.floor_lt]
    norm_num
  have hfits : -2 ^ 31 ≤ ⌊x⌋ ∧ ⌊x⌋ < 2 ^ 31 ↔ x < 2 ^ 31 := by
    rw [hlt]
    exact and_iff_right (by omega)
  unfold staticCastInt truncate
  simp only [if_pos hx, hfits]

/-- On one measured call, the two collectors size the batch alike, and as documented, exactly when the target is
less than 2^31 times the floored time. -/
theorem calibrate_agree_iff (readings : ℕ → ℚ) {fn : Prog V String Unit} (hfn : Terminates fn) {batchTarget : ℚ}
    (htarget : 0 ≤ batchTarget) (v : V) (k : ℕ) :
    (∃ n : ℕ, (calibrate readings fn.lift batchTarget (v, k)).1 = .ok n ∧
      (calibrateCpp readings fn.lift batchTarget (v, k)).1 = .ok (some n) ∧
      (n : ℤ) = max 1 ⌊batchTarget / max (readings (k + 1) - readings k) (1 / 10 ^ 9)⌋) ↔
        batchTarget < 2 ^ 31 * max (readings (k + 1) - readings k) (1 / 10 ^ 9) := by
  have honce : 0 < max (readings (k + 1) - readings k) (1 / 10 ^ 9) := lt_max_of_lt_right (by norm_num)
  obtain ⟨v₁, hpython⟩ := calibrate_lift readings hfn batchTarget v k
  obtain ⟨v₂, hcpp⟩ := calibrateCpp_lift readings hfn batchTarget v k
  rw [hpython, hcpp, ← div_lt_iff₀ honce]
  have hquotient : 0 ≤ batchTarget / max (readings (k + 1) - readings k) (1 / 10 ^ 9) := div_nonneg htarget honce.le
  generalize batchTarget / max (readings (k + 1) - readings k) (1 / 10 ^ 9) = x at *
  have hcount : ((max 1 ⌊x⌋).toNat : ℤ) = max 1 ⌊x⌋ := Int.toNat_of_nonneg (by omega)
  rw [staticCastInt_of_nonneg hquotient, truncate, if_pos hquotient]
  constructor
  · rintro ⟨n, -, hn, -⟩
    by_contra hlarge
    rw [if_neg hlarge] at hn
    cases hn
  · intro hsmall
    refine ⟨(max 1 ⌊x⌋).toNat, rfl, ?_, hcount⟩
    rw [if_pos hsmall, hcount]
    rfl

def idle : Prog Unit String Unit := pure ()

lemma idle_terminates : Terminates idle := fun _ => ⟨(), rfl⟩

def milliseconds (k : ℕ) : ℚ := k / 1000

theorem calibrate_agree_default :
    ∃ n : ℕ, (calibrate milliseconds idle.lift (5 / 1000) ((), 0)).1 = .ok n ∧
      (calibrateCpp milliseconds idle.lift (5 / 1000) ((), 0)).1 = .ok (some (n : ℤ)) := by
  have hsmall : (5 / 1000 : ℚ) < 2 ^ 31 * max (milliseconds (0 + 1) - milliseconds 0) (1 / 10 ^ 9) := by
    norm_num [milliseconds]
  obtain ⟨n, hpython, hcpp, -⟩ :=
    (calibrate_agree_iff milliseconds idle_terminates (by norm_num) () 0).mpr hsmall
  exact ⟨n, hpython, hcpp⟩

/-- Three seconds and a call below the clock's resolution: three thousand million rounds in Python, a conversion
out of range in C++. -/
theorem calibrate_out_of_range :
    (calibrate (fun _ => (0 : ℚ)) idle.lift 3 ((), 0)).1 = .ok 3000000000 ∧
      (calibrateCpp (fun _ => (0 : ℚ)) idle.lift 3 ((), 0)).1 = .ok none := by
  have hquotient : (3 : ℚ) / max (0 - 0) (1 / 10 ^ 9) = (3000000000 : ℤ) := by norm_num
  obtain ⟨_, hpython⟩ := calibrate_lift (fun _ => (0 : ℚ)) idle_terminates 3 () 0
  obtain ⟨_, hcpp⟩ := calibrateCpp_lift (fun _ => (0 : ℚ)) idle_terminates 3 () 0
  have hrange : ¬((3000000000 : ℤ) : ℚ) < 2 ^ 31 := by norm_num
  rw [hpython, hcpp, hquotient, staticCastInt_of_nonneg (by norm_num), if_neg hrange, truncate, if_pos (by norm_num),
    Int.floor_intCast]
  exact ⟨rfl, rfl⟩

end SciForge.Bench
