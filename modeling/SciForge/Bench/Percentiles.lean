import SciForge.Bench.Stats
import Mathlib.Data.Rat.Floor
import Mathlib.Algebra.Ring.Parity
import Mathlib.Tactic.Linarith

/-!
# The percentile bounds

The two indices of the bounds are mirror images, the lower one a rounded share of the count. It stays in the
lower half except at a level so near zero that half of the values or more are rounded away.
-/

namespace SciForge.Bench

/-! ### Rounding -/

/-- `round`: the nearest integer, the even one of two. -/
def ratRound (x : ℚ) : ℤ :=
  if Int.fract x < 1 / 2 then ⌊x⌋
  else if 1 / 2 < Int.fract x then ⌊x⌋ + 1
  else if Even ⌊x⌋ then ⌊x⌋
  else ⌊x⌋ + 1

/-- `k` is nearest to `x`, and even when another integer is as near. -/
structure Nearest (x : ℚ) (k : ℤ) : Prop where
  below : (k : ℚ) - 1 / 2 ≤ x
  above : x ≤ k + 1 / 2
  tie : x = k - 1 / 2 ∨ x = k + 1 / 2 → Even k

lemma ratRound_nearest (x : ℚ) : Nearest x (ratRound x) := by
  have hsplit := Int.floor_add_fract x
  have hpos := Int.fract_nonneg x
  have hlt := Int.fract_lt_one x
  unfold ratRound
  split_ifs with hlow hhigh heven
  · refine ⟨by linarith, by linarith, ?_⟩
    rintro (h | h) <;> linarith
  · refine ⟨by push_cast; linarith, by push_cast; linarith, ?_⟩
    push_cast
    rintro (h | h) <;> linarith
  · exact ⟨by linarith, by linarith, fun _ => heven⟩
  · refine ⟨by push_cast; linarith, by push_cast; linarith, fun _ => ?_⟩
    exact Int.even_add_one.mpr heven

lemma Nearest.le {x y : ℚ} {a b : ℤ} (ha : Nearest x a) (hb : Nearest y b) (h : x ≤ y) : a ≤ b := by
  by_contra hlt
  have hnext : b + 1 ≤ a := by omega
  have hcast : (b : ℚ) + 1 ≤ a := by exact_mod_cast hnext
  have hbelow := ha.below
  have habove := hb.above
  -- both are the midpoint between `b` and `a`, so both integers are even
  have hx : x = a - 1 / 2 := by linarith
  have hy : y = b + 1 / 2 := by linarith
  have hab : a = b + 1 := by
    have : (a : ℚ) = b + 1 := by linarith
    exact_mod_cast this
  have heven := ha.tie (.inl hx)
  rw [hab, Int.even_add_one] at heven
  exact heven (hb.tie (.inr hy))

/-- Exact arithmetic on the rationals; the bounds use neither `log` nor `exp`. -/
def rationalArithmetic (log exp : ℚ → Except String ℚ) : Arithmetic ℚ where
  lit q := q
  add x y := x + y
  sub x y := x - y
  mul x y := x * y
  div x y := if y = 0 then .error "ZeroDivisionError" else .ok (x / y)
  lt x y := decide (x < y)
  le x y := decide (x ≤ y)
  nonzero x := decide (x ≠ 0)
  fsum xs := xs.foldr (fun x sum => x + sum) 0
  log := log
  exp := exp
  round := ratRound

/-! ### Positions -/

/-- How many values the level leaves on each side, before the clamp. -/
def tailCount (count : ℕ) (level : ℚ) : ℤ := ratRound ((1 - level) / 2 * count)

def lowPosition (count : ℕ) (level : ℚ) : ℕ := (clamp (tailCount count level) count).toNat

def highPosition (count : ℕ) (level : ℚ) : ℕ := (clamp (count - 1 - tailCount count level) count).toNat

/-- Half of the values or more are rounded to one side: the level is less than a count's share, or just that of
a multiple of four, or zero for a count one below such a multiple. -/
def Crosses (count : ℕ) (level : ℚ) : Prop :=
  count % 2 = 0 ∧ (level * count < 1 ∨ level * count = 1 ∧ count % 4 = 0) ∨ count % 4 = 3 ∧ level = 0

/-- The two values next to the middle are equal. -/
def MiddleEqual (ordered : List ℚ) : Prop := ordered[ordered.length / 2 - 1]? = ordered[(ordered.length + 1) / 2]?

instance (ordered : List ℚ) : Decidable (MiddleEqual ordered) :=
  inferInstanceAs (Decidable (ordered[ordered.length / 2 - 1]? = ordered[(ordered.length + 1) / 2]?))

/-- The bounds at two levels, the second not the lower one: in order, nested, and each balanced. -/
structure BoundsOrdered (A : Arithmetic ℚ) (ordered : List ℚ) (level level' : ℚ) : Prop where
  bounds : ∃ low high low' high', percentileBounds A ordered level = .ok (low, high) ∧
    percentileBounds A ordered level' = .ok (low', high') ∧ low' ≤ low ∧ low ≤ high ∧ high ≤ high'
  balanced : ∀ l, l = level ∨ l = level' →
    lowPosition ordered.length l = ordered.length - 1 - highPosition ordered.length l

section

variable {count : ℕ} {level level' : ℚ}

lemma tailCount_nearest (count : ℕ) (level : ℚ) :
    Nearest ((count - level * count) / 2) (tailCount count level) := by
  have hx : (1 - level) / 2 * count = (count - level * count) / 2 := by ring
  exact hx ▸ ratRound_nearest ((1 - level) / 2 * count)

lemma tailCount_nonneg (count : ℕ) (h1 : level < 1) : 0 ≤ tailCount count level := by
  have hbelow := (tailCount_nearest count level).above
  have hn : (0 : ℚ) ≤ count := Nat.cast_nonneg count
  have hshare : level * count ≤ count := by nlinarith
  have hcast : (-1 : ℚ) < tailCount count level := by linarith
  have hint : -1 < tailCount count level := by exact_mod_cast hcast
  omega

lemma level_share_nonneg (count : ℕ) (h0 : 0 ≤ level) : 0 ≤ level * count := mul_nonneg h0 (Nat.cast_nonneg count)

lemma tailCount_le_half (count : ℕ) (h0 : 0 ≤ level) : 2 * tailCount count level ≤ count + 1 := by
  have hbelow := (tailCount_nearest count level).below
  have hshare := level_share_nonneg count h0
  have hcast : (2 : ℚ) * tailCount count level ≤ count + 1 := by linarith
  exact_mod_cast hcast

lemma tailCount_above_half (h0 : 0 ≤ level) (h : 2 * tailCount count level = count + 1) :
    level * count = 0 ∧ Even (tailCount count level) := by
  have hnear := tailCount_nearest count level
  have hbelow := hnear.below
  have hshare := level_share_nonneg count h0
  have hcast : (2 : ℚ) * tailCount count level = count + 1 := by exact_mod_cast h
  have hzero : level * count = 0 := by linarith
  exact ⟨hzero, hnear.tie (.inl (by rw [hzero]; linarith))⟩

lemma tailCount_lt (h0 : 0 ≤ level) (hcount : 0 < count) : tailCount count level ≤ count - 1 := by
  have hhalf := tailCount_le_half count h0
  by_contra hlt
  have htop : 2 * tailCount count level = count + 1 := by omega
  obtain ⟨k, hk⟩ := (tailCount_above_half h0 htop).2
  omega

lemma tailCount_anti (count : ℕ) (h : level ≤ level') : tailCount count level' ≤ tailCount count level := by
  refine (tailCount_nearest count level').le (tailCount_nearest count level) ?_
  have hn : (0 : ℚ) ≤ count := Nat.cast_nonneg count
  have hshare : level * count ≤ level' * count := mul_le_mul_of_nonneg_right h hn
  linarith

lemma crosses_of_half (h0 : 0 ≤ level) (h : (count : ℤ) ≤ 2 * tailCount count level) : Crosses count level := by
  have hhalf := tailCount_le_half count h0
  rcases Nat.even_or_odd' count with ⟨m, hm | hm⟩
  · -- an even count: the tail is its half
    have htail : tailCount count level = m := by omega
    have hnear := tailCount_nearest count level
    have hbelow := hnear.below
    have hcount : (count : ℚ) = 2 * m := by exact_mod_cast hm
    rw [htail, hcount] at hbelow
    push_cast at hbelow
    rw [← hcount] at hbelow
    refine .inl ⟨by omega, ?_⟩
    rcases lt_or_eq_of_le (show level * count ≤ 1 by linarith) with hlt | heq
    · exact .inl hlt
    · have htie : ((count : ℚ) - level * count) / 2 = tailCount count level - 1 / 2 := by
        rw [htail, heq, hcount]
        push_cast
        ring
      obtain ⟨k, hk⟩ := hnear.tie (.inl htie)
      exact .inr ⟨heq, by omega⟩
  · -- an odd count: one more than its half
    have htop : 2 * tailCount count level = count + 1 := by omega
    obtain ⟨hzero, k, hk⟩ := tailCount_above_half h0 htop
    have hpos : (count : ℚ) ≠ 0 := by
      rw [hm]
      positivity
    exact .inr ⟨by omega, (mul_eq_zero.mp hzero).resolve_right hpos⟩

lemma half_of_crosses (h : Crosses count level) : (count : ℤ) ≤ 2 * tailCount count level := by
  have hnear := tailCount_nearest count level
  have habove := hnear.above
  by_contra hlt
  rcases h with ⟨heven, hshare⟩ | ⟨hmod, rfl⟩
  · have hnext : 2 * tailCount count level ≤ count - 2 := by omega
    have hcast : (2 : ℚ) * tailCount count level ≤ count - 2 := by exact_mod_cast hnext
    rcases hshare with hless | ⟨heq, hfour⟩
    · linarith
    · have htie : ((count : ℚ) - level * count) / 2 = tailCount count level + 1 / 2 := by linarith
      obtain ⟨k, hk⟩ := hnear.tie (.inr htie)
      have hback : (count : ℚ) - 2 ≤ 2 * tailCount count level := by linarith
      have hint : (count : ℤ) - 2 ≤ 2 * tailCount count level := by exact_mod_cast hback
      omega
  · have hnext : 2 * tailCount count 0 ≤ count - 1 := by omega
    have hcast : (2 : ℚ) * tailCount count 0 ≤ count - 1 := by exact_mod_cast hnext
    have htie : ((count : ℚ) - 0 * count) / 2 = tailCount count 0 + 1 / 2 := by linarith
    obtain ⟨k, hk⟩ := hnear.tie (.inr htie)
    have hback : (count : ℚ) - 1 ≤ 2 * tailCount count 0 := by linarith
    have hint : (count : ℤ) - 1 ≤ 2 * tailCount count 0 := by exact_mod_cast hback
    omega

/-- The lower index passes the upper one exactly at those levels. -/
lemma tailCount_crosses (h0 : 0 ≤ level) : (count : ℤ) ≤ 2 * tailCount count level ↔ Crosses count level :=
  ⟨crosses_of_half h0, half_of_crosses⟩

lemma positions_eq (h0 : 0 ≤ level) (h1 : level < 1) (hcount : 0 < count) :
    (lowPosition count level : ℤ) = tailCount count level ∧
      (highPosition count level : ℤ) = count - 1 - tailCount count level := by
  have hnonneg := tailCount_nonneg count h1
  have hlt := tailCount_lt h0 hcount
  unfold lowPosition highPosition clamp
  omega

end

/-! ### The bounds -/

lemma div_rat (log exp : ℚ → Except String ℚ) {x y : ℚ} (hy : y ≠ 0) :
    (rationalArithmetic log exp).div x y = .ok (x / y) := if_neg hy

lemma percentileBounds_rat (log exp : ℚ → Except String ℚ) {ordered : List ℚ} {level : ℚ}
    (hlow : lowPosition ordered.length level < ordered.length)
    (hhigh : highPosition ordered.length level < ordered.length) :
    percentileBounds (rationalArithmetic log exp) ordered level =
      .ok (ordered[lowPosition ordered.length level], ordered[highPosition ordered.length level]) := by
  have hhalf : (rationalArithmetic log exp).div (1 - level) 2 = .ok ((1 - level) / 2) :=
    div_rat log exp (by norm_num)
  unfold percentileBounds
  exact bind_eq_ok.mpr ⟨_, hhalf, bind_eq_ok.mpr ⟨_, item_of_lt hlow, bind_eq_ok.mpr ⟨_, item_of_lt hhigh, rfl⟩⟩⟩

lemma getElem_mono {ordered : List ℚ} (hsorted : ordered.Pairwise (· ≤ ·)) {i j : ℕ} (hij : i ≤ j)
    (hj : j < ordered.length) : ordered[i] ≤ ordered[j] := by
  rcases Nat.lt_or_eq_of_le hij with hlt | rfl
  · exact List.pairwise_iff_getElem.mp hsorted i j (hij.trans_lt hj) hj hlt
  · exact le_rfl

section

variable {ordered : List ℚ} {level level' : ℚ}

/-- At a level that crosses, the two positions are those next to the middle. -/
lemma positions_of_crosses (h0 : 0 ≤ level) (h1 : level < 1) (hcount : 0 < ordered.length)
    (h : Crosses ordered.length level) :
    lowPosition ordered.length level = (ordered.length + 1) / 2 ∧
      highPosition ordered.length level = ordered.length / 2 - 1 := by
  have hpositions := positions_eq h0 h1 hcount
  have hhalf := tailCount_le_half ordered.length h0
  have hcross := (tailCount_crosses h0).mpr h
  omega

/-- The lower value is not above the upper one exactly when the positions are in order or hold equal values. -/
lemma low_le_high_iff (hsorted : ordered.Pairwise (· ≤ ·)) (h0 : 0 ≤ level) (h1 : level < 1)
    (hlow : lowPosition ordered.length level < ordered.length)
    (hhigh : highPosition ordered.length level < ordered.length) :
    ordered[lowPosition ordered.length level] ≤ ordered[highPosition ordered.length level] ↔
      (Crosses ordered.length level → MiddleEqual ordered) := by
  have hcount : 0 < ordered.length := Nat.zero_lt_of_lt hlow
  have hpositions := positions_eq h0 h1 hcount
  constructor
  · intro hle hcross
    have hswap : highPosition ordered.length level ≤ lowPosition ordered.length level := by
      have htail := (tailCount_crosses h0).mpr hcross
      omega
    have heq := le_antisymm (getElem_mono hsorted hswap hlow) hle
    obtain ⟨hl, hh⟩ := positions_of_crosses h0 h1 hcount hcross
    rw [MiddleEqual, ← hl, ← hh, List.getElem?_eq_getElem hlow, List.getElem?_eq_getElem hhigh, heq]
  · intro hmiddle
    by_cases hcross : Crosses ordered.length level
    · obtain ⟨hl, hh⟩ := positions_of_crosses h0 h1 hcount hcross
      have heq := hmiddle hcross
      rw [MiddleEqual, ← hl, ← hh, List.getElem?_eq_getElem hlow, List.getElem?_eq_getElem hhigh,
        Option.some.injEq] at heq
      exact heq.ge
    · have htail := (tailCount_crosses h0).not.mpr hcross
      exact getElem_mono hsorted (by omega) hhigh

/-- The bounds of two levels are ordered, nested and balanced exactly when the lower level does not cross the
middle, or the values next to it are equal. -/
theorem percentileBounds_ordered_iff (log exp : ℚ → Except String ℚ) (ordered : List ℚ) (level level' : ℚ)
    (hne : ordered ≠ []) (hsorted : ordered.Pairwise (· ≤ ·)) (h0 : 0 ≤ level) (hle : level ≤ level')
    (h1 : level' < 1) :
    BoundsOrdered (rationalArithmetic log exp) ordered level level' ↔
      (Crosses ordered.length level → MiddleEqual ordered) := by
  have hcount : 0 < ordered.length := List.length_pos_of_ne_nil hne
  have hlt := hle.trans_lt h1
  have hposition := positions_eq h0 hlt hcount
  have hposition' := positions_eq (h0.trans hle) h1 hcount
  have htail := tailCount_anti ordered.length hle
  have hlow : lowPosition ordered.length level < ordered.length := by
    have := tailCount_lt h0 hcount
    omega
  have hlow' : lowPosition ordered.length level' < ordered.length := by omega
  have hhigh : highPosition ordered.length level < ordered.length := by
    have := tailCount_nonneg ordered.length hlt
    omega
  have hhigh' : highPosition ordered.length level' < ordered.length := by
    have := tailCount_nonneg ordered.length h1
    omega
  have hbounds := percentileBounds_rat log exp hlow hhigh
  have hbounds' := percentileBounds_rat log exp hlow' hhigh'
  rw [← low_le_high_iff hsorted h0 hlt hlow hhigh]
  constructor
  · rintro ⟨⟨low, high, low', high', h, -, -, hle, -⟩, -⟩
    obtain ⟨rfl, rfl⟩ := Prod.mk.inj (Except.ok.inj (hbounds.symm.trans h))
    exact hle
  · intro horder
    refine ⟨⟨_, _, _, _, hbounds, hbounds', getElem_mono hsorted (by omega) hlow, horder,
      getElem_mono hsorted (by omega) hhigh'⟩, ?_⟩
    rintro l (rfl | rfl) <;> omega

end

theorem percentileBounds_ordered_median : BoundsOrdered (rationalArithmetic (fun _ => .error "") (fun _ => .error ""))
    [1, 2, 3] (1 / 2) (1 / 2) ↔ (Crosses 3 (1 / 2) → MiddleEqual [1, 2, 3]) :=
  percentileBounds_ordered_iff _ _ [1, 2, 3] (1 / 2) (1 / 2) (by decide) (by decide) (by norm_num) le_rfl (by norm_num)

/-- Two values at level zero: the bounds come out as `(2, 1)`. -/
theorem percentileBounds_inverted : ¬∀ (log exp : ℚ → Except String ℚ) (ordered : List ℚ) (level level' : ℚ),
    ordered ≠ [] → ordered.Pairwise (· ≤ ·) → 0 ≤ level → level ≤ level' → level' < 1 →
    BoundsOrdered (rationalArithmetic log exp) ordered level level' := by
  have hsorted : [(1 : ℚ), 2].Pairwise (· ≤ ·) := by decide
  have hcross : Crosses [(1 : ℚ), 2].length 0 := .inl ⟨rfl, .inl (by norm_num)⟩
  obtain ⟨hl, hh⟩ := positions_of_crosses le_rfl zero_lt_one (by decide) hcross
  have hlow : lowPosition [(1 : ℚ), 2].length 0 < [(1 : ℚ), 2].length := by rw [hl]; decide
  have hhigh : highPosition [(1 : ℚ), 2].length 0 < [(1 : ℚ), 2].length := by rw [hh]; decide
  intro h
  obtain ⟨low, high, low', high', hbounds, -, -, hle, -⟩ :=
    (h (fun _ => .error "") (fun _ => .error "") [1, 2] 0 0 (by decide) hsorted le_rfl le_rfl zero_lt_one).bounds
  rw [percentileBounds_rat _ _ hlow hhigh] at hbounds
  obtain ⟨rfl, rfl⟩ := Prod.mk.inj (Except.ok.inj hbounds)
  have hmiddle := (low_le_high_iff hsorted le_rfl zero_lt_one hlow hhigh).mp hle hcross
  exact absurd hmiddle (by decide)

end SciForge.Bench
