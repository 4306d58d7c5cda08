import SciForge.Bench.Quartiles
import SciForge.Lib.Bisect
import Mathlib.Logic.Function.Basic

/-!
# The cumulative distribution as text

`ascii_ecdf`: a grid whose columns are filled from the bottom up to the share of the samples at or below their value.
-/

namespace SciForge.Bench

variable {F α : Type}

/-! ### Lists that are written to -/

/-- A negative index counts from the end. -/
def fromStart (size : ℕ) (index : ℤ) : ℤ := if index < 0 then index + size else index

def place (size : ℕ) (index : ℤ) : Except String ℕ :=
  if 0 ≤ fromStart size index ∧ fromStart size index < size then .ok (fromStart size index).toNat
  else .error "IndexError"

/-- `values[index]`. -/
def itemAt (values : List α) (index : ℤ) : Except String α := do
  let i ← place values.length index
  item values i

/-- `values[index] = value`. -/
def setItem (values : List α) (index : ℤ) (value : α) : Except String (List α) := do
  let i ← place values.length index
  return values.set i value

/-- `grid[row][col] = cell`. -/
def setCell (grid : List (List α)) (row col : ℤ) (cell : α) : Except String (List (List α)) := do
  let cells ← itemAt grid row
  let cells ← setItem cells col cell
  setItem grid row cells

/-! ### The plot -/

/-- `max(a, b)`. -/
def maxOf (A : Arithmetic F) (a b : F) : F := if A.lt a b then b else a

/-- `for r in range(filled): grid[height - 1 - r][col] = "█"`, from `r` on. -/
def fillColumn (height col : ℕ) : ℕ → ℕ → List (List Char) → Except String (List (List Char))
  | _, 0, grid => return grid
  | r, filled + 1, grid => do
    let grid ← setCell grid (height - 1 - r) col '█'
    fillColumn height col (r + 1) filled grid

/-- How far a column is filled. -/
def ecdfFilled (A : Arithmetic F) (keys : List F) (low span : F) (width height col : ℕ) : Except String ℤ := do
  let share ← A.div (A.lit col) (A.lit (width - 1))
  let x := A.add low (A.mul span share)
  let frac ← A.div (A.lit (bisect (A.lt x) keys 0 keys.length)) (A.lit keys.length)
  return A.round (A.mul frac (A.lit height))

/-- The columns from `col` on. -/
def ecdfColumns (A : Arithmetic F) (keys : List F) (low span : F) (width height : ℕ) :
    ℕ → ℕ → List (List Char) → Except String (List (List Char))
  | _, 0, grid => return grid
  | col, columns + 1, grid => do
    let filled ← ecdfFilled A keys low span width height col
    let grid ← fillColumn height col 0 filled.toNat grid
    ecdfColumns A keys low span width height (col + 1) columns grid

/-- `keys[-1] - keys[0] or 1.0`, over the ends of the ordered keys. -/
def spanOf (A : Arithmetic F) (low high : F) : F := if A.nonzero (A.sub high low) then A.sub high low else A.lit 1

def ecdfGrid (A : Arithmetic F) (keys : List F) (width height : ℕ) : Except String (List (List Char)) := do
  let low ← itemAt keys 0
  let high ← itemAt keys (-1)
  ecdfColumns A keys low (spanOf A low high) width height 0 width
    (List.replicate height (List.replicate width ' '))

def tick (height r : ℕ) : List Char :=
  if r = 0 then ['1', '.', '0'] else if r = height - 1 then ['0', '.', '0'] else [' ', ' ', ' ']

/-- The row of a grid in its frame. -/
def framed (label cells : List Char) : List Char := label ++ [' ', '│'] ++ cells ++ ['│']

def ecdfFoot (width : ℕ) : List Char := List.replicate 4 ' ' ++ ['└'] ++ List.replicate width '─' ++ ['┘']

/-- The labels of the axis; `shown` is the format `.2g`. -/
def ecdfLabels (shown : F → List Char) (first last : F) (width : ℕ) (log : Bool) : List Char :=
  let low := shown first
  let high := shown last ++ if log then " (log)".toList else []
  let pad := max ((width : ℤ) - low.length - high.length) 1
  List.replicate 5 ' ' ++ low ++ List.replicate pad.toNat ' ' ++ high

/-- The keys of the value axis, in the order of the samples. -/
def ecdfKeys (A : Arithmetic F) (log : Bool) (ordered : List F) : Except String (List F) :=
  if log then ordered.mapM (fun v => A.log (maxOf A v (A.lit (1 / 10 ^ 12)))) else .ok ordered

/-- `max(width, 8)` and `max(height, 3)`. -/
def gridWidth (width : ℤ) : ℕ := (max width 8).toNat

def gridHeight (height : ℤ) : ℕ := (max height 3).toNat

def asciiEcdf (A : Arithmetic F) (shown : F → List Char) (samples : List F) (width height : ℤ) (log : Bool) :
    Except String (List Char) :=
  let ordered := sorted A samples
  if ordered.length = 0 then return []
  else do
    let keys ← ecdfKeys A log ordered
    let width := gridWidth width
    let height := gridHeight height
    let grid ← ecdfGrid A keys width height
    let first ← itemAt ordered 0
    let last ← itemAt ordered (-1)
    let rows := grid.mapIdx fun r cells => framed (tick height r) cells
    return ['\n'].intercalate (rows ++ [ecdfFoot width, ecdfLabels shown first last width log])

/-! ### Pictures -/

/-- A row of cells. -/
def row (width : ℕ) (f : ℕ → α) : List α := (List.range width).map f

@[simp] lemma length_row (width : ℕ) (f : ℕ → α) : (row width f).length = width := by simp [row]

@[simp] lemma getElem_row {width i : ℕ} (f : ℕ → α) (h : i < (row width f).length) : (row width f)[i] = f i := by
  simp [row]

lemma row_congr {width : ℕ} {f g : ℕ → α} (h : ∀ i < width, f i = g i) : row width f = row width g :=
  List.map_congr_left (fun i hi => h i (List.mem_range.mp hi))

lemma place_of_lt {size i : ℕ} (h : i < size) : place size i = .ok i := by
  have hstart : fromStart size i = i := if_neg (by omega)
  unfold place
  rw [hstart, if_pos (by omega)]
  rfl

lemma place_last {size : ℕ} (h : 0 < size) : place size (-1) = .ok (size - 1) := by
  have hstart : fromStart size (-1) = -1 + size := if_pos (by omega)
  have hvalue : (-1 + (size : ℤ)).toNat = size - 1 := by omega
  unfold place
  rw [hstart, if_pos (by omega), hvalue]

lemma itemAt_row {width i : ℕ} (h : i < width) (f : ℕ → α) : itemAt (row width f) i = .ok (f i) := by
  unfold itemAt
  rw [length_row, place_of_lt h]
  change item (row width f) i = _
  rw [item_of_lt (by simpa using h), getElem_row]

lemma setItem_row {width i : ℕ} (h : i < width) (f : ℕ → α) (value : α) :
    setItem (row width f) i value = .ok (row width (Function.update f i value)) := by
  unfold setItem
  rw [length_row, place_of_lt h]
  change Except.ok ((row width f).set i value) = _
  refine congrArg Except.ok (List.ext_getElem (by simp) (fun j hj hj' => ?_))
  rw [List.getElem_set, getElem_row, getElem_row, Function.update_apply]
  by_cases hij : i = j
  · rw [if_pos hij, if_pos hij.symm]
  · rw [if_neg hij, if_neg (Ne.symm hij)]

/-- The grid whose columns are filled so far from the bottom. -/
def picture (height width : ℕ) (filled : ℕ → ℕ) : List (List Char) :=
  row height fun r => row width fun col => if height ≤ r + filled col then '█' else ' '

lemma picture_congr {height width : ℕ} {f g : ℕ → ℕ} (h : ∀ col < width, f col = g col) :
    picture height width f = picture height width g :=
  row_congr (fun r _ => row_congr (fun col hcol => by rw [h col hcol]))

lemma picture_zero (height width : ℕ) :
    picture height width (fun _ => 0) = List.replicate height (List.replicate width ' ') := by
  have hconst : ∀ {β : Type} (n : ℕ) (c : β), row n (fun _ => c) = List.replicate n c := by
    intro β n c
    simp [row]
  have hempty : ∀ r < height, row width (fun _ => if height ≤ r + 0 then '█' else ' ') = List.replicate width ' ' := by
    intro r hr
    rw [if_neg (by omega), hconst]
  exact (row_congr hempty).trans (hconst _ _)

lemma setCell_picture {height width r col : ℕ} (hr : r < height) (hcol : col < width) {filled : ℕ → ℕ}
    (hfilled : filled col = r) :
    setCell (picture height width filled) (height - 1 - r) col '█' =
      .ok (picture height width (Function.update filled col (r + 1))) := by
  have hrow : ((height : ℤ) - 1 - r) = ((height - 1 - r : ℕ) : ℤ) := by omega
  have hlt : height - 1 - r < height := by omega
  unfold setCell picture
  rw [hrow, itemAt_row hlt]
  change (do
    let cells ← setItem (row width _) col '█'
    setItem (row height _) _ cells) = _
  rw [setItem_row hcol]
  change setItem (row height _) _ _ = _
  rw [setItem_row hlt]
  refine congrArg Except.ok (row_congr (fun i hi => ?_))
  by_cases hir : i = height - 1 - r
  · subst hir
    rw [Function.update_self]
    refine row_congr (fun j _ => ?_)
    by_cases hj : j = col
    · subst hj
      rw [Function.update_self, Function.update_self, if_pos (by omega)]
    · rw [Function.update_of_ne hj, Function.update_of_ne hj]
  · rw [Function.update_of_ne hir]
    refine row_congr (fun j _ => ?_)
    by_cases hj : j = col
    · subst hj
      rw [Function.update_self, hfilled]
      have hsame : height ≤ i + r ↔ height ≤ i + (r + 1) := by omega
      simp only [hsame]
    · rw [Function.update_of_ne hj]

lemma fillColumn_picture {height width col : ℕ} (hcol : col < width) (count : ℕ) {r : ℕ} (hr : r + count ≤ height)
    {filled : ℕ → ℕ} (hfilled : filled col = r) :
    fillColumn height col r count (picture height width filled) =
      .ok (picture height width (Function.update filled col (r + count))) := by
  induction count generalizing r filled with
  | zero =>
    rw [Nat.add_zero, ← hfilled, Function.update_eq_self]
    rfl
  | succ count ih =>
    rw [fillColumn, setCell_picture (by omega) hcol hfilled]
    change fillColumn height col (r + 1) count _ = _
    rw [ih (by omega) (Function.update_self _ _ _), Function.update_idem]
    have hcount : r + 1 + count = r + (count + 1) := by omega
    rw [hcount]

/-- When every column can be computed, the grid is the picture of all of them. -/
lemma ecdfColumns_picture {A : Arithmetic F} {keys : List F} {low span : F} {width height : ℕ} {filled : ℕ → ℕ}
    (hfilled : ∀ col < width, ecdfFilled A keys low span width height col = .ok (filled col : ℤ))
    (hheight : ∀ col < width, filled col ≤ height) (columns : ℕ) {col : ℕ} (hcol : col + columns = width) :
    ecdfColumns A keys low span width height col columns
        (picture height width (fun c => if c < col then filled c else 0)) = .ok (picture height width filled) := by
  induction columns generalizing col with
  | zero =>
    refine congrArg Except.ok (picture_congr (fun c hc => if_pos ?_))
    omega
  | succ columns ih =>
    have hlt : col < width := by omega
    have hnext : picture height width (Function.update (fun c => if c < col then filled c else 0) col
        (0 + ((filled col : ℕ) : ℤ).toNat)) = picture height width (fun c => if c < col + 1 then filled c else 0) := by
      refine picture_congr (fun c _ => ?_)
      by_cases hc : c = col
      · subst hc
        rw [Function.update_self, if_pos (by omega)]
        omega
      · have hsame : c < col + 1 ↔ c < col := by omega
        rw [Function.update_of_ne hc]
        simp only [hsame]
    have hmost := hheight col hlt
    have hbefore : (fun c => if c < col then filled c else 0) col = 0 := if_neg (lt_irrefl col)
    have hfill : fillColumn height col 0 ((filled col : ℕ) : ℤ).toNat
        (picture height width fun c => if c < col then filled c else 0) =
          .ok (picture height width (Function.update (fun c => if c < col then filled c else 0) col
            (0 + ((filled col : ℕ) : ℤ).toNat))) := fillColumn_picture hlt _ (by omega) hbefore
    rw [ecdfColumns, hfilled col hlt]
    change (do
      let grid ← fillColumn height col 0 ((filled col : ℕ) : ℤ).toNat _
      ecdfColumns A keys low span width height (col + 1) columns grid) = _
    rw [hfill, hnext]
    exact ih (by omega)

/-! ### Shares -/

/-- The value of a column: the first stands for the lowest key, the last for the highest. -/
def columnAt (low high : ℚ) (width col : ℕ) : ℚ := low + (if high - low ≠ 0 then high - low else 1) * (col / (width - 1))

/-- The share of the keys at or below a value. -/
def shareAt (keys : List ℚ) (x : ℚ) : ℚ := keys.countP (fun k => decide (k ≤ x)) / keys.length

def filledAt (keys : List ℚ) (low high : ℚ) (width height col : ℕ) : ℕ :=
  (ratRound (shareAt keys (columnAt low high width col) * height)).toNat

section

variable {keys : List ℚ} {low high : ℚ} {width height : ℕ}

lemma shareAt_nonneg (keys : List ℚ) (x : ℚ) : 0 ≤ shareAt keys x := div_nonneg (Nat.cast_nonneg _) (Nat.cast_nonneg _)

lemma shareAt_le_one (keys : List ℚ) (x : ℚ) : shareAt keys x ≤ 1 :=
  div_le_one_of_le₀ (Nat.cast_le.mpr List.countP_le_length) (Nat.cast_nonneg _)

lemma shareAt_mono (keys : List ℚ) {x y : ℚ} (h : x ≤ y) : shareAt keys x ≤ shareAt keys y := by
  refine div_le_div_of_nonneg_right (Nat.cast_le.mpr ?_) (Nat.cast_nonneg _)
  exact List.countP_mono_left (fun k _ hk => decide_eq_true ((of_decide_eq_true hk).trans h))

lemma shareAt_of_le (hne : keys ≠ []) {x : ℚ} (h : ∀ k ∈ keys, k ≤ x) : shareAt keys x = 1 := by
  have hcount : keys.countP (fun k => decide (k ≤ x)) = keys.length :=
    List.countP_eq_length.mpr (fun k hk => decide_eq_true (h k hk))
  have hlength : (keys.length : ℚ) ≠ 0 := Nat.cast_ne_zero.mpr (fun h => hne (List.length_eq_zero_iff.mp h))
  unfold shareAt
  rw [hcount, div_self hlength]

lemma columnAt_mono (hlow : low ≤ high) (hwidth : 2 ≤ width) {i j : ℕ} (hij : i ≤ j) :
    columnAt low high width i ≤ columnAt low high width j := by
  have hspan : (0 : ℚ) ≤ if high - low ≠ 0 then high - low else 1 := by
    split
    · linarith
    · exact zero_le_one
  have hwide : (0 : ℚ) ≤ width - 1 := by
    have h2 : (2 : ℚ) ≤ width := by exact_mod_cast hwidth
    linarith
  refine (add_le_add_iff_left low).mpr (mul_le_mul_of_nonneg_left ?_ hspan)
  exact div_le_div_of_nonneg_right (Nat.cast_le.mpr hij) hwide

lemma high_le_columnAt (hwidth : 2 ≤ width) : high ≤ columnAt low high width (width - 1) := by
  have h2 : (2 : ℚ) ≤ width := by exact_mod_cast hwidth
  have hne : (width : ℚ) - 1 ≠ 0 := by linarith
  have hcast : ((width - 1 : ℕ) : ℚ) = width - 1 := by
    rw [Nat.cast_sub (by omega)]
    rfl
  unfold columnAt
  rw [hcast, div_self hne, mul_one]
  split
  · linarith
  · next h =>
    have hequal : high - low = 0 := not_ne_iff.mp h
    linarith

lemma nearest_height (height : ℕ) : Nearest height height where
  below := by push_cast; linarith
  above := by push_cast; linarith
  tie := by
    push_cast
    rintro (h | h) <;> linarith

lemma nearest_zero : Nearest 0 0 := nearest_height 0

lemma round_share (keys : List ℚ) (x : ℚ) (height : ℕ) :
    0 ≤ ratRound (shareAt keys x * height) ∧ ratRound (shareAt keys x * height) ≤ height := by
  have hnearest := ratRound_nearest (shareAt keys x * height)
  have hpos : (0 : ℚ) ≤ height := Nat.cast_nonneg _
  constructor
  · exact nearest_zero.le hnearest (mul_nonneg (shareAt_nonneg keys x) hpos)
  · exact hnearest.le (nearest_height height) (mul_le_of_le_one_left hpos (shareAt_le_one keys x))

lemma filledAt_cast (keys : List ℚ) (low high : ℚ) (width height col : ℕ) :
    (filledAt keys low high width height col : ℤ) = ratRound (shareAt keys (columnAt low high width col) * height) :=
  Int.toNat_of_nonneg (round_share keys _ height).1

/-- How the columns are filled: to the nearest of their share, never down again, and the last one to the top. -/
structure Fills (keys : List ℚ) (low high : ℚ) (width height : ℕ) (filled : ℕ → ℕ) : Prop where
  near : ∀ col, |(filled col : ℚ) - shareAt keys (columnAt low high width col) * height| ≤ 1 / 2
  within : ∀ col, filled col ≤ height
  mono : ∀ i j, i ≤ j → filled i ≤ filled j
  top : filled (width - 1) = height

lemma filledAt_fills (hne : keys ≠ []) (hleast : low ≤ high) (hhigh : ∀ k ∈ keys, k ≤ high) (hwidth : 2 ≤ width) :
    Fills keys low high width height (filledAt keys low high width height) where
  near col := by
    have hnearest := ratRound_nearest (shareAt keys (columnAt low high width col) * height)
    rw [← filledAt_cast] at hnearest
    have hbelow := hnearest.below
    have habove := hnearest.above
    push_cast at hbelow habove
    rw [abs_le]
    constructor <;> linarith
  within col := by
    have hmost := (round_share keys (columnAt low high width col) height).2
    rw [← filledAt_cast] at hmost
    exact_mod_cast hmost
  mono i j hij := by
    have hshare := shareAt_mono keys (columnAt_mono hleast hwidth hij)
    have hscaled := mul_le_mul_of_nonneg_right hshare (Nat.cast_nonneg (α := ℚ) height)
    exact Int.toNat_le_toNat ((ratRound_nearest _).le (ratRound_nearest _) hscaled)
  top := by
    have hlast : high ≤ columnAt low high width (width - 1) := high_le_columnAt hwidth
    have hall := shareAt_of_le hne (fun k hk => (hhigh k hk).trans hlast)
    have hround : ratRound (height : ℚ) = height :=
      le_antisymm ((ratRound_nearest _).le (nearest_height height) le_rfl)
        ((nearest_height height).le (ratRound_nearest _) le_rfl)
    unfold filledAt
    rw [hall, one_mul, hround]
    rfl

end

/-! ### The grid of ordered keys -/

section

variable (log exp : ℚ → Except String ℚ) {keys : List ℚ} {width height : ℕ}

lemma itemAt_zero {values : List α} (h : 0 < values.length) : itemAt values 0 = .ok values[0] := by
  have hplace : place values.length 0 = .ok 0 := place_of_lt h
  unfold itemAt
  rw [hplace]
  exact item_of_lt h

lemma itemAt_last {values : List α} (h : 0 < values.length) :
    itemAt values (-1) = .ok values[values.length - 1] := by
  unfold itemAt
  rw [place_last h]
  exact item_of_lt (by omega)

lemma spanOf_rat (low high : ℚ) :
    spanOf (rationalArithmetic log exp) low high = if high - low ≠ 0 then high - low else 1 := by
  unfold spanOf
  change (if decide (high - low ≠ 0) = true then high - low else 1) = _
  simp only [decide_eq_true_eq]

lemma ecdfFilled_rat (hordered : keys.Pairwise (· ≤ ·)) (hne : keys ≠ []) (hwidth : 2 ≤ width) (low high : ℚ)
    (height col : ℕ) :
    ecdfFilled (rationalArithmetic log exp) keys low (spanOf (rationalArithmetic log exp) low high) width height col =
      .ok (filledAt keys low high width height col : ℤ) := by
  have h2 : (2 : ℚ) ≤ width := by exact_mod_cast hwidth
  have hwide : (width : ℚ) - 1 ≠ 0 := by linarith
  have hlength : (keys.length : ℚ) ≠ 0 := Nat.cast_ne_zero.mpr (fun h => hne (List.length_eq_zero_iff.mp h))
  have habove : keys.Pairwise (fun a b => (rationalArithmetic log exp).lt (columnAt low high width col) a = true →
      (rationalArithmetic log exp).lt (columnAt low high width col) b = true) :=
    hordered.imp (fun hab ha => decide_eq_true ((of_decide_eq_true ha).trans_le hab))
  have hboundary : Boundary ((rationalArithmetic log exp).lt (columnAt low high width col)) keys 0 keys.length :=
    ⟨fun _ _ h => absurd h (Nat.not_lt_zero _), fun _ h h' => absurd h' (by omega), Nat.zero_le _, le_rfl⟩
  have hcount : bisect ((rationalArithmetic log exp).lt (columnAt low high width col)) keys 0 keys.length =
      keys.countP (fun k => decide (k ≤ columnAt low high width col)) := by
    rw [bisect_eq habove hboundary]
    refine List.countP_congr (fun k _ => ?_)
    change (!decide (columnAt low high width col < k)) = true ↔ _
    simp
  have hcolumn : (rationalArithmetic log exp).add low ((rationalArithmetic log exp).mul
      (spanOf (rationalArithmetic log exp) low high) ((col : ℚ) / ((width : ℚ) - 1))) = columnAt low high width col := by
    rw [spanOf_rat]
    rfl
  have hshare : (rationalArithmetic log exp).div ((rationalArithmetic log exp).lit col)
      ((rationalArithmetic log exp).lit (width - 1)) = .ok ((col : ℚ) / ((width : ℚ) - 1)) := div_rat log exp hwide
  have hfrac : (rationalArithmetic log exp).div ((rationalArithmetic log exp).lit
      (keys.countP (fun k => decide (k ≤ columnAt low high width col)) : ℕ)) ((rationalArithmetic log exp).lit keys.length) =
        .ok (shareAt keys (columnAt low high width col)) := div_rat log exp hlength
  rw [ecdfFilled, hshare, ok_bind]
  dsimp only
  rw [hcolumn, hcount, hfrac, ok_bind, filledAt_cast]
  rfl

lemma ecdfGrid_rat (hordered : keys.Pairwise (· ≤ ·)) (hne : keys ≠ []) (hwidth : 2 ≤ width) (height : ℕ) :
    ∃ low high, IsLeast {k | k ∈ keys} low ∧ IsGreatest {k | k ∈ keys} high ∧
      ecdfGrid (rationalArithmetic log exp) keys width height =
        .ok (picture height width (filledAt keys low high width height)) := by
  have hpos := List.length_pos_of_ne_nil hne
  have hlowest : ∀ k ∈ keys, keys[0] ≤ k := by
    intro k hk
    obtain ⟨i, hi, rfl⟩ := List.mem_iff_getElem.mp hk
    exact Sample.getElem_mono hordered (Nat.zero_le i) hi
  have hhighest : ∀ k ∈ keys, k ≤ keys[keys.length - 1] := by
    intro k hk
    obtain ⟨i, hi, rfl⟩ := List.mem_iff_getElem.mp hk
    exact Sample.getElem_mono hordered (by omega) (by omega)
  refine ⟨keys[0], keys[keys.length - 1], ⟨List.getElem_mem _, hlowest⟩, ⟨List.getElem_mem _, hhighest⟩, ?_⟩
  have hfills : Fills keys keys[0] keys[keys.length - 1] width height
      (filledAt keys keys[0] keys[keys.length - 1] width height) :=
    filledAt_fills hne (hhighest _ (List.getElem_mem _)) hhighest hwidth
  have hfilled := ecdfFilled_rat log exp hordered hne hwidth keys[0] keys[keys.length - 1] height
  have hcolumns := ecdfColumns_picture (fun col _ => hfilled col) (fun col _ => hfills.within col) width
    (Nat.zero_add width)
  have hblank : List.replicate height (List.replicate width ' ') = picture height width
      (fun c => if c < 0 then filledAt keys keys[0] keys[keys.length - 1] width height c else 0) := by
    rw [← picture_zero]
    exact picture_congr (fun c _ => (if_neg (Nat.not_lt_zero c)).symm)
  rw [ecdfGrid, itemAt_zero hpos, ok_bind, itemAt_last hpos, ok_bind, hblank]
  exact hcolumns

end

/-! ### The plot of a sample -/

/-- The keys of the value axis. -/
def axisKeys (L : ℚ → ℚ) (onLog : Bool) (values : List ℚ) : List ℚ :=
  if onLog then values.map (fun v => L (max v (1 / 10 ^ 12))) else values

section

variable {L : ℚ → ℚ} {samples : List ℚ}

lemma axisKeys_perm (L : ℚ → ℚ) (onLog : Bool) {xs ys : List ℚ} (h : xs.Perm ys) :
    (axisKeys L onLog xs).Perm (axisKeys L onLog ys) := by
  unfold axisKeys
  split
  · exact h.map _
  · exact h

lemma axisKeys_ordered (hmono : ∀ x y, 1 / 10 ^ 12 ≤ x → x ≤ y → L x ≤ L y) (onLog : Bool) (samples : List ℚ) :
    (axisKeys L onLog (Sample.inOrder samples)).Pairwise (· ≤ ·) := by
  unfold axisKeys
  split
  · refine List.pairwise_map.mpr ((Sample.pairwise_inOrder samples).imp (fun {x y} hxy => ?_))
    exact hmono _ _ (le_max_right x _) (max_le_max_right _ hxy)
  · exact Sample.pairwise_inOrder samples

lemma axisKeys_ne (hne : samples ≠ []) (onLog : Bool) : axisKeys L onLog (Sample.inOrder samples) ≠ [] := by
  have hordered := Sample.inOrder_ne_nil hne
  unfold axisKeys
  split
  · simpa using hordered
  · exact hordered

lemma maxOf_rat (log exp : ℚ → Except String ℚ) (a b : ℚ) : maxOf (rationalArithmetic log exp) a b = max a b := by
  unfold maxOf
  change (if decide (a < b) = true then b else a) = max a b
  rw [max_def_lt]
  simp only [decide_eq_true_eq]

lemma ecdfKeys_rat {log exp : ℚ → Except String ℚ} (hlog : ∀ x, 1 / 10 ^ 12 ≤ x → log x = .ok (L x)) (onLog : Bool)
    (values : List ℚ) : ecdfKeys (rationalArithmetic log exp) onLog values = .ok (axisKeys L onLog values) := by
  unfold ecdfKeys axisKeys
  split
  · refine mapM_eq_ok.mpr ?_
    rw [List.forall₂_map_right_iff]
    refine List.forall₂_same.mpr (fun v _ => ?_)
    rw [maxOf_rat]
    exact hlog _ (le_max_right _ _)
  · rfl

lemma filledAt_perm {xs ys : List ℚ} (h : xs.Perm ys) (low high : ℚ) (width height : ℕ) :
    filledAt xs low high width height = filledAt ys low high width height := by
  funext col
  unfold filledAt shareAt
  rw [h.countP_eq, h.length_eq]

lemma columnAt_affine {a b low high : ℚ} (ha : 0 < a) (hlow : low < high) (width col : ℕ) :
    columnAt (a * low + b) (a * high + b) width col = a * columnAt low high width col + b := by
  have hspan : high - low ≠ 0 := sub_ne_zero.mpr hlow.ne'
  have hscaled : a * high + b - (a * low + b) = a * (high - low) := by ring
  unfold columnAt
  rw [hscaled, if_pos (mul_ne_zero ha.ne' hspan), if_pos hspan]
  ring

lemma filledAt_affine {a b low high : ℚ} (ha : 0 < a) (hlow : low < high) (keys : List ℚ) (width height : ℕ) :
    filledAt (keys.map fun x => a * x + b) (a * low + b) (a * high + b) width height =
      filledAt keys low high width height := by
  funext col
  unfold filledAt shareAt
  rw [columnAt_affine ha hlow, List.countP_map, List.length_map]
  have hsame : ∀ x, a * x + b ≤ a * columnAt low high width col + b ↔ x ≤ columnAt low high width col := fun x => by
    rw [add_le_add_iff_right, mul_le_mul_iff_right₀ ha]
  simp only [Function.comp_def, hsame]

end

/-- The rows of the plot. -/
def ecdfRows (height width : ℕ) (filled : ℕ → ℕ) : List (List Char) :=
  row height fun r => framed (tick height r) (row width fun col => if height ≤ r + filled col then '█' else ' ')

lemma mapIdx_picture (height width : ℕ) (filled : ℕ → ℕ) :
    ((picture height width filled).mapIdx fun r cells => framed (tick height r) cells) =
      ecdfRows height width filled := by
  refine List.ext_getElem (by simp [picture, ecdfRows]) (fun r hr hr' => ?_)
  have hcells : ∀ h : r < (picture height width filled).length, (picture height width filled)[r] =
      row width fun col => if height ≤ r + filled col then '█' else ' ' := fun h => getElem_row _ h
  have hframed : (ecdfRows height width filled)[r] =
      framed (tick height r) (row width fun col => if height ≤ r + filled col then '█' else ' ') := getElem_row _ hr'
  rw [List.getElem_mapIdx, hcells, hframed]

/-- The plot of a sample is a grid whose columns are filled to the nearest of the share of the sample at or below
them, whatever the order of the sample; its grid does not depend on the unit or on the zero of the values. -/
theorem asciiEcdf_fills {log : ℚ → Except String ℚ} (exp : ℚ → Except String ℚ) {L : ℚ → ℚ}
    (hlog : ∀ x, 1 / 10 ^ 12 ≤ x → log x = .ok (L x)) (hmono : ∀ x y, 1 / 10 ^ 12 ≤ x → x ≤ y → L x ≤ L y)
    (shown : ℚ → List Char) {samples : List ℚ} (hne : samples ≠ []) (width height : ℤ) (onLog : Bool) :
    ∃ low high first last filled,
      (IsLeast {k | k ∈ axisKeys L onLog samples} low ∧ IsGreatest {k | k ∈ axisKeys L onLog samples} high) ∧
      (IsLeast {x | x ∈ samples} first ∧ IsGreatest {x | x ∈ samples} last) ∧
      Fills (axisKeys L onLog samples) low high (gridWidth width) (gridHeight height) filled ∧
      (∀ permuted, permuted.Perm samples →
        asciiEcdf (rationalArithmetic log exp) shown permuted width height onLog =
          .ok (['\n'].intercalate (ecdfRows (gridHeight height) (gridWidth width) filled ++
            [ecdfFoot (gridWidth width), ecdfLabels shown first last (gridWidth width) onLog]))) ∧
      ∀ a b, 0 < a → first < last →
        ecdfGrid (rationalArithmetic log exp) (sorted (rationalArithmetic log exp) (samples.map fun x => a * x + b))
            (gridWidth width) (gridHeight height) =
          ecdfGrid (rationalArithmetic log exp) (sorted (rationalArithmetic log exp) samples) (gridWidth width)
            (gridHeight height) := by
  have hA := rationalArithmetic_exact log exp
  have hwidth : 2 ≤ gridWidth width := by
    unfold gridWidth
    omega
  have hordered := Sample.inOrder_ne_nil hne
  have hpos := List.length_pos_of_ne_nil hordered
  have hperm := axisKeys_perm L onLog (Sample.inOrder_perm samples)
  obtain ⟨low, high, hlow, hhigh, hgrid⟩ := ecdfGrid_rat log exp (axisKeys_ordered hmono onLog samples)
    (axisKeys_ne hne onLog) hwidth (gridHeight height)
  obtain ⟨first, last, hfirst, hlast, hplain⟩ := ecdfGrid_rat log exp (Sample.pairwise_inOrder samples) hordered hwidth
    (gridHeight height)
  have hmem : {k | k ∈ axisKeys L onLog (Sample.inOrder samples)} = {k | k ∈ axisKeys L onLog samples} := by
    ext k
    exact hperm.mem_iff
  have hmem' : {x | x ∈ Sample.inOrder samples} = {x | x ∈ samples} := by
    ext x
    exact Sample.mem_inOrder
  have hfirst' : (Sample.inOrder samples)[0] = first := (Sample.isLeast_inOrder hpos).unique (hmem' ▸ hfirst)
  have hlast' : (Sample.inOrder samples)[(Sample.inOrder samples).length - 1] = last := by
    have hgreatest : IsGreatest {x | x ∈ Sample.inOrder samples}
        ((Sample.inOrder samples)[(Sample.inOrder samples).length - 1]) := by
      refine ⟨List.getElem_mem _, fun x hx => ?_⟩
      obtain ⟨i, hi, rfl⟩ := List.mem_iff_getElem.mp hx
      exact Sample.getElem_mono (Sample.pairwise_inOrder samples) (by omega) (by omega)
    exact hgreatest.unique hlast
  refine ⟨low, high, first, last, filledAt (axisKeys L onLog samples) low high (gridWidth width) (gridHeight height),
    hmem ▸ ⟨hlow, hhigh⟩, hmem' ▸ ⟨hfirst, hlast⟩, ?_, ?_, ?_⟩
  · rw [hmem] at hlow hhigh
    refine filledAt_fills ?_ (hhigh.2 hlow.1) hhigh.2 hwidth
    rintro hnil
    rw [hnil] at hlow
    exact absurd hlow.1 List.not_mem_nil
  · intro permuted hpermuted
    have hsorted : sorted (rationalArithmetic log exp) permuted = Sample.inOrder samples := by
      rw [sorted_exact hA, Sample.inOrder_congr hpermuted]
    unfold asciiEcdf
    rw [hsorted, if_neg hpos.ne', ecdfKeys_rat hlog, ok_bind]
    dsimp only
    rw [hgrid, ok_bind, itemAt_zero hpos, ok_bind, itemAt_last hpos, ok_bind, hfirst', hlast', mapIdx_picture,
      filledAt_perm hperm]
    rfl
  · intro a b ha hlt
    have hmonotone : Monotone fun x : ℚ => a * x + b := fun x y hxy =>
      (add_le_add_iff_right b).mpr (mul_le_mul_of_nonneg_left hxy ha.le)
    have hordered' : ((Sample.inOrder samples).map fun x => a * x + b).Pairwise (· ≤ ·) :=
      List.pairwise_map.mpr ((Sample.pairwise_inOrder samples).imp (fun hxy => hmonotone hxy))
    obtain ⟨low', high', hlow', hhigh', hgrid'⟩ := ecdfGrid_rat log exp hordered' (by simpa using hordered) hwidth
      (gridHeight height)
    have himage : {x | x ∈ (Sample.inOrder samples).map fun x => a * x + b} =
        (fun x => a * x + b) '' {x | x ∈ Sample.inOrder samples} := by
      ext x
      simp
    have hleast : low' = a * first + b := by
      rw [himage] at hlow'
      exact hlow'.unique (hmonotone.map_isLeast hfirst)
    have hgreatest : high' = a * last + b := by
      rw [himage] at hhigh'
      exact hhigh'.unique (hmonotone.map_isGreatest hlast)
    rw [sorted_exact hA, sorted_exact hA, Sample.inOrder_map_of_monotone hmonotone, hgrid', hplain, hleast, hgreatest,
      filledAt_affine ha hlt]

theorem asciiEcdf_fills_two : ∃ filled,
    asciiEcdf (rationalArithmetic (fun x => .ok x) (fun _ => .error "")) (fun _ => ['0']) [1, 0] 8 3 false =
      .ok (['\n'].intercalate (ecdfRows 3 8 filled ++
        [ecdfFoot 8, ecdfLabels (fun _ => ['0']) (0 : ℚ) 1 8 false])) ∧ filled 7 = 3 := by
  have htwo : ([1, 0] : List ℚ) ≠ [] := List.cons_ne_nil _ _
  have hlog : ∀ x : ℚ, 1 / 10 ^ 12 ≤ x → (fun x : ℚ => (.ok x : Except String ℚ)) x = .ok (id x) := fun _ _ => rfl
  obtain ⟨low, high, first, last, filled, -, ⟨hfirst, hlast⟩, hfills, hplot, -⟩ :=
    asciiEcdf_fills (fun _ => .error "") hlog (fun _ _ _ h => h) (fun _ => ['0']) htwo 8 3 false
  have hzero : first = 0 := hfirst.unique ⟨by simp, by intro x hx; simp at hx; rcases hx with rfl | rfl <;> norm_num⟩
  have hone : last = 1 := hlast.unique ⟨by simp, by intro x hx; simp at hx; rcases hx with rfl | rfl <;> norm_num⟩
  refine ⟨filled, ?_, hfills.top⟩
  have htext := hplot [1, 0] (List.Perm.refl _)
  rw [hzero, hone] at htext
  exact htext

end SciForge.Bench
