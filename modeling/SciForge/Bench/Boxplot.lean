import SciForge.Bench.Plots
import SciForge.Bench.Runner

/-!
# Box-plots as text

`ascii_boxplot`: a row for each series, drawn over one scale, the marks written over one another.
-/

namespace SciForge.Bench

variable {F : Type}

/-! ### The plot -/

/-- `min(a, b)`. -/
def minOf (A : Arithmetic F) (a b : F) : F := if A.lt b a then b else a

/-- `min(values)` and `max(values)`, by the operation of two. -/
def bestOf (pick : F → F → F) : List F → Except String F
  | [] => .error "ValueError"
  | first :: rest => .ok (rest.foldl pick first)

/-- `position(value)`; `toInt` is `int`. -/
def position (A : Arithmetic F) (toInt : F → ℤ) (low span : F) (width : ℕ) (value : F) : Except String ℤ := do
  let share ← A.div (A.sub value low) span
  return clamp (toInt (A.mul share (A.lit (width - 1)))) width

/-- `for i in range(start, start + count): cells[i] = cell`. -/
def fillCells (cell : Char) : ℤ → ℕ → List Char → Except String (List Char)
  | _, 0, cells => return cells
  | i, count + 1, cells => do
    let cells ← setItem cells i cell
    fillCells cell (i + 1) count cells

/-- The whisker, its ends, the box, its ends, and the median, in this order. -/
def boxCells (width : ℕ) (loW hiW boxLo boxHi middle : ℤ) : Except String (List Char) := do
  let cells ← fillCells '─' loW (hiW + 1 - loW).toNat (List.replicate width ' ')
  let cells ← setItem cells loW '├'
  let cells ← setItem cells hiW '┤'
  let cells ← fillCells '━' boxLo (boxHi + 1 - boxLo).toNat cells
  let cells ← setItem cells boxLo '┃'
  let cells ← setItem cells boxHi '┃'
  setItem cells middle '█'

/-- `f"{label:<{width}}"`. -/
def leftJustified (width : ℕ) (label : List Char) : List Char := label ++ List.replicate (width - label.length) ' '

def boxRow (A : Arithmetic F) (toInt : F → ℤ) (low span : F) (width labelWidth : ℕ) (samples : List F)
    (label : List Char) : Except String (List Char) := do
  let (middle, q1, q3, _, minimum) ← medianIqr A samples
  let maximum ← bestOf (maxOf A) samples
  let loW ← position A toInt low span width minimum
  let hiW ← position A toInt low span width maximum
  let boxLo ← position A toInt low span width q1
  let boxHi ← position A toInt low span width q3
  let middle ← position A toInt low span width middle
  let cells ← boxCells width loW hiW boxLo boxHi middle
  return framed (leftJustified labelWidth label) cells

/-- The ends of the axis; `shown` is the format `.2g`. -/
def axisTicks (shown : F → List Char) (low high : F) (width : ℕ) : List Char :=
  let left := shown low
  let right := shown high
  let middle := max ((width : ℤ) - left.length - right.length) 1
  left ++ List.replicate middle.toNat ' ' ++ right

def asciiBoxplot (A : Arithmetic F) (toInt : F → ℤ) (shown : F → List Char) (series : List (List F))
    (labels : List (List Char)) (width : ℤ) : Except String (List Char) :=
  let values := series.flatten
  if values.length = 0 then return []
  else do
    let low ← bestOf (minOf A) values
    let high ← bestOf (maxOf A) values
    let span := spanOf A low high
    let width := gridWidth width
    let labelWidth ← bestOf max (labels.map List.length)
    let rows ← (series.zip labels).mapM fun (samples, label) => boxRow A toInt low span width labelWidth samples label
    return ['\n'].intercalate (rows ++ [framed (leftJustified labelWidth []) (axisTicks shown low high width)])

/-! ### The cells of a row -/

/-- What stands in a column: the later marks cover the earlier ones. -/
def boxCell (loW boxLo middle boxHi hiW col : ℕ) : Char :=
  if col = middle then '█'
  else if col = boxLo ∨ col = boxHi then '┃'
  else if boxLo < col ∧ col < boxHi then '━'
  else if col = hiW then '┤'
  else if col = loW then '├'
  else if loW < col ∧ col < hiW then '─'
  else ' '

lemma fillCells_row {width : ℕ} (cell : Char) (count : ℕ) {i : ℕ} (h : i + count ≤ width) (f : ℕ → Char) :
    fillCells cell i count (row width f) =
      .ok (row width fun col => if i ≤ col ∧ col < i + count then cell else f col) := by
  induction count generalizing i f with
  | zero =>
    refine congrArg Except.ok (row_congr (fun col _ => (if_neg ?_).symm))
    omega
  | succ count ih =>
    have hnext : ((i : ℤ) + 1) = ((i + 1 : ℕ) : ℤ) := by push_cast; rfl
    rw [fillCells, setItem_row (by omega), ok_bind, hnext, ih (by omega)]
    refine congrArg Except.ok (row_congr (fun col _ => ?_))
    rw [Function.update_apply]
    by_cases hcol : col = i
    · rw [if_neg (by omega), if_pos hcol, if_pos (by omega)]
    · have hsame : (i + 1 ≤ col ∧ col < i + 1 + count) ↔ (i ≤ col ∧ col < i + (count + 1)) := by omega
      simp only [hcol, hsame, if_false]

lemma boxCells_row {width loW boxLo middle boxHi hiW : ℕ} (hlow : loW ≤ boxLo) (hleft : boxLo ≤ middle)
    (hright : middle ≤ boxHi) (hhigh : boxHi ≤ hiW) (hwidth : hiW < width) :
    boxCells width loW hiW boxLo boxHi middle = .ok (row width (boxCell loW boxLo middle boxHi hiW)) := by
  have hblank : List.replicate width ' ' = row width (fun _ => ' ') := by simp [row]
  have hwhisker : ((hiW : ℤ) + 1 - loW).toNat = hiW + 1 - loW := by omega
  have hbox : ((boxHi : ℤ) + 1 - boxLo).toNat = boxHi + 1 - boxLo := by omega
  unfold boxCells
  rw [hblank, hwhisker, hbox, fillCells_row _ _ (by omega), ok_bind, setItem_row (by omega), ok_bind,
    setItem_row (by omega), ok_bind, fillCells_row _ _ (by omega), ok_bind, setItem_row (by omega), ok_bind,
    setItem_row (by omega), ok_bind, setItem_row (by omega)]
  refine congrArg Except.ok (row_congr (fun col _ => ?_))
  simp only [Function.update_apply]
  unfold boxCell
  by_cases hmiddle : col = middle
  · rw [if_pos hmiddle, if_pos hmiddle]
  rw [if_neg hmiddle, if_neg hmiddle]
  by_cases hends : col = boxLo ∨ col = boxHi
  · rw [if_pos hends]
    rcases hends with hend | hend
    · rw [if_pos hend, ite_self]
    · rw [if_pos hend]
  obtain ⟨hnotLo, hnotHi⟩ := not_or.mp hends
  rw [if_neg hends, if_neg hnotHi, if_neg hnotLo]
  have hinside : (boxLo ≤ col ∧ col < boxLo + (boxHi + 1 - boxLo)) ↔ (boxLo < col ∧ col < boxHi) := by omega
  simp only [hinside]
  by_cases hbetween : boxLo < col ∧ col < boxHi
  · rw [if_pos hbetween, if_pos hbetween]
  rw [if_neg hbetween, if_neg hbetween]
  by_cases hhi : col = hiW
  · rw [if_pos hhi, if_pos hhi]
  rw [if_neg hhi, if_neg hhi]
  by_cases hlo : col = loW
  · rw [if_pos hlo, if_pos hlo]
  rw [if_neg hlo, if_neg hlo]
  have hwhiskers : (loW ≤ col ∧ col < loW + (hiW + 1 - loW)) ↔ (loW < col ∧ col < hiW) := by omega
  simp only [hwhiskers]

/-! ### The scale -/

/-- The column of a value: the lowest of all stands in the first, the highest in the last. -/
def boxColumn (low high : ℚ) (width : ℕ) (value : ℚ) : ℕ :=
  ⌊(value - low) / (if high - low ≠ 0 then high - low else 1) * (width - 1)⌋.toNat

section

variable {low high : ℚ} {width : ℕ}

lemma span_pos (h : low ≤ high) : (0 : ℚ) < if high - low ≠ 0 then high - low else 1 := by
  split
  · next hne => exact lt_of_le_of_ne (sub_nonneg.mpr h) (Ne.symm hne)
  · exact one_pos

lemma width_pos (hwidth : 2 ≤ width) : (0 : ℚ) < width - 1 := by
  have h2 : (2 : ℚ) ≤ width := by exact_mod_cast hwidth
  linarith

lemma boxColumn_mono (h : low ≤ high) (hwidth : 2 ≤ width) {x y : ℚ} (hxy : x ≤ y) :
    boxColumn low high width x ≤ boxColumn low high width y := by
  refine Int.toNat_le_toNat (Int.floor_mono (mul_le_mul_of_nonneg_right ?_ (width_pos hwidth).le))
  exact div_le_div_of_nonneg_right (sub_le_sub_right hxy low) (span_pos h).le

lemma boxColumn_low (low high : ℚ) (width : ℕ) : boxColumn low high width low = 0 := by
  unfold boxColumn
  rw [sub_self, zero_div, zero_mul, Int.floor_zero]
  rfl

lemma boxColumn_high (h : low < high) (hwidth : 2 ≤ width) : boxColumn low high width high = width - 1 := by
  have hne : high - low ≠ 0 := sub_ne_zero.mpr h.ne'
  have hcast : (width : ℚ) - 1 = ((width - 1 : ℕ) : ℚ) := by
    rw [Nat.cast_sub (by omega)]
    rfl
  unfold boxColumn
  rw [if_pos hne, div_self hne, one_mul, hcast, Int.floor_natCast]
  rfl

lemma boxColumn_lt (h : low ≤ high) (hwidth : 2 ≤ width) {x : ℚ} (hx : x ≤ high) :
    boxColumn low high width x < width := by
  have hmost := boxColumn_mono h hwidth hx
  rcases h.lt_or_eq with hlt | rfl
  · rw [boxColumn_high hlt hwidth] at hmost
    omega
  · rw [boxColumn_low] at hmost
    omega

/-- The columns do not depend on the unit of the values, nor on where zero is. -/
lemma boxColumn_affine {a : ℚ} (ha : 0 < a) (b : ℚ) (h : low < high) (width : ℕ) (x : ℚ) :
    boxColumn (a * low + b) (a * high + b) width (a * x + b) = boxColumn low high width x := by
  have hspan : high - low ≠ 0 := sub_ne_zero.mpr h.ne'
  have hscaled : ∀ y : ℚ, a * y + b - (a * low + b) = a * (y - low) := fun y => by ring
  unfold boxColumn
  rw [hscaled, hscaled, if_pos (mul_ne_zero ha.ne' hspan), if_pos hspan, mul_div_mul_left _ _ ha.ne']

lemma position_rat (log exp : ℚ → Except String ℚ) (hwidth : 2 ≤ width) {x : ℚ} (hlow : low ≤ x) (hhigh : x ≤ high) :
    position (rationalArithmetic log exp) truncate low (spanOf (rationalArithmetic log exp) low high) width x =
      .ok (boxColumn low high width x : ℤ) := by
  have hbetween := hlow.trans hhigh
  have hspan := span_pos hbetween
  have hshare : 0 ≤ (x - low) / (if high - low ≠ 0 then high - low else 1) * (width - 1 : ℚ) :=
    mul_nonneg (div_nonneg (sub_nonneg.mpr hlow) hspan.le) (width_pos hwidth).le
  have htruncate : truncate ((x - low) / (if high - low ≠ 0 then high - low else 1) * (width - 1 : ℚ)) =
      boxColumn low high width x := (if_pos hshare).trans (Int.toNat_of_nonneg (Int.floor_nonneg.mpr hshare)).symm
  have hlt := boxColumn_lt hbetween hwidth hhigh
  have hclamp : clamp (boxColumn low high width x) width = boxColumn low high width x := by
    unfold clamp
    omega
  have hdiv : (rationalArithmetic log exp).div (x - low) (if high - low ≠ 0 then high - low else 1) =
      .ok ((x - low) / if high - low ≠ 0 then high - low else 1) := div_rat log exp hspan.ne'
  unfold position
  rw [spanOf_rat]
  change ((rationalArithmetic log exp).div (x - low) (if high - low ≠ 0 then high - low else 1) >>= _) = _
  rw [hdiv, ok_bind]
  change Except.ok (clamp (truncate ((x - low) / (if high - low ≠ 0 then high - low else 1) * (width - 1 : ℚ))) width) = _
  rw [htruncate, hclamp]

end

/-! ### The best of a list -/

lemma bestOf_spec {r : F → F → Prop} (htrans : ∀ {a b c}, r a b → r b c → r a c) {pick : F → F → F}
    (hpick : ∀ a b, pick a b = a ∨ pick a b = b) (hleft : ∀ a b, r a (pick a b)) (hright : ∀ a b, r b (pick a b))
    {values : List F} (hne : values ≠ []) :
    ∃ best, bestOf pick values = .ok best ∧ best ∈ values ∧ ∀ x ∈ values, r x best := by
  obtain ⟨first, rest, rfl⟩ := List.exists_cons_of_ne_nil hne
  have hrefl : ∀ a, r a a := by
    intro a
    have hself : pick a a = a := (hpick a a).elim id id
    have hbest := hleft a a
    rwa [hself] at hbest
  have hfold : ∀ (rest : List F) (first : F), (rest.foldl pick first = first ∨ rest.foldl pick first ∈ rest) ∧
      r first (rest.foldl pick first) ∧ ∀ x ∈ rest, r x (rest.foldl pick first) := by
    intro rest
    induction rest with
    | nil => exact fun first => ⟨.inl rfl, hrefl first, fun x hx => absurd hx List.not_mem_nil⟩
    | cons next rest ih =>
      intro first
      obtain ⟨hmem, hfirst, hrest⟩ := ih (pick first next)
      refine ⟨?_, htrans (hleft first next) hfirst, fun x hx => ?_⟩
      · rcases hmem with hmem | hmem
        · rcases hpick first next with h | h
          · exact .inl (hmem.trans h)
          · exact .inr (List.mem_cons.mpr (.inl (hmem.trans h)))
        · exact .inr (List.mem_cons_of_mem _ hmem)
      · rcases List.mem_cons.mp hx with rfl | hx
        · exact htrans (hright first x) hfirst
        · exact hrest x hx
  obtain ⟨hmem, hfirst, hrest⟩ := hfold rest first
  refine ⟨_, rfl, List.mem_cons.mpr hmem, fun x hx => ?_⟩
  rcases List.mem_cons.mp hx with rfl | hx
  · exact hfirst
  · exact hrest x hx

lemma bestOf_max {values : List ℚ} (log exp : ℚ → Except String ℚ) (hne : values ≠ []) :
    ∃ high, bestOf (maxOf (rationalArithmetic log exp)) values = .ok high ∧ IsGreatest {x | x ∈ values} high := by
  have hmax : maxOf (rationalArithmetic log exp) = max := funext fun a => funext fun b => maxOf_rat log exp a b
  rw [hmax]
  exact bestOf_spec (r := (· ≤ ·)) le_trans max_choice le_max_left le_max_right hne

lemma bestOf_min {values : List ℚ} (log exp : ℚ → Except String ℚ) (hne : values ≠ []) :
    ∃ low, bestOf (minOf (rationalArithmetic log exp)) values = .ok low ∧ IsLeast {x | x ∈ values} low := by
  have hmin : minOf (rationalArithmetic log exp) = min := by
    funext a b
    unfold minOf
    change (if decide (b < a) = true then b else a) = min a b
    rw [min_comm, min_def_lt]
    simp only [decide_eq_true_eq]
  rw [hmin]
  exact bestOf_spec (r := (· ≥ ·)) ge_trans min_choice min_le_left min_le_right hne

/-! ### The rows of a plot -/

/-- The row of a sample on the scale: its marks at the columns of its quartiles and ends, in order. -/
structure Drawn (low high : ℚ) (width : ℕ) (samples : List ℚ) (cells : List Char) : Prop where
  marks : ∃ minimum maximum, IsLeast {x | x ∈ samples} minimum ∧ IsGreatest {x | x ∈ samples} maximum ∧
    cells = row width (boxCell (boxColumn low high width minimum) (boxColumn low high width (lowerQuartile samples))
      (boxColumn low high width (Sample.median samples)) (boxColumn low high width (upperQuartile samples))
      (boxColumn low high width maximum)) ∧
    minimum ≤ lowerQuartile samples ∧ lowerQuartile samples ≤ Sample.median samples ∧
    Sample.median samples ≤ upperQuartile samples ∧ upperQuartile samples ≤ maximum

lemma boxRow_draws (log exp : ℚ → Except String ℚ) {low high : ℚ} {width : ℕ} (hwidth : 2 ≤ width)
    {samples : List ℚ} (hne : samples ≠ []) (hlow : ∀ x ∈ samples, low ≤ x) (hhigh : ∀ x ∈ samples, x ≤ high)
    (labelWidth : ℕ) (label : List Char) :
    ∃ cells, Drawn low high width samples cells ∧
      boxRow (rationalArithmetic log exp) truncate low (spanOf (rationalArithmetic log exp) low high) width labelWidth
        samples label = .ok (framed (leftJustified labelWidth label) cells) := by
  obtain ⟨minimum, hvalue, hleast⟩ := medianIqr_exact (rationalArithmetic_exact log exp) hne
  obtain ⟨maximum, hmaximum, hgreatest⟩ := bestOf_max log exp hne
  have hbelow : minimum ≤ lowerQuartile samples := by
    refine Sample.le_middle (lowerHalf_ne_nil (Sample.inOrder_ne_nil hne)) (fun x hx => ?_)
    exact hleast.2 (Sample.mem_inOrder.mp ((lowerHalf_sublist _).subset hx))
  have habove : upperQuartile samples ≤ maximum := by
    refine Sample.middle_le (upperHalf_ne_nil (Sample.inOrder_ne_nil hne)) (fun x hx => ?_)
    exact hgreatest.2 (Sample.mem_inOrder.mp ((upperHalf_sublist _).subset hx))
  have hleft := lowerQuartile_le_median hne
  have hright := median_le_upperQuartile hne
  have hfirst : low ≤ minimum := hlow _ hleast.1
  have hlast : maximum ≤ high := hhigh _ hgreatest.1
  have hbetween : low ≤ high := by linarith
  refine ⟨_, ⟨minimum, maximum, hleast, hgreatest, rfl, hbelow, hleft, hright, habove⟩, ?_⟩
  unfold boxRow
  rw [hvalue, ok_bind]
  dsimp only
  rw [hmaximum, ok_bind, position_rat log exp hwidth hfirst (by linarith), ok_bind,
    position_rat log exp hwidth (by linarith) hlast, ok_bind,
    position_rat log exp hwidth (by linarith) (by linarith), ok_bind,
    position_rat log exp hwidth (by linarith) (by linarith), ok_bind,
    position_rat log exp hwidth (by linarith) (by linarith), ok_bind,
    boxCells_row (boxColumn_mono hbetween hwidth hbelow) (boxColumn_mono hbetween hwidth hleft)
      (boxColumn_mono hbetween hwidth hright) (boxColumn_mono hbetween hwidth habove)
      (boxColumn_lt hbetween hwidth hlast)]
  rfl

/-- What the plot is: a row for each labelled series, all of them on one scale from the least of all values to the
greatest, which keeps their order and does not depend on their unit. -/
structure Plotted (series : List (List ℚ)) (labels : List (List Char)) (width : ℕ) (low high : ℚ) (labelWidth : ℕ)
    (rows : List (List Char)) : Prop where
  least : IsLeast {x | ∃ samples ∈ series, x ∈ samples} low
  greatest : IsGreatest {x | ∃ samples ∈ series, x ∈ samples} high
  longest : IsGreatest {n | ∃ label ∈ labels, label.length = n} labelWidth
  rows : List.Forall₂ (fun (samples, label) text => ∃ cells, Drawn low high width samples cells ∧
    text = framed (leftJustified labelWidth label) cells) (series.zip labels) rows
  mono : ∀ x y, x ≤ y → boxColumn low high width x ≤ boxColumn low high width y
  ends : boxColumn low high width low = 0 ∧ (low < high → boxColumn low high width high = width - 1)
  affine : ∀ a b x, 0 < a → low < high →
    boxColumn (a * low + b) (a * high + b) width (a * x + b) = boxColumn low high width x

theorem asciiBoxplot_draws (log exp : ℚ → Except String ℚ) (shown : ℚ → List Char) {series : List (List ℚ)}
    {labels : List (List Char)} (hvalues : series.flatten ≠ []) (hlabels : labels ≠ [])
    (hdrawn : ∀ p ∈ series.zip labels, p.1 ≠ []) (width : ℤ) :
    ∃ low high labelWidth rows, Plotted series labels (gridWidth width) low high labelWidth rows ∧
      asciiBoxplot (rationalArithmetic log exp) truncate shown series labels width =
        .ok (['\n'].intercalate
          (rows ++ [framed (leftJustified labelWidth []) (axisTicks shown low high (gridWidth width))])) := by
  have hwidth : 2 ≤ gridWidth width := by
    unfold gridWidth
    omega
  obtain ⟨low, hlow, hleast⟩ := bestOf_min log exp hvalues
  obtain ⟨high, hhigh, hgreatest⟩ := bestOf_max log exp hvalues
  have hlengths : labels.map List.length ≠ [] := by simpa using hlabels
  obtain ⟨labelWidth, hlongest, hmem, hmost⟩ :=
    bestOf_spec (r := (· ≤ ·)) le_trans max_choice le_max_left le_max_right hlengths
  have hbetween : low ≤ high := hgreatest.2 hleast.1
  have hrows : ∀ p ∈ series.zip labels, ∃ text,
      boxRow (rationalArithmetic log exp) truncate low (spanOf (rationalArithmetic log exp) low high) (gridWidth width)
        labelWidth p.1 p.2 = .ok text ∧
      ∃ cells, Drawn low high (gridWidth width) p.1 cells ∧ text = framed (leftJustified labelWidth p.2) cells := by
    intro p hp
    have hmember : ∀ x ∈ p.1, x ∈ series.flatten := fun x hx => List.mem_flatten.mpr ⟨p.1, (List.of_mem_zip hp).1, hx⟩
    obtain ⟨cells, hcells, hrow⟩ := boxRow_draws log exp hwidth (hdrawn p hp) (fun x hx => hleast.2 (hmember x hx))
      (fun x hx => hgreatest.2 (hmember x hx)) labelWidth p.2
    exact ⟨_, hrow, cells, hcells, rfl⟩
  obtain ⟨rows, hrows⟩ := exists_forall₂.mpr hrows
  obtain ⟨hrun, hdrawn⟩ := forall₂_and.mp hrows
  have hset : {x | x ∈ series.flatten} = {x | ∃ samples ∈ series, x ∈ samples} := by
    ext x
    exact List.mem_flatten
  refine ⟨low, high, labelWidth, rows, ⟨hset ▸ hleast, hset ▸ hgreatest, ⟨List.mem_map.mp hmem, ?_⟩, hdrawn,
    fun x y => boxColumn_mono hbetween hwidth, ⟨boxColumn_low low high _, fun hlt => boxColumn_high hlt hwidth⟩,
    fun a b x ha hlt => boxColumn_affine ha b hlt _ x⟩, ?_⟩
  · rintro n ⟨label, hlabel, rfl⟩
    exact hmost _ (List.mem_map_of_mem hlabel)
  · have hsome : series.flatten.length ≠ 0 := fun h => hvalues (List.length_eq_zero_iff.mp h)
    unfold asciiBoxplot
    dsimp only
    rw [if_neg hsome, hlow, ok_bind, hhigh, ok_bind, hlongest, ok_bind]
    exact bind_eq_ok.mpr ⟨rows, mapM_eq_ok.mpr hrun, rfl⟩

theorem asciiBoxplot_draws_two : ∃ low high labelWidth rows,
    Plotted [[1, 2, 3, 4], [2, 4, 6, 8]] [['a'], ['b']] 44 low high labelWidth rows ∧
    asciiBoxplot (rationalArithmetic (fun _ => .error "") (fun _ => .error "")) truncate (fun _ => ['0'])
      [[1, 2, 3, 4], [2, 4, 6, 8]] [['a'], ['b']] 44 =
        .ok (['\n'].intercalate (rows ++ [framed (leftJustified labelWidth []) (axisTicks (fun _ => ['0']) low high 44)])) := by
  have hvalues : ([[1, 2, 3, 4], [2, 4, 6, 8]] : List (List ℚ)).flatten ≠ [] := List.cons_ne_nil _ _
  refine asciiBoxplot_draws (fun _ => .error "") (fun _ => .error "") (fun _ => ['0']) hvalues
    (List.cons_ne_nil _ _) (fun p hp => ?_) 44
  rcases List.mem_cons.mp hp with rfl | hp
  · exact List.cons_ne_nil _ _
  · obtain rfl := List.mem_singleton.mp hp
    exact List.cons_ne_nil _ _

end SciForge.Bench
