import SciForge.Lib.Raising
import Mathlib.Data.List.Sort
import Mathlib.Data.Rat.Defs

/-!
# Bench statistics

Medians, percentile bounds and the two-level bootstrap of the geometric mean, over any arithmetic and any source
of draws.
-/

namespace SciForge.Bench

/-- The operations on numbers the statistics use, with what they raise. A literal is given by its decimal value. -/
structure Arithmetic (F : Type) where
  lit : ℚ → F
  add : F → F → F
  sub : F → F → F
  mul : F → F → F
  div : F → F → Except String F
  lt : F → F → Bool
  le : F → F → Bool
  nonzero : F → Bool
  fsum : List F → F
  log : F → Except String F
  exp : F → Except String F
  round : F → ℤ

/-- A random generator: `randrange(n)` for a positive `n`. -/
structure Rng (ρ : Type) where
  randrange : ρ → (n : ℕ) → 0 < n → Fin n × ρ

variable {F ρ : Type}

/-- `values[index]`, for an index that is not negative. -/
def item {α : Type} (values : List α) (index : ℕ) : Except String α :=
  match values[index]? with
  | some value => .ok value
  | none => .error "IndexError"

lemma item_of_lt {α : Type} {values : List α} {i : ℕ} (h : i < values.length) : item values i = .ok values[i] := by
  unfold item
  rw [List.getElem?_eq_getElem h]

def Rng.draw (rng : Rng ρ) (n : ℕ) (s : ρ) : Except String (ℕ × ρ) :=
  if h : 0 < n then .ok ((rng.randrange s n h).1.val, (rng.randrange s n h).2) else .error "ValueError"

/-- `[body() for _ in range(n)]`. -/
def collectN {α : Type} (body : ρ → Except String (α × ρ)) : ℕ → ρ → Except String (List α × ρ)
  | 0, s => .ok ([], s)
  | n + 1, s => do
    let (value, s) ← body s
    let (values, s) ← collectN body n s
    return (value :: values, s)

/-! ### Statistics -/

def sorted (A : Arithmetic F) (values : List F) : List F :=
  values.insertionSort (fun a b => A.lt b a = false)

/-- `statistics.median`. -/
def median (A : Arithmetic F) (data : List F) : Except String F :=
  let ordered := sorted A data
  let n := ordered.length
  if n = 0 then .error "StatisticsError"
  else if n % 2 = 1 then item ordered (n / 2)
  else do
    let lower ← item ordered (n / 2 - 1)
    let upper ← item ordered (n / 2)
    A.div (A.add lower upper) (A.lit 2)

/-- `statistics.fmean`. -/
def fmean (A : Arithmetic F) (data : List F) : Except String F :=
  if data = [] then .error "StatisticsError" else A.div (A.fsum data) (A.lit data.length)

def clamp (index size : ℤ) : ℤ := max 0 (min index (size - 1))

def percentileBounds (A : Arithmetic F) (ordered : List F) (level : F) : Except String (F × F) := do
  let count := ordered.length
  let half ← A.div (A.sub (A.lit 1) level) (A.lit 2)
  let tail := A.round (A.mul half (A.lit count))
  let low ← item ordered (clamp tail count).toNat
  let high ← item ordered (clamp (count - 1 - tail) count).toNat
  return (low, high)

def quartiles (A : Arithmetic F) (ordered : List F) : Except String (F × F) :=
  let count := ordered.length
  if count = 1 then do
    let only ← item ordered 0
    return (only, only)
  else do
    let half := count / 2
    let lower := ordered.take half
    let upper := ordered.drop (half + count % 2)
    let q1 ← median A lower
    let q3 ← median A upper
    return (q1, q3)

/-- `(median, q1, q3, iqr, minimum)`. -/
def medianIqr (A : Arithmetic F) (samples : List F) : Except String (F × F × F × F × F) := do
  let ordered := sorted A samples
  let middle ← median A ordered
  let (q1, q3) ← quartiles A ordered
  let minimum ← item ordered 0
  return (middle, q1, q3, A.sub q3 q1, minimum)

/-! ### The bootstrap over both levels -/

def geomeanOf (A : Arithmetic F) (medians : List F) : Except String F := do
  let logs ← medians.mapM A.log
  let mean ← fmean A logs
  A.exp mean

/-- `group[rng.randrange(len(group))]`. -/
def drawOne {α : Type} (rng : Rng ρ) (values : List α) (s : ρ) : Except String (α × ρ) := do
  let (index, s) ← rng.draw values.length s
  let value ← item values index
  return (value, s)

/-- The median of one drawn case, its ratios resampled. -/
def drawMedian (A : Arithmetic F) (rng : Rng ρ) (groups : List (List F)) (s : ρ) : Except String (F × ρ) := do
  let (group, s) ← drawOne rng groups s
  let (resample, s) ← collectN (drawOne rng group) group.length s
  let value ← median A resample
  return (value, s)

/-- One replicate: as many drawn cases as there are groups. -/
def replicate (A : Arithmetic F) (rng : Rng ρ) (groups : List (List F)) (s : ρ) : Except String (F × ρ) := do
  let (medians, s) ← collectN (drawMedian A rng groups) groups.length s
  let value ← geomeanOf A medians
  return (value, s)

def hierarchicalGeomeanCi (A : Arithmetic F) (rng : Rng ρ) (groups : List (List F)) (bootstrap : ℕ) (level : F)
    (s : ρ) : Except String (F × F × F) :=
  if groups.isEmpty || groups.any List.isEmpty then .error "ValueError"
  else do
    let medians ← groups.mapM (median A)
    let point ← geomeanOf A medians
    let (boots, _) ← collectN (replicate A rng groups) bootstrap s
    let (low, high) ← percentileBounds A (sorted A boots) level
    return (point, low, high)

end SciForge.Bench
