import Mathlib.Data.List.Range

/-!
# Vectors with their buffer

A vector as the memory it manages: the buffer's address and capacity, the cells written in it, and the
size. Elements past the size stay in the buffer until they are written over or the buffer is replaced.
-/

namespace SciForge

structure StdVector (α : Type) where
  data : ℕ
  capacity : ℕ
  cells : ℕ → Option α
  size : ℕ
  size_le : size ≤ capacity
  filled : ∀ i < size, (cells i).isSome

namespace StdVector

variable {α : Type}

/-- No buffer yet. -/
def empty : StdVector α := ⟨0, 0, fun _ => none, 0, le_rfl, fun _ hi => absurd hi (Nat.not_lt_zero _)⟩

/-- Drops the elements and keeps the buffer. -/
def clear (v : StdVector α) : StdVector α :=
  ⟨v.data, v.capacity, v.cells, 0, Nat.zero_le _, fun _ hi => absurd hi (Nat.not_lt_zero _)⟩

/-- A buffer with `x` written at the size. -/
def written (v : StdVector α) (x : α) (rest : ℕ → Option α) : ℕ → Option α := fun i =>
  if i = v.size then some x else if i < v.size then v.cells i else rest i

lemma written_filled (v : StdVector α) (x : α) (rest : ℕ → Option α) :
    ∀ i < v.size + 1, (v.written x rest i).isSome := by
  intro i hi
  unfold written
  by_cases he : i = v.size
  · rw [if_pos he]
    rfl
  · rw [if_neg he, if_pos (by omega)]
    exact v.filled i (by omega)

/-- `push_back`: in place when there is room; else into a buffer at `address` with `spare` cells more than
needed, `none` when that one cannot be allocated. -/
def pushBack (v : StdVector α) (x : α) (address : ℕ) (spare : Option ℕ) : Option (StdVector α) :=
  if h : v.size < v.capacity then
    some ⟨v.data, v.capacity, v.written x v.cells, v.size + 1, h, v.written_filled x v.cells⟩
  else
    spare.map (fun spare =>
      ⟨address, v.size + 1 + spare, v.written x (fun _ => none), v.size + 1, Nat.le_add_right _ _,
        v.written_filled x _⟩)

def toList (v : StdVector α) : List α := (List.range v.size).filterMap v.cells

lemma written_self (v : StdVector α) (x : α) (rest : ℕ → Option α) : v.written x rest v.size = some x :=
  if_pos rfl

lemma written_of_lt (v : StdVector α) (x : α) (rest : ℕ → Option α) {i : ℕ} (hi : i < v.size) :
    v.written x rest i = v.cells i := by
  unfold written
  rw [if_neg hi.ne, if_pos hi]

lemma pushBack_cells {v v' : StdVector α} {x : α} {address : ℕ} {spare : Option ℕ}
    (h : v.pushBack x address spare = some v') :
    v'.size = v.size + 1 ∧ v'.cells v.size = some x ∧ ∀ i < v.size, v'.cells i = v.cells i := by
  unfold pushBack at h
  split at h
  · obtain rfl := Option.some.inj h
    exact ⟨rfl, v.written_self x _, fun i hi => v.written_of_lt x _ hi⟩
  · obtain ⟨n, -, rfl⟩ := Option.map_eq_some_iff.mp h
    exact ⟨rfl, v.written_self x (fun _ => none), fun i hi => v.written_of_lt x (fun _ => none) hi⟩

lemma toList_pushBack {v v' : StdVector α} {x : α} {address : ℕ} {spare : Option ℕ}
    (h : v.pushBack x address spare = some v') : v'.toList = v.toList ++ [x] := by
  obtain ⟨hsize, hx, hcells⟩ := pushBack_cells h
  unfold toList
  rw [hsize, List.range_succ, List.filterMap_append, List.filterMap_cons, hx]
  congr 1
  apply List.filterMap_congr
  intro i hi
  exact hcells i (List.mem_range.mp hi)

/-- With room the buffer stays where it is, and only the cell at the size is written. -/
lemma pushBack_of_lt {v v' : StdVector α} {x : α} {address : ℕ} {spare : Option ℕ} (hroom : v.size < v.capacity)
    (h : v.pushBack x address spare = some v') :
    v'.data = v.data ∧ v'.capacity = v.capacity ∧ ∀ i, i ≠ v.size → v'.cells i = v.cells i := by
  unfold pushBack at h
  rw [dif_pos hroom] at h
  obtain rfl := Option.some.inj h
  refine ⟨rfl, rfl, fun i hi => ?_⟩
  change (if i = v.size then _ else if i < v.size then v.cells i else v.cells i) = _
  rw [if_neg hi, ite_self]

lemma filterMap_range {f : ℕ → Option α} {n : ℕ} (h : ∀ i < n, (f i).isSome) :
    ((List.range n).filterMap f).length = n ∧ ∀ i < n, ((List.range n).filterMap f)[i]? = f i := by
  induction n with
  | zero => exact ⟨rfl, fun i hi => absurd hi (Nat.not_lt_zero i)⟩
  | succ n ih =>
    obtain ⟨hlen, hget⟩ := ih (fun i hi => h i (by omega))
    obtain ⟨x, hx⟩ := Option.isSome_iff_exists.mp (h n (Nat.lt_succ_self n))
    have hsucc : (List.range (n + 1)).filterMap f = (List.range n).filterMap f ++ [x] := by
      rw [List.range_succ, List.filterMap_append, List.filterMap_cons, hx]
      rfl
    rw [hsucc]
    refine ⟨by rw [List.length_append, hlen]; rfl, fun i hi => ?_⟩
    by_cases hn : i < n
    · rw [List.getElem?_append_left (by rw [hlen]; exact hn), hget i hn]
    · obtain rfl : i = n := by omega
      rw [List.getElem?_append_right (by omega), hlen, Nat.sub_self, hx]
      rfl

lemma filterMap_range_getElem? {values : List α} {n : ℕ} (h : values.length ≤ n) :
    (List.range n).filterMap (fun i => values[i]?) = values := by
  induction values generalizing n with
  | nil => simp
  | cons value rest ih =>
    cases n with
    | zero => cases h
    | succ n =>
      rw [List.range_succ_eq_map, List.filterMap_cons, List.filterMap_map]
      exact congrArg _ (ih (Nat.le_of_succ_le_succ h))

lemma length_toList (v : StdVector α) : v.toList.length = v.size := (filterMap_range v.filled).1

lemma toList_getElem? (v : StdVector α) {i : ℕ} (hi : i < v.size) : v.toList[i]? = v.cells i :=
  (filterMap_range v.filled).2 i hi

lemma pushBack_ne_none {v : StdVector α} (hroom : v.size < v.capacity) (x : α) (address : ℕ)
    (spare : Option ℕ) : v.pushBack x address spare ≠ none := by
  unfold pushBack
  rw [dif_pos hroom]
  exact Option.some_ne_none _

end StdVector

end SciForge
