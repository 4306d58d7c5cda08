import Mathlib.Data.List.Basic
import Mathlib.Data.List.Count

/-!
# Bisection

A binary search for the boundary in a list whose elements above it all come last.
-/

namespace SciForge

variable {α : Type}

/-- The boundary between `lo` and `hi`: the half that is kept has it. -/
def bisect (above : α → Bool) (ordered : List α) (lo hi : ℕ) : ℕ :=
  if lo < hi then
    match ordered[(lo + hi) / 2]? with
    | some a => if above a then bisect above ordered lo ((lo + hi) / 2) else bisect above ordered ((lo + hi) / 2 + 1) hi
    | none => lo
  else lo
termination_by hi - lo

/-- The boundary is at `i`: nothing before it is above, everything from it on is. -/
structure Boundary (above : α → Bool) (ordered : List α) (lo hi : ℕ) : Prop where
  before : ∀ i (h : i < ordered.length), i < lo → above ordered[i] = false
  after : ∀ i (h : i < ordered.length), hi ≤ i → above ordered[i] = true
  order : lo ≤ hi
  inside : hi ≤ ordered.length

lemma boundary_countP {above : α → Bool} {ordered : List α} {i : ℕ} (h : Boundary above ordered i i) :
    ordered.countP (fun a => !above a) = i := by
  have hbefore : (ordered.take i).countP (fun a => !above a) = i := by
    rw [List.countP_eq_length.mpr, List.length_take, Nat.min_eq_left h.inside]
    intro a ha
    obtain ⟨j, hj, rfl⟩ := List.mem_iff_getElem.mp ha
    rw [List.length_take] at hj
    rw [List.getElem_take, h.before j (by omega) (by omega)]
    rfl
  have hafter : (ordered.drop i).countP (fun a => !above a) = 0 := by
    rw [List.countP_eq_zero]
    intro a ha
    obtain ⟨j, hj, rfl⟩ := List.mem_iff_getElem.mp ha
    rw [List.length_drop] at hj
    rw [List.getElem_drop, h.after (i + j) (by omega) (by omega)]
    simp
  have hsplit : ordered.countP (fun a => !above a) =
      (ordered.take i ++ ordered.drop i).countP (fun a => !above a) := by rw [List.take_append_drop]
  rw [hsplit, List.countP_append, hbefore, hafter, Nat.add_zero]

/-- The search finds how many elements are not above the boundary. -/
lemma bisect_eq {above : α → Bool} {ordered : List α}
    (hordered : ordered.Pairwise (fun a b => above a = true → above b = true)) {lo hi : ℕ}
    (h : Boundary above ordered lo hi) : bisect above ordered lo hi = ordered.countP (fun a => !above a) := by
  have hlater : ∀ i j (hi : i < ordered.length) (hj : j < ordered.length), i ≤ j → above ordered[i] = true →
      above ordered[j] = true := by
    intro i j hi hj hij habove
    rcases Nat.lt_or_eq_of_le hij with hlt | rfl
    · exact List.pairwise_iff_getElem.mp hordered i j hi hj hlt habove
    · exact habove
  fun_induction bisect above ordered lo hi with
  | case1 lo hi hlt a ha habove ih =>
    obtain ⟨hmid, rfl⟩ := List.getElem?_eq_some_iff.mp ha
    refine ih ⟨h.before, fun i hi' hle => ?_, by omega, by omega⟩
    exact hlater _ i hmid hi' hle habove
  | case2 lo hi hlt a ha habove ih =>
    obtain ⟨hmid, rfl⟩ := List.getElem?_eq_some_iff.mp ha
    have hinside := h.inside
    refine ih ⟨fun i hi' hle => ?_, h.after, by omega, h.inside⟩
    rw [Bool.eq_false_iff]
    exact fun hi'' => habove (hlater i _ hi' hmid (by omega) hi'')
  | case3 lo hi hlt hnone =>
    have hinside := h.inside
    have hle := List.getElem?_eq_none_iff.mp hnone
    omega
  | case4 lo hi hle =>
    have horder := h.order
    obtain rfl : lo = hi := by omega
    exact (boundary_countP h).symm

end SciForge
