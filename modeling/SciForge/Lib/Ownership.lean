import Mathlib.Logic.Function.Basic
import Mathlib.Order.Nat

/-!
# Exclusive ownership of heap cells

Owners hold at most one heap cell each. Cells are made when they are stored with an owner, and deleted when
their owner releases them; nothing else keeps track of them.
-/

namespace SciForge

/-- What each owner holds, how many cells have been made, and how often each was deleted. -/
structure Ownership (ω : Type) where
  held : ω → Option ℕ
  made : ℕ
  deleted : ℕ → ℕ

namespace Ownership

variable {ω : Type}

def empty : Ownership ω := ⟨fun _ => none, 0, fun _ => 0⟩

/-- A new cell, stored with `o` whatever it holds. -/
def store [DecidableEq ω] (h : Ownership ω) (o : ω) : Ownership ω :=
  { h with held := Function.update h.held o (some h.made), made := h.made + 1 }

def release [DecidableEq ω] (h : Ownership ω) (o : ω) : Ownership ω where
  held := Function.update h.held o none
  made := h.made
  deleted := match h.held o with
    | some p => Function.update h.deleted p (h.deleted p + 1)
    | none => h.deleted

/-- Every cell is held by one owner and not deleted, or deleted once and held by none. -/
structure Exact (h : Ownership ω) : Prop where
  made_of_held : ∀ o p, h.held o = some p → p < h.made
  unique : ∀ o o' p, h.held o = some p → h.held o' = some p → o' = o
  cells : ∀ p < h.made, (h.deleted p = 1 ∧ ∀ o, h.held o ≠ some p) ∨ (h.deleted p = 0 ∧ ∃ o, h.held o = some p)
  unmade : ∀ p, h.made ≤ p → h.deleted p = 0

lemma exact_empty : (empty : Ownership ω).Exact :=
  ⟨fun _ _ h => (nomatch h), fun _ _ _ h => (nomatch h), fun _ h => absurd h (Nat.not_lt_zero _), fun _ _ => rfl⟩

variable [DecidableEq ω] {h : Ownership ω} {o : ω}

@[simp] lemma store_held_self : (h.store o).held o = some h.made := Function.update_self _ _ _

lemma store_held_of_ne {o' : ω} (hne : o' ≠ o) : (h.store o).held o' = h.held o' := Function.update_of_ne hne _ _

@[simp] lemma release_held_self : (h.release o).held o = none := Function.update_self _ _ _

lemma release_held_of_ne {o' : ω} (hne : o' ≠ o) : (h.release o).held o' = h.held o' := Function.update_of_ne hne _ _

lemma Exact.store (hx : h.Exact) (hnone : h.held o = none) : (h.store o).Exact := by
  have hcases : ∀ o' p, (h.store o).held o' = some p → (o' = o ∧ p = h.made) ∨ (o' ≠ o ∧ h.held o' = some p) := by
    intro o' p hp
    by_cases he : o' = o
    · subst he
      rw [store_held_self] at hp
      exact .inl ⟨rfl, (Option.some.inj hp).symm⟩
    · rw [store_held_of_ne he] at hp
      exact .inr ⟨he, hp⟩
  refine ⟨fun o' p hp => ?_, fun o₁ o₂ p h₁ h₂ => ?_, fun p hp => ?_, fun p hp => hx.unmade p (Nat.le_of_succ_le hp)⟩
  · rcases hcases o' p hp with ⟨-, rfl⟩ | ⟨-, hp⟩
    · exact Nat.lt_succ_self _
    · exact (hx.made_of_held o' p hp).trans (Nat.lt_succ_self _)
  · rcases hcases o₁ p h₁ with ⟨ho₁, hp₁⟩ | ⟨-, hold₁⟩
    · rcases hcases o₂ p h₂ with ⟨ho₂, -⟩ | ⟨-, hold₂⟩
      · rw [ho₁, ho₂]
      · exact absurd (hx.made_of_held o₂ p hold₂) (hp₁ ▸ lt_irrefl _)
    · rcases hcases o₂ p h₂ with ⟨-, hp₂⟩ | ⟨-, hold₂⟩
      · exact absurd (hx.made_of_held o₁ p hold₁) (hp₂ ▸ lt_irrefl _)
      · exact hx.unique o₁ o₂ p hold₁ hold₂
  · rcases Nat.lt_succ_iff_lt_or_eq.mp hp with hlt | rfl
    · rcases hx.cells p hlt with ⟨hdeleted, hfree⟩ | ⟨hdeleted, o', ho'⟩
      · refine .inl ⟨hdeleted, fun o' ho' => ?_⟩
        rcases hcases o' p ho' with ⟨-, rfl⟩ | ⟨-, ho'⟩
        · exact absurd hlt (lt_irrefl _)
        · exact hfree o' ho'
      · refine .inr ⟨hdeleted, o', ?_⟩
        rw [store_held_of_ne, ho']
        rintro rfl
        rw [hnone] at ho'
        cases ho'
    · exact .inr ⟨hx.unmade _ le_rfl, o, store_held_self⟩

lemma Exact.release (hx : h.Exact) : (h.release o).Exact := by
  have hcases : ∀ o' p, (h.release o).held o' = some p → o' ≠ o ∧ h.held o' = some p := by
    intro o' p hp
    by_cases he : o' = o
    · subst he
      rw [release_held_self] at hp
      cases hp
    · rw [release_held_of_ne he] at hp
      exact ⟨he, hp⟩
  have hdeleted : ∀ p, (h.release o).deleted p = if h.held o = some p then h.deleted p + 1 else h.deleted p := by
    intro p
    unfold Ownership.release
    cases ho : h.held o with
    | none => rfl
    | some q =>
      change Function.update h.deleted q (h.deleted q + 1) p = _
      by_cases he : p = q
      · subst he
        rw [Function.update_self, if_pos rfl]
      · rw [Function.update_of_ne he, if_neg (fun hq => he (Option.some.inj hq).symm)]
  refine ⟨fun o' p hp => hx.made_of_held o' p (hcases o' p hp).2,
    fun o₁ o₂ p h₁ h₂ => hx.unique o₁ o₂ p (hcases o₁ p h₁).2 (hcases o₂ p h₂).2, fun p hp => ?_, fun p hp => ?_⟩
  · rw [hdeleted]
    by_cases ho : h.held o = some p
    · rw [if_pos ho]
      rcases hx.cells p hp with ⟨-, hfree⟩ | ⟨hzero, -⟩
      · exact absurd ho (hfree o)
      · refine .inl ⟨by rw [hzero], fun o' ho' => ?_⟩
        obtain ⟨hne, ho'⟩ := hcases o' p ho'
        exact hne (hx.unique o o' p ho ho')
    · rw [if_neg ho]
      rcases hx.cells p hp with ⟨hone, hfree⟩ | ⟨hzero, o', ho'⟩
      · exact .inl ⟨hone, fun o' ho' => hfree o' (hcases o' p ho').2⟩
      · refine .inr ⟨hzero, o', ?_⟩
        rw [release_held_of_ne, ho']
        rintro rfl
        exact ho ho'
  · rw [hdeleted, if_neg (fun ho => absurd (hx.made_of_held o p ho) (not_lt.mpr hp)), hx.unmade p hp]

end Ownership

end SciForge
