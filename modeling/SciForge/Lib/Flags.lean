import Mathlib.Data.List.Basic
import Mathlib.Data.Nat.Bitwise

/-!
# Flag words

A word that stands for a set of flags: the flags' bits, joined by a bitwise or.
-/

namespace SciForge

variable {κ : Type}

def flagWord (bits : κ → ℕ) (start : ℕ) (names : List κ) : ℕ := names.foldl (fun word name => word ||| bits name) start

lemma testBit_flagWord {bits : κ → ℕ} {start i : ℕ} {names : List κ} :
    (flagWord bits start names).testBit i = true ↔ start.testBit i = true ∨ ∃ name ∈ names, (bits name).testBit i = true := by
  induction names generalizing start with
  | nil => simp [flagWord]
  | cons name names ih =>
    change (flagWord bits (start ||| bits name) names).testBit i = true ↔ _
    rw [ih, Nat.testBit_or, Bool.or_eq_true, or_assoc, List.exists_mem_cons_iff]

/-- Flags that each have a bit of their own. -/
structure OwnBits (bits : κ → ℕ) (names : List κ) : Prop where
  some : ∀ name ∈ names, ∃ i, (bits name).testBit i = true
  apart : ∀ a ∈ names, ∀ b ∈ names, ∀ i, (bits a).testBit i = true → (bits b).testBit i = true → a = b

lemma OwnBits.mem_iff {bits : κ → ℕ} {all names : List κ} (h : OwnBits bits all) (hnames : ∀ name ∈ names, name ∈ all)
    {name : κ} (hname : name ∈ all) {i : ℕ} (hi : (bits name).testBit i = true) :
    (flagWord bits 0 names).testBit i = true ↔ name ∈ names := by
  rw [testBit_flagWord, Nat.zero_testBit]
  constructor
  · rintro (hzero | ⟨other, hother, hbit⟩)
    · cases hzero
    · exact h.apart name hname other (hnames other hother) i hi hbit ▸ hother
  · exact fun hmem => .inr ⟨name, hmem, hi⟩

/-- Two lists of flags have one word only when they have the same flags. -/
lemma OwnBits.same {bits : κ → ℕ} {all xs ys : List κ} (h : OwnBits bits all) (hxs : ∀ name ∈ xs, name ∈ all)
    (hys : ∀ name ∈ ys, name ∈ all) (hword : flagWord bits 0 xs = flagWord bits 0 ys) (name : κ) :
    name ∈ xs ↔ name ∈ ys := by
  by_cases hname : name ∈ all
  · obtain ⟨i, hi⟩ := h.some name hname
    rw [← h.mem_iff hxs hname hi, ← h.mem_iff hys hname hi, hword]
  · exact iff_of_false (fun hx => hname (hxs name hx)) (fun hy => hname (hys name hy))

end SciForge
