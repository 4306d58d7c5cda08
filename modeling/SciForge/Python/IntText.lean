import SciForge.Python.Int
import Mathlib.Data.List.Forall2

/-!
# What `int` reads

Plain digits of a base are read as their number, and nothing but digits, underscores, signs, spaces and
the letters of a prefix is read at all.
-/

namespace SciForge

/-- `text` is made of digits of `base`, with the values `ds`. -/
def Digits (base : ℕ) (text : PyStr) (ds : List ℕ) : Prop :=
  List.Forall₂ (fun c d => digitValue c = some d ∧ d < base) text ds

/-! ### Characters -/

lemma digitValue_bounds {c : PyChar} {d : ℕ} (h : digitValue c = some d) :
    (48 ≤ c.val ∧ c.val ≤ 57 ∧ d = c.val - 48) ∨ (97 ≤ c.val ∧ c.val ≤ 122 ∧ d = c.val - 87) ∨
      (65 ≤ c.val ∧ c.val ≤ 90 ∧ d = c.val - 55) := by
  unfold digitValue at h
  split_ifs at h with hdigit hlower hupper
  · exact .inl ⟨hdigit.1, hdigit.2, (Option.some.inj h).symm⟩
  · exact .inr (.inl ⟨hlower.1, hlower.2, (Option.some.inj h).symm⟩)
  · exact .inr (.inr ⟨hupper.1, hupper.2, (Option.some.inj h).symm⟩)

lemma digitValue_underscore : digitValue (ord '_') = none := by decide

lemma digit_not_space {c : PyChar} {d : ℕ} (h : digitValue c = some d) : isAsciiSpace c = false := by
  have hbounds := digitValue_bounds h
  simp only [isAsciiSpace, Bool.or_eq_false_iff, Bool.and_eq_false_iff, decide_eq_false_iff_not]
  omega

lemma digit_ascii {c : PyChar} {d : ℕ} (h : digitValue c = some d) : c.val < 128 := by
  have hbounds := digitValue_bounds h
  omega

lemma digit_ne {c : PyChar} {d : ℕ} (h : digitValue c = some d) {e : PyChar} (he : digitValue e = none) :
    c ≠ e := by
  rintro rfl
  rw [he] at h
  cases h

/-! ### Plain digits -/

section

variable {base : ℕ} {text : PyStr} {ds : List ℕ}

lemma Digits.length_eq (h : Digits base text ds) : text.length = ds.length := List.Forall₂.length_eq h

lemma Digits.of_mem (h : Digits base text ds) {c : PyChar} (hc : c ∈ text) :
    ∃ d, digitValue c = some d ∧ d < base := by
  induction h with
  | nil => cases hc
  | cons hd _ ih =>
    rcases List.mem_cons.mp hc with rfl | hc
    · exact ⟨_, hd⟩
    · exact ih hc

lemma Digits.ascii (h : Digits base text ds) {c : PyChar} (hc : c ∈ text) : c.val < 128 := by
  obtain ⟨d, hd, -⟩ := h.of_mem hc
  exact digit_ascii hd

lemma asciiText_of_ascii (u : UnicodeTable) (h : ∀ c ∈ text, c.val < 128) : u.asciiText text = text :=
  if_pos (List.all_eq_true.mpr (fun c hc => decide_eq_true (h c hc)))

lemma scanDigits_digits (h : Digits base text ds) (digits : List ℕ) :
    scanDigits base digits text = some (digits ++ ds, []) := by
  induction h generalizing digits with
  | nil => simp [scanDigits]
  | @cons c d text ds hd _ ih =>
    unfold scanDigits
    rw [if_neg (digit_ne hd.1 digitValue_underscore), hd.1]
    simp [hd.2, ih]

lemma prefixLetter_value {c : PyChar} (hc : c ∈ [ord 'x', ord 'X', ord 'o', ord 'O']) :
    24 ≤ (digitValue c).getD 0 := by
  have hall : [ord 'x', ord 'X', ord 'o', ord 'O'].all (fun c => 24 ≤ (digitValue c).getD 0) = true := by
    decide
  exact of_decide_eq_true (List.all_eq_true.mp hall c hc)

lemma dropBasePrefix_digits (hbase : base ≤ 24) (h : Digits base text ds) : dropBasePrefix base text = text := by
  cases h with
  | nil => rfl
  | @cons zero d text ds _ h =>
    cases h with
    | nil => rfl
    | @cons letter d text ds hd _ =>
      have hletter : letter ∉ [ord 'x', ord 'X', ord 'o', ord 'O'] := by
        intro hmem
        have hvalue := prefixLetter_value hmem
        rw [hd.1, Option.getD_some] at hvalue
        have hlt := hd.2
        omega
      simp only [List.mem_cons, List.not_mem_nil, or_false, not_or] at hletter
      unfold dropBasePrefix
      split_ifs <;> simp [hletter]

lemma pyInt_of_split {u : UnicodeTable} {given : PyStr} (negative : Bool)
    (hsplit : splitSign ((u.asciiText given).dropWhile isAsciiSpace) = (negative, text))
    (hbase : base ≤ 24) (h : Digits base text ds) (hne : text ≠ []) :
    pyInt u given base =
      if base = 10 ∧ intMaxStrDigits < ds.length then none
      else some (if negative then -(ofDigits base ds : ℤ) else ofDigits base ds) := by
  unfold pyInt
  simp only [hsplit, dropBasePrefix_digits hbase h]
  cases h with
  | nil => exact absurd rfl hne
  | @cons c d text ds hd htail =>
    have hscan := scanDigits_digits (.cons hd htail) []
    simp only [if_neg (digit_ne hd.1 digitValue_underscore), hscan, List.nil_append, List.dropWhile_nil,
      ne_eq, not_true_eq_false, false_or]

lemma dropWhile_digits (h : Digits base text ds) : text.dropWhile isAsciiSpace = text := by
  cases h with
  | nil => rfl
  | cons hd _ => rw [List.dropWhile_cons, digit_not_space hd.1]; rfl

lemma pyInt_digits (u : UnicodeTable) (hbase : base ≤ 24) (h : Digits base text ds) (hne : text ≠ []) :
    pyInt u text base =
      if base = 10 ∧ intMaxStrDigits < ds.length then none else some (ofDigits base ds : ℤ) := by
  refine pyInt_of_split false ?_ hbase h hne
  rw [asciiText_of_ascii u (fun c hc => h.ascii hc), dropWhile_digits h]
  cases h with
  | nil => exact absurd rfl hne
  | cons hd _ =>
    unfold splitSign
    dsimp only
    rw [if_neg (digit_ne hd.1 (by decide)), if_neg (digit_ne hd.1 (by decide))]

lemma pyInt_minus (u : UnicodeTable) (hbase : base ≤ 24) (h : Digits base text ds) (hne : text ≠ []) :
    pyInt u (ord '-' :: text) base =
      if base = 10 ∧ intMaxStrDigits < ds.length then none else some (-(ofDigits base ds : ℤ)) := by
  refine pyInt_of_split true ?_ hbase h hne
  rw [asciiText_of_ascii]
  · rfl
  · exact List.forall_mem_cons.mpr ⟨by decide, fun c hc => h.ascii hc⟩

lemma pyInt_plus (u : UnicodeTable) (hbase : base ≤ 24) (h : Digits base text ds) (hne : text ≠ []) :
    pyInt u (ord '+' :: text) base =
      if base = 10 ∧ intMaxStrDigits < ds.length then none else some (ofDigits base ds : ℤ) := by
  refine pyInt_of_split false ?_ hbase h hne
  rw [asciiText_of_ascii]
  · rfl
  · exact List.forall_mem_cons.mpr ⟨by decide, fun c hc => h.ascii hc⟩

end

/-! ### What is never read -/

/-- A character `int` passes over or reads. -/
def intChar (c : PyChar) : Bool :=
  isAsciiSpace c || (digitValue c).isSome || c = ord '+' || c = ord '-' || c = ord '_'

lemma scanDigits_mem {base : ℕ} {digits ds : List ℕ} {text rest : PyStr}
    (h : scanDigits base digits text = some (ds, rest)) {c : PyChar} (hc : c ∈ text) :
    c ∈ rest ∨ intChar c = true := by
  fun_induction scanDigits base digits text with
  | case1 digits => cases hc
  | case2 => cases h
  | case3 digits e d rest' hd hlt ih =>
    rcases List.mem_cons.mp hc with rfl | hc
    · exact .inr (by decide)
    · rcases List.mem_cons.mp hc with rfl | hc
      · exact .inr (by simp [intChar, hd])
      · exact ih h hc
  | case4 => cases h
  | case5 => cases h
  | case6 digits e tail hne d hd hlt ih =>
    rcases List.mem_cons.mp hc with rfl | hc
    · exact .inr (by simp [intChar, hd])
    · exact ih h hc
  | case7 digits e tail hne d hd hlt =>
    obtain ⟨-, rfl⟩ := Prod.mk.inj (Option.some.inj h)
    exact .inl hc
  | case8 digits e tail hne hd =>
    obtain ⟨-, rfl⟩ := Prod.mk.inj (Option.some.inj h)
    exact .inl hc

lemma dropBasePrefix_mem (base : ℕ) {text : PyStr} {c : PyChar} (hc : c ∈ text) :
    c ∈ dropBasePrefix base text ∨ intChar c = true := by
  have hletters : ∀ e ∈ (if base = 16 then [ord 'x', ord 'X'] else if base = 8 then [ord 'o', ord 'O'] else []),
      intChar e = true := by
    split_ifs <;> simp <;> decide
  unfold dropBasePrefix
  dsimp only
  generalize (if base = 16 then [ord 'x', ord 'X'] else if base = 8 then [ord 'o', ord 'O'] else []) = letters
    at hletters ⊢
  split
  · next zero letter rest =>
    split
    · next hprefix =>
      obtain ⟨rfl, hletter⟩ := hprefix
      rcases List.mem_cons.mp hc with rfl | hc
      · exact .inr (by decide)
      · rcases List.mem_cons.mp hc with rfl | hc
        · exact .inr (hletters _ hletter)
        · cases rest with
          | nil => cases hc
          | cons e rest =>
            by_cases he : e = ord '_'
            · rcases List.mem_cons.mp hc with rfl | hc
              · exact .inr (he ▸ by decide)
              · exact .inl (by simpa [he] using hc)
            · exact .inl (by simpa [he] using hc)
    · exact .inl hc
  · exact .inl hc

lemma splitSign_mem {text : PyStr} {c : PyChar} (hc : c ∈ text) :
    c ∈ (splitSign text).2 ∨ intChar c = true := by
  unfold splitSign
  cases text with
  | nil => cases hc
  | cons e rest =>
    dsimp only
    split_ifs with hminus hplus
    · rcases List.mem_cons.mp hc with rfl | hc
      · exact .inr (hminus ▸ by decide)
      · exact .inl hc
    · rcases List.mem_cons.mp hc with rfl | hc
      · exact .inr (hplus ▸ by decide)
      · exact .inl hc
    · exact .inl hc

lemma dropWhile_space_mem {text : PyStr} {c : PyChar} (hc : c ∈ text) :
    c ∈ text.dropWhile isAsciiSpace ∨ intChar c = true := by
  rw [← List.takeWhile_append_dropWhile (p := isAsciiSpace) (l := text)] at hc
  rcases List.mem_append.mp hc with hc | hc
  · have hspace := List.all_eq_true.mp List.all_takeWhile c hc
    exact .inr (by simp [intChar, hspace])
  · exact .inl hc

lemma pyInt_chars {u : UnicodeTable} {text : PyStr} {base : ℕ} {n : ℤ} (h : pyInt u text base = some n)
    {c : PyChar} (hc : c ∈ u.asciiText text) : intChar c = true := by
  rcases dropWhile_space_mem hc with hc | hc
  · rcases splitSign_mem hc with hc | hc
    · rcases dropBasePrefix_mem base hc with hc | hc
      · unfold pyInt at h
        dsimp only at h
        split at h
        · cases h
        · split at h
          · cases h
          · split at h
            · next d digits rest hscan =>
              split at h
              · cases h
              · next hrest =>
                rw [not_or, not_not] at hrest
                rcases scanDigits_mem hscan hc with hc | hc
                · rcases dropWhile_space_mem hc with hc | hc
                  · rw [hrest.1] at hc
                    cases hc
                  · exact hc
                · exact hc
            · cases h
      · exact hc
    · exact hc
  · exact hc

lemma mem_asciiText {u : UnicodeTable} {text : PyStr} {c : PyChar} (hc : c ∈ text) (hascii : c.val < 127) :
    c ∈ u.asciiText text := by
  unfold UnicodeTable.asciiText
  split
  · exact hc
  · exact List.mem_map.mpr ⟨c, hc, if_pos hascii⟩

lemma pyInt_not_mem {u : UnicodeTable} {text : PyStr} {base : ℕ} {n : ℤ} (h : pyInt u text base = some n)
    {c : PyChar} (hascii : c.val < 127) (hc : intChar c = false) : c ∉ text := by
  intro hmem
  rw [pyInt_chars h (mem_asciiText hmem hascii)] at hc
  cases hc

end SciForge
