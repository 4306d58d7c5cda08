import SciForge.Python.JsonParse
import SciForge.Python.IntText

/-!
# Numbers of the json reader

The reader's numbers, of which an integer has at most as many digits as `int` reads; and a text that is read is
well-formed, with a value for each of its numbers.
-/

namespace SciForge.Json

/-- A number of Python. -/
inductive PyNumber (F : Type)
  | int (n : ℤ)
  | float (x : F)

/-- `parse_int`, and `parse_float` and `parse_constant` for any other text; `none` for a `ValueError`. -/
def pyNumber {F : Type} (u : UnicodeTable) (readFloat : List Char → F) (t : List Char) : Option (PyNumber F) :=
  if (matchMinus t).2.all Char.isDigit then (pyInt u (t.map ord) 10).map .int else some (.float (readFloat t))

variable {N : Type} {readNumber : List Char → Option N}

/-- The numbers of a value. -/
def numbers : Json N → List N
  | .number n => [n]
  | .array items => elementNumbers items
  | .object items => memberNumbers items
  | _ => []
where
  elementNumbers : List (Json N) → List N
    | [] => []
    | v :: rest => v.numbers ++ elementNumbers rest
  memberNumbers : List (PyStr × Json N) → List N
    | [] => []
    | (_, v) :: rest => v.numbers ++ memberNumbers rest

open numbers (elementNumbers memberNumbers)

/-! ### Digits -/

lemma digits_of_all {t : List Char} (h : t.all Char.isDigit = true) :
    ∃ ds : List ℕ, Digits 10 (t.map ord) ds ∧ ds.length = t.length := by
  have hdigit : ∀ c : Char, c.isDigit = true → ∃ d, digitValue (ord c) = some d ∧ d < 10 := by
    intro c hc
    simp only [Char.isDigit, Bool.and_eq_true, decide_eq_true_eq] at hc
    have hlow : 48 ≤ (ord c).val := hc.1
    have hhigh : (ord c).val ≤ 57 := hc.2
    exact ⟨_, if_pos ⟨hlow, hhigh⟩, by omega⟩
  induction t with
  | nil => exact ⟨[], .nil, rfl⟩
  | cons c t ih =>
    rw [List.all_cons, Bool.and_eq_true] at h
    obtain ⟨d, hd⟩ := hdigit c h.1
    obtain ⟨ds, hds, hlength⟩ := ih h.2
    exact ⟨d :: ds, .cons hd hds, congrArg Nat.succ hlength⟩

lemma matchMinus_cases (t : List Char) : (∃ r, t = '-' :: r ∧ matchMinus t = (['-'], r)) ∨ matchMinus t = ([], t) := by
  unfold matchMinus
  split
  · next r => exact .inl ⟨r, rfl, rfl⟩
  · exact .inr rfl

/-- A number of the grammar is read unless it is an integer of more digits than `int` reads. -/
lemma pyNumber_isSome {F : Type} (u : UnicodeTable) (readFloat : List Char → F) {t : List Char}
    (h : matchNumber t = some (t, [])) : (pyNumber u readFloat t).isSome = true ↔
      ((matchMinus t).2.all Char.isDigit = true → (matchMinus t).2.length ≤ intMaxStrDigits) := by
  unfold pyNumber
  by_cases hall : (matchMinus t).2.all Char.isDigit = true
  swap
  · rw [if_neg hall]
    exact iff_of_true rfl (fun h => absurd h hall)
  obtain ⟨ds, hds, hlength⟩ := digits_of_all hall
  have hne : (matchMinus t).2.map ord ≠ [] := by
    intro hnil
    obtain ⟨int, hint, -⟩ := Option.map_eq_some_iff.mp h
    rw [List.map_eq_nil_iff.mp hnil] at hint
    cases hint
  have hread : pyInt u (t.map ord) 10 = if 10 = 10 ∧ intMaxStrDigits < ds.length then none
      else some (if (matchMinus t).1 = [] then (ofDigits 10 ds : ℤ) else -(ofDigits 10 ds : ℤ)) := by
    rcases matchMinus_cases t with ⟨r, rfl, hminus⟩ | hminus
    · rw [hminus] at hds hne ⊢
      exact pyInt_minus u (by decide) hds hne
    · rw [hminus] at hds hne ⊢
      exact pyInt_digits u (by decide) hds hne
  rw [if_pos hall, hread, hlength]
  by_cases hlong : intMaxStrDigits < (matchMinus t).2.length
  · rw [if_pos ⟨rfl, hlong⟩]
    exact iff_of_false Bool.false_ne_true (fun h => absurd (h hall) (Nat.not_le.mpr hlong))
  · rw [if_neg (fun h => hlong h.2)]
    exact iff_of_true rfl (fun _ => Nat.le_of_not_lt hlong)

/-! ### Texts that are read -/

lemma mem_memberNumbers {items : List (PyStr × Json N)} {n : N} :
    n ∈ memberNumbers items ↔ ∃ item ∈ items, n ∈ item.2.numbers := by
  induction items with
  | nil => simp [memberNumbers]
  | cons item rest ih => simp [memberNumbers, ih]

lemma matchAtom_raw {t r : List Char} {v : Json N} (h : matchAtom readNumber t = some (v, r)) :
    ∃ raw : Json (List Char), matchAtom some t = some (raw, r) ∧ ∀ n ∈ raw.numbers, (readNumber n).isSome = true := by
  by_cases hquote : ∃ r, t = '"' :: r
  · obtain ⟨t', rfl⟩ := hquote
    rw [matchAtom_quote] at h
    obtain ⟨str, hstr, hr⟩ := Option.map_eq_some_iff.mp h
    cases hr
    refine ⟨.string str.1, ?_, fun n hn => absurd hn List.not_mem_nil⟩
    rw [matchAtom_quote, hstr]
    rfl
  · rw [matchAtom_other (not_exists.mp hquote)] at h
    simp only [matchAtom_other (not_exists.mp hquote)]
    rcases Option.or_eq_some_iff.mp h with hword | ⟨-, hnumber⟩
    · have hraw : ∃ raw : Json (List Char), matchWord some t = some (raw, r) ∧
          ∀ n ∈ raw.numbers, (readNumber n).isSome = true := by
        unfold matchWord at hword
        split at hword
        all_goals first
          | (cases hword; exact ⟨_, rfl, fun n hn => absurd hn List.not_mem_nil⟩)
          | (obtain ⟨v', hv', hr⟩ := Option.map_eq_some_iff.mp hword
             cases hr
             exact ⟨.number _, rfl, fun n hn => by rw [List.mem_singleton.mp hn, hv']; rfl⟩)
          | cases hword
      obtain ⟨raw, hmatch, hnumbers⟩ := hraw
      exact ⟨raw, by rw [hmatch]; rfl, hnumbers⟩
    · obtain ⟨n, hn, hread⟩ := Option.bind_eq_some_iff.mp hnumber
      obtain ⟨v', hv', hr⟩ := Option.map_eq_some_iff.mp hread
      cases hr
      refine ⟨.number n.1, ?_, fun m hm => by rw [List.mem_singleton.mp hm, hv']; rfl⟩
      rw [matchWord_number hn, hn]
      rfl

/-- The text denotes an item of the same kind with the texts of its numbers for them, and each is read. -/
def Item.ReadFrom (readNumber : List Char → Option N) (t r : List Char) : Item N → Prop
  | .value _ => ∃ raw, Parses some t (.value raw) r ∧ ∀ n ∈ raw.numbers, (readNumber n).isSome = true
  | .members _ => ∃ raw, Parses some t (.members raw) r ∧ ∀ n ∈ memberNumbers raw, (readNumber n).isSome = true
  | .elements _ => ∃ raw, Parses some t (.elements raw) r ∧ ∀ n ∈ elementNumbers raw, (readNumber n).isSome = true

lemma Parses.readFrom {t r : List Char} {item : Item N} (h : Parses readNumber t item r) :
    item.ReadFrom readNumber t r := by
  induction h with
  | atom h =>
    obtain ⟨raw, hraw, hnumbers⟩ := matchAtom_raw h
    exact ⟨raw, .atom hraw, hnumbers⟩
  | emptyArray h => exact ⟨.array [], .emptyArray h, fun n hn => absurd hn List.not_mem_nil⟩
  | array _ ih =>
    obtain ⟨raw, hraw, hnumbers⟩ := ih
    exact ⟨.array raw, .array hraw, hnumbers⟩
  | emptyObject h => exact ⟨.object [], .emptyObject h, fun n hn => absurd hn List.not_mem_nil⟩
  | object _ ih =>
    obtain ⟨raw, hraw, hnumbers⟩ := ih
    refine ⟨.object (Dict.update [] raw), .object hraw, fun n hn => ?_⟩
    -- of a repeated key only the last value is left
    obtain ⟨item, hitem, hn⟩ := mem_memberNumbers.mp hn
    exact hnumbers n (mem_memberNumbers.mpr ⟨item, (Dict.mem_of_mem_update hitem).resolve_left List.not_mem_nil, hn⟩)
  | lastElement _ hr ih =>
    obtain ⟨raw, hraw, hnumbers⟩ := ih
    refine ⟨[raw], .lastElement hraw hr, fun n hn => hnumbers n ?_⟩
    rwa [elementNumbers, elementNumbers, List.append_nil] at hn
  | nextElement _ hr _ ih ih' =>
    obtain ⟨raw, hraw, hnumbers⟩ := ih
    obtain ⟨raws, hraws, hnumbers'⟩ := ih'
    refine ⟨raw :: raws, .nextElement hraw hr hraws, fun n hn => ?_⟩
    rcases List.mem_append.mp hn with hn | hn
    · exact hnumbers n hn
    · exact hnumbers' n hn
  | lastMember hkey hr _ hr' ih =>
    obtain ⟨raw, hraw, hnumbers⟩ := ih
    refine ⟨[(_, raw)], .lastMember hkey hr hraw hr', fun n hn => hnumbers n ?_⟩
    rwa [memberNumbers, memberNumbers, List.append_nil] at hn
  | nextMember hkey hr _ hr' _ ih ih' =>
    obtain ⟨raw, hraw, hnumbers⟩ := ih
    obtain ⟨raws, hraws, hnumbers'⟩ := ih'
    refine ⟨(_, raw) :: raws, .nextMember hkey hr hraw hr' hraws, fun n hn => ?_⟩
    rcases List.mem_append.mp hn with hn | hn
    · exact hnumbers n hn
    · exact hnumbers' n hn

/-- A text that is read is well-formed, and each of its numbers is read. -/
theorem loads_numbers {t : List Char} {v : Json N} (h : loads readNumber t = some v) :
    ∃ raw, loads some t = some raw ∧ ∀ n ∈ raw.numbers, (readNumber n).isSome = true := by
  obtain ⟨r, hparses, hrest⟩ := loads_iff.mp h
  obtain ⟨raw, hraw, hnumbers⟩ := hparses.readFrom
  exact ⟨raw, loads_iff.mpr ⟨r, hraw, hrest⟩, hnumbers⟩

end SciForge.Json
