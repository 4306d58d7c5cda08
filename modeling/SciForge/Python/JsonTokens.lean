import SciForge.Python.Json
import Mathlib.Data.List.Infix
import Mathlib.Data.List.TakeWhile

/-!
# Tokens of the json reader

What the scanner reads of a text it reads also in front of a bracket or a comma, and every token takes at least
one character.
-/

namespace SciForge.Json

variable {N : Type} {readNumber : List Char → Option N}

/-! ### Tokens in front of a delimiter -/

/-- The text is empty or starts with what may follow a value. -/
def Delimited (s : List Char) : Prop := ∀ c ∈ s.head?, c = ',' ∨ c = ']' ∨ c = '}'

lemma dropWhile_append_of_head {p : Char → Bool} {s : List Char} (hs : ∀ c ∈ s.head?, p c = false) (t : List Char) :
    (t ++ s).dropWhile p = t.dropWhile p ++ s := by
  induction t with
  | nil =>
    cases s with
    | nil => rfl
    | cons c s => simp [hs c rfl]
  | cons c t ih =>
    cases hc : p c with
    | true => simpa [hc] using ih
    | false => simp [hc]

lemma takeWhile_append_of_head {p : Char → Bool} {s : List Char} (hs : ∀ c ∈ s.head?, p c = false) (t : List Char) :
    (t ++ s).takeWhile p = t.takeWhile p := by
  induction t with
  | nil =>
    cases s with
    | nil => rfl
    | cons c s => simp [hs c rfl]
  | cons c t ih =>
    cases hc : p c with
    | true => simpa [hc] using ih
    | false => simp [hc]

/-- The text is empty or starts with what may come right behind a value, a line break included. -/
def Ended (s : List Char) : Prop := ∀ c ∈ s.head?, c = ',' ∨ c = ']' ∨ c = '}' ∨ c = '\n'

lemma Delimited.ended {s : List Char} (hs : Delimited s) : Ended s := by
  intro c hc
  rcases hs c hc with h | h | h
  · exact .inl h
  · exact .inr (.inl h)
  · exact .inr (.inr (.inl h))

lemma Delimited.head {s : List Char} (hs : Delimited s) {p : Char → Bool}
    (hp : p ',' = false ∧ p ']' = false ∧ p '}' = false) :
    ∀ c ∈ s.head?, p c = false := by
  intro c hc
  rcases hs c hc with rfl | rfl | rfl
  · exact hp.1
  · exact hp.2.1
  · exact hp.2.2

lemma Ended.head {s : List Char} (hs : Ended s) {p : Char → Bool}
    (hp : p ',' = false ∧ p ']' = false ∧ p '}' = false ∧ p '\n' = false) :
    ∀ c ∈ s.head?, p c = false := by
  intro c hc
  rcases hs c hc with rfl | rfl | rfl | rfl
  · exact hp.1
  · exact hp.2.1
  · exact hp.2.2.1
  · exact hp.2.2.2

lemma Ended.cases {s : List Char} (hs : Ended s) :
    s = [] ∨ ∃ c r, s = c :: r ∧ (c = ',' ∨ c = ']' ∨ c = '}' ∨ c = '\n') := by
  cases s with
  | nil => exact .inl rfl
  | cons c r => exact .inr ⟨c, r, rfl, hs c rfl⟩

lemma matchInt_zero (t : List Char) : matchInt ('0' :: t) = some (['0'], t) := rfl

lemma matchInt_of_ne {c : Char} (hc : c ≠ '0') (t : List Char) :
    matchInt (c :: t) = if c.isDigit then some (digits (c :: t)) else none := by
  unfold matchInt
  split
  · next h => exact absurd (List.cons.inj h).1 hc
  · cases hd : c.isDigit with
    | true => simp [digits, hd]
    | false => simp [digits, hd]

lemma matchFraction_dot (t : List Char) :
    matchFraction ('.' :: t) = if (digits t).1 = [] then ([], '.' :: t) else ('.' :: (digits t).1, (digits t).2) := by
  simp only [matchFraction]
  split
  · next h => rw [h]; rfl
  · next h => rw [h]; rfl

lemma matchFraction_of_ne {c : Char} (hc : c ≠ '.') (t : List Char) : matchFraction (c :: t) = ([], c :: t) := by
  unfold matchFraction
  split
  · next h => exact absurd (List.cons.inj h).1 hc
  · rfl

lemma matchExponent_cons (c : Char) (t : List Char) :
    matchExponent (c :: t) = if (c = 'e' ∨ c = 'E') ∧ (digits (matchSign t).2).1 ≠ [] then
      (c :: (matchSign t).1 ++ (digits (matchSign t).2).1, (digits (matchSign t).2).2) else ([], c :: t) := by
  simp only [matchExponent]
  split
  · next hc =>
    split
    · next h => simp [h]
    · next h => simp [h, hc]
  · next hc => simp [hc]

lemma skipWs_append {s : List Char} (hs : Delimited s) (t : List Char) : skipWs (t ++ s) = skipWs t ++ s :=
  dropWhile_append_of_head (hs.head (by decide)) t

section Ended

variable {s : List Char} (hs : Ended s)
include hs

lemma digits_append (t : List Char) : digits (t ++ s) = ((digits t).1, (digits t).2 ++ s) := by
  have hdigit := hs.head (p := Char.isDigit) (by decide)
  rw [digits, takeWhile_append_of_head hdigit, dropWhile_append_of_head hdigit]
  rfl

lemma matchInt_append {t int r : List Char} (h : matchInt t = some (int, r)) :
    matchInt (t ++ s) = some (int, r ++ s) := by
  cases t with
  | nil => cases h
  | cons c t =>
    by_cases hc : c = '0'
    · subst hc
      rw [matchInt_zero] at h
      cases h
      rfl
    · rw [matchInt_of_ne hc] at h
      rw [List.cons_append, matchInt_of_ne hc, ← List.cons_append, digits_append hs]
      split at h
      · rw [Option.some.inj h, if_pos ‹_›]
      · cases h

lemma matchFraction_append (t : List Char) :
    matchFraction (t ++ s) = ((matchFraction t).1, (matchFraction t).2 ++ s) := by
  cases t with
  | nil =>
    obtain rfl | ⟨c, r, rfl, hc⟩ := hs.cases
    · rfl
    · rw [List.nil_append, matchFraction_of_ne (by rintro rfl; simp at hc)]
      rfl
  | cons c t =>
    by_cases hc : c = '.'
    · subst hc
      rw [List.cons_append, matchFraction_dot, matchFraction_dot, digits_append hs]
      split <;> rfl
    · rw [List.cons_append, matchFraction_of_ne hc, matchFraction_of_ne hc]
      rfl

lemma matchSign_append (t : List Char) : matchSign (t ++ s) = ((matchSign t).1, (matchSign t).2 ++ s) := by
  cases t with
  | nil => obtain rfl | ⟨c, r, rfl, rfl | rfl | rfl | rfl⟩ := hs.cases <;> rfl
  | cons c t =>
    unfold matchSign
    split
    · next h => cases h; rfl
    · next h => cases h; rfl
    · next hplus hminus =>
      split
      · next h => exact absurd (congrArg (· ++ s) h) (hplus _)
      · next h => exact absurd (congrArg (· ++ s) h) (hminus _)
      · rfl

lemma matchExponent_append (t : List Char) :
    matchExponent (t ++ s) = ((matchExponent t).1, (matchExponent t).2 ++ s) := by
  cases t with
  | nil => obtain rfl | ⟨c, r, rfl, rfl | rfl | rfl | rfl⟩ := hs.cases <;> rfl
  | cons c t =>
    rw [List.cons_append, matchExponent_cons, matchExponent_cons, matchSign_append hs, digits_append hs]
    split <;> rfl

lemma matchMinus_append (t : List Char) : matchMinus (t ++ s) = ((matchMinus t).1, (matchMinus t).2 ++ s) := by
  cases t with
  | nil => obtain rfl | ⟨c, r, rfl, rfl | rfl | rfl | rfl⟩ := hs.cases <;> rfl
  | cons c t =>
    unfold matchMinus
    split
    · next h => cases h; rfl
    · next hminus =>
      split
      · next h => exact absurd (congrArg (· ++ s) h) (hminus _)
      · rfl

lemma matchNumber_append {t n r : List Char} (h : matchNumber t = some (n, r)) :
    matchNumber (t ++ s) = some (n, r ++ s) := by
  obtain ⟨int, hint, hr⟩ := Option.map_eq_some_iff.mp h
  rw [matchNumber, matchMinus_append hs, matchInt_append hs hint]
  simp only [Option.map_some, matchFraction_append hs, matchExponent_append hs]
  cases hr
  rfl

end Ended

/-! ### Strings in front of any text -/

lemma scanString_backslash (t : List Char) :
    scanString ('\\' :: t) =
      (matchEscape t).bind (fun c => (scanString c.2).map (fun s => (c.1 :: s.1, s.2))) := by
  rw [scanString]
  simp only [Char.reduceEq, ↓reduceIte]
  split
  · next h => rw [h]; rfl
  · next h => rw [h]; rfl

lemma scanString_other {c : Char} (hquote : c ≠ '"') (hback : c ≠ '\\') (t : List Char) :
    scanString (c :: t) = if c.toNat < 0x20 then none else (scanString t).map (fun s => (ord c :: s.1, s.2)) := by
  rw [scanString, if_neg hquote, if_neg hback]

lemma scanString_short {t : List Char} (h : t.length < 4) : scanString ('\\' :: 'u' :: t) = none := by
  have hescape : matchEscape ('u' :: t) = none := by
    unfold matchEscape
    split
    · next ht =>
      obtain rfl := (List.cons.inj ht).2
      simp only [List.length_cons] at h
      omega
    · next ht =>
      obtain ⟨rfl, -⟩ := List.cons.inj ht
      rfl
    · rfl
  rw [scanString_backslash, hescape]
  rfl

lemma joinEscapes_append {high : ℕ} {t r : List Char} {c : PyChar} {str : PyStr × List Char}
    (h : joinEscapes high t = some (c, r)) (hscan : scanString r = some str) (s : List Char) :
    joinEscapes high (t ++ s) = some (c, r ++ s) := by
  unfold joinEscapes at h
  split at h
  · next a b c' d t =>
    simp only [List.cons_append, joinEscapes]
    split at h
    · next hhigh =>
      rw [if_pos hhigh]
      split at h
      · cases h
      · split at h <;> obtain ⟨rfl, rfl⟩ := Prod.mk.inj (Option.some.inj h)
        · next hlow => simp only [hlow, ↓reduceIte]
        · next hlow => simp only [hlow]; rfl
    · next hhigh =>
      obtain ⟨rfl, rfl⟩ := Prod.mk.inj (Option.some.inj h)
      rw [if_neg hhigh]
      rfl
  · next hshort =>
    obtain ⟨rfl, rfl⟩ := Prod.mk.inj (Option.some.inj h)
    unfold joinEscapes
    split
    · next a b c' d t' ht =>
      -- a text that needs some of `s` for the pair is no string by itself
      rcases t with _ | ⟨x, _ | ⟨y, l⟩⟩
      · rw [scanString] at hscan
        cases hscan
      · obtain ⟨rfl, -⟩ := List.cons.inj ht
        rw [scanString_backslash] at hscan
        cases hscan
      · obtain ⟨rfl, htail⟩ := List.cons.inj ht
        obtain ⟨rfl, -⟩ := List.cons.inj htail
        have hfew : l.length < 4 := by
          rcases l with _ | ⟨a, _ | ⟨b, _ | ⟨c, _ | ⟨d, l⟩⟩⟩⟩
          any_goals simp only [List.length_cons, List.length_nil, Nat.reduceAdd, Nat.reduceLT]
          exact absurd rfl (hshort a b c d l)
        rw [scanString_short hfew] at hscan
        cases hscan
    · rfl

lemma matchEscape_append {t r : List Char} {c : PyChar} {str : PyStr × List Char}
    (h : matchEscape t = some (c, r)) (hscan : scanString r = some str) (s : List Char) :
    matchEscape (t ++ s) = some (c, r ++ s) := by
  unfold matchEscape at h
  split at h
  · split at h
    · cases h
    · next high hhigh =>
      simp only [List.cons_append, matchEscape, hhigh]
      exact joinEscapes_append h hscan s
  · next c' t hfull =>
    obtain ⟨x, hx, hr⟩ := Option.map_eq_some_iff.mp h
    obtain ⟨rfl, rfl⟩ := Prod.mk.inj hr
    have hu : c' ≠ 'u' := by
      rintro rfl
      cases hx
    rw [List.cons_append]
    unfold matchEscape
    split
    · next ht => exact absurd (List.cons.inj ht).1 hu
    · next ht =>
      obtain ⟨rfl, rfl⟩ := List.cons.inj ht
      rw [hx]
      rfl
    · next ht => cases ht
  · cases h

/-- The induction over a string that is scanned to its end. -/
lemma scanString_induction {P : List Char → PyStr → List Char → Prop} (hquote : ∀ t, P ('"' :: t) [] t)
    (hescape : ∀ t c t' str r, matchEscape t = some (c, t') → scanString t' = some (str, r) → P t' str r →
      P ('\\' :: t) (c :: str) r)
    (hother : ∀ c t str r, c ≠ '"' → c ≠ '\\' → ¬c.toNat < 0x20 → P t str r → P (c :: t) (ord c :: str) r)
    {t r : List Char} {str : PyStr} (h : scanString t = some (str, r)) : P t str r := by
  induction t using scanString.induct generalizing str with
  | case1 =>
    rw [scanString] at h
    cases h
  | case2 t =>
    rw [scanString, if_pos rfl] at h
    cases h
    exact hquote _
  | case3 t hnone =>
    rw [scanString_backslash, hnone] at h
    cases h
  | case4 t c t' hsome _ _ ih =>
    rw [scanString_backslash, hsome] at h
    obtain ⟨str', hstr', hr⟩ := Option.map_eq_some_iff.mp h
    cases hr
    exact hescape t c t' _ _ hsome hstr' (ih hstr')
  | case5 c t hne hne' hcontrol =>
    rw [scanString_other hne hne', if_pos hcontrol] at h
    cases h
  | case6 c t hne hne' hcontrol ih =>
    rw [scanString_other hne hne', if_neg hcontrol] at h
    obtain ⟨str', hstr', hr⟩ := Option.map_eq_some_iff.mp h
    cases hr
    exact hother c t _ _ hne hne' hcontrol (ih hstr')

lemma scanString_append {t r : List Char} {str : PyStr} (h : scanString t = some (str, r)) (s : List Char) :
    scanString (t ++ s) = some (str, r ++ s) := by
  refine scanString_induction (P := fun t str r => scanString (t ++ s) = some (str, r ++ s)) ?_ ?_ ?_ h
  · intro t
    rw [List.cons_append, scanString, if_pos rfl]
  · intro t c t' str r hescape hscan ih
    rw [List.cons_append, scanString_backslash, matchEscape_append hescape hscan s, Option.bind_some, ih]
    rfl
  · intro c t str r hquote hback hcontrol ih
    rw [List.cons_append, scanString_other hquote hback, if_neg hcontrol, ih]
    rfl

lemma matchWord_append {t r : List Char} {v : Json N} (h : matchWord readNumber t = some (v, r)) (s : List Char) :
    matchWord readNumber (t ++ s) = some (v, r ++ s) := by
  unfold matchWord at h
  split at h
  all_goals first
    | (cases h; rfl)
    | (obtain ⟨n, hn, hr⟩ := Option.map_eq_some_iff.mp h; cases hr; simp only [List.cons_append, matchWord, hn]; rfl)
    | cases h

lemma matchNumber_head {t : List Char} {n : List Char × List Char} (h : matchNumber t = some n) :
    (∃ d r, t = d :: r ∧ d.isDigit) ∨ ∃ d r, t = '-' :: d :: r ∧ d.isDigit := by
  have hint : ∀ {t : List Char} {int}, matchInt t = some int → ∃ d r, t = d :: r ∧ d.isDigit := by
    rintro (_ | ⟨d, r⟩) int hint
    · cases hint
    · by_cases hd : d = '0'
      · exact ⟨d, r, rfl, by rw [hd]; rfl⟩
      · rw [matchInt_of_ne hd] at hint
        split at hint
        · exact ⟨d, r, rfl, ‹_›⟩
        · cases hint
  obtain ⟨int, hmatch, -⟩ := Option.map_eq_some_iff.mp h
  unfold matchMinus at hmatch
  split at hmatch
  · obtain ⟨d, r, rfl, hd⟩ := hint hmatch
    exact .inr ⟨d, r, rfl, hd⟩
  · exact .inl (hint hmatch)

lemma matchWord_digit {d : Char} (hd : d.isDigit) (r : List Char) : matchWord readNumber (d :: r) = none := by
  unfold matchWord
  split
  all_goals first | rfl | (next h => obtain ⟨rfl, -⟩ := List.cons.inj h; cases hd)

lemma matchWord_minus {d : Char} (hd : d.isDigit) (r : List Char) :
    matchWord readNumber ('-' :: d :: r) = none := by
  unfold matchWord
  split
  all_goals first
    | rfl
    | (next h => exact absurd (List.cons.inj h).1 (by decide))
    | (next h => obtain ⟨rfl, -⟩ := List.cons.inj (List.cons.inj h).2; cases hd)

lemma matchWord_number {t : List Char} {n : List Char × List Char} (h : matchNumber t = some n) :
    matchWord readNumber t = none := by
  obtain ⟨d, r, rfl, hd⟩ | ⟨d, r, rfl, hd⟩ := matchNumber_head h
  · exact matchWord_digit hd r
  · exact matchWord_minus hd r

lemma matchAtom_quote (t : List Char) :
    matchAtom readNumber ('"' :: t) = (scanString t).map (fun s => (.string s.1, s.2)) := rfl

lemma matchAtom_other {t : List Char} (ht : ∀ r, t ≠ '"' :: r) : matchAtom readNumber t =
    (matchWord readNumber t).or
      ((matchNumber t).bind (fun n => (readNumber n.1).map (fun v => (.number v, n.2)))) := by
  unfold matchAtom
  split
  · next h => exact absurd rfl (ht _)
  · rfl

lemma matchAtom_word {t : List Char} (h : t = ['N', 'a', 'N'] ∨ t = ['I', 'n', 'f', 'i', 'n', 'i', 't', 'y'] ∨
    t = ['-', 'I', 'n', 'f', 'i', 'n', 'i', 't', 'y']) (s : List Char) :
    matchAtom readNumber (t ++ s) = (readNumber t).map (fun n => (.number n, s)) := by
  rcases h with rfl | rfl | rfl <;> exact Option.or_none

lemma matchAtom_append {t r : List Char} {v : Json N} (h : matchAtom readNumber t = some (v, r)) {s : List Char}
    (hs : Ended s) : matchAtom readNumber (t ++ s) = some (v, r ++ s) := by
  by_cases hquote : ∃ r, t = '"' :: r
  · obtain ⟨t', rfl⟩ := hquote
    rw [matchAtom_quote] at h
    obtain ⟨str, hstr, hr⟩ := Option.map_eq_some_iff.mp h
    cases hr
    rw [List.cons_append, matchAtom_quote, scanString_append hstr]
    rfl
  · rw [matchAtom_other (not_exists.mp hquote)] at h
    have hquote' : ∀ r, t ++ s ≠ '"' :: r := by
      intro r' hr'
      cases t with
      | nil => cases h
      | cons c t => exact hquote ⟨t, by rw [(List.cons.inj hr').1]⟩
    rw [matchAtom_other hquote']
    rcases Option.or_eq_some_iff.mp h with hword | ⟨-, hnumber⟩
    · rw [matchWord_append hword]
      rfl
    · obtain ⟨n, hn, hread⟩ := Option.bind_eq_some_iff.mp hnumber
      obtain ⟨v', hv', hr⟩ := Option.map_eq_some_iff.mp hread
      cases hr
      have happend := matchNumber_append hs hn
      rw [matchWord_number happend, happend, Option.none_or, Option.bind_some, hv']
      rfl

/-! ### Lengths -/

lemma length_skipWs (t : List Char) : (skipWs t).length ≤ t.length := List.length_dropWhile_le isWs t

lemma length_of_skipWs {t r : List Char} (h : skipWs t = r) : r.length ≤ t.length := h ▸ length_skipWs t

lemma length_scanString {t r : List Char} {str : PyStr} (h : scanString t = some (str, r)) : r.length < t.length := by
  refine scanString_induction (P := fun t _ r => r.length < t.length) ?_ ?_ ?_ h
  · intro t
    simp
  · intro t c t' str r hescape _ ih
    have hlt := length_matchEscape hescape
    simp only [List.length_cons]
    omega
  · intro c t str r _ _ _ ih
    simp only [List.length_cons]
    omega

lemma length_matchNumber {t n r : List Char} (h : matchNumber t = some (n, r)) : r.length < t.length := by
  have hdigits : ∀ t, (digits t).2.length ≤ t.length := fun t => List.length_dropWhile_le Char.isDigit t
  have hminus : ∀ t, (matchMinus t).2.length ≤ t.length := by
    intro t
    unfold matchMinus
    split <;> simp
  have hsign : ∀ t, (matchSign t).2.length ≤ t.length := by
    intro t
    unfold matchSign
    split <;> simp
  have hfraction : ∀ t, (matchFraction t).2.length ≤ t.length := by
    rintro (_ | ⟨c, t⟩)
    · rfl
    · by_cases hc : c = '.'
      · have ht := hdigits t
        rw [hc, matchFraction_dot]
        split <;> simp only [List.length_cons, le_refl]
        omega
      · rw [matchFraction_of_ne hc]
  have hexponent : ∀ t, (matchExponent t).2.length ≤ t.length := by
    rintro (_ | ⟨c, t⟩)
    · rfl
    · have ht := hdigits (matchSign t).2
      have ht' := hsign t
      rw [matchExponent_cons]
      split <;> simp only [List.length_cons, le_refl]
      omega
  have hint : ∀ {t int}, matchInt t = some int → int.2.length < t.length := by
    rintro (_ | ⟨c, t⟩) int h
    · cases h
    · by_cases hc : c = '0'
      · rw [hc, matchInt_zero] at h
        cases h
        simp
      · rw [matchInt_of_ne hc] at h
        split at h
        · next hd =>
          have ht := hdigits t
          rw [digits, List.dropWhile_cons_of_pos hd] at h
          cases h
          exact Nat.lt_succ_of_le ht
        · cases h
  obtain ⟨int, hmatch, hr⟩ := Option.map_eq_some_iff.mp h
  cases hr
  have h1 := hexponent (matchFraction int.2).2
  have h2 := hfraction int.2
  have h3 := hint hmatch
  have h4 := hminus t
  omega

lemma length_matchWord {t r : List Char} {v : Json N} (h : matchWord readNumber t = some (v, r)) :
    r.length < t.length := by
  unfold matchWord at h
  split at h
  all_goals first
    | (cases h; simp only [List.length_cons]; omega)
    | (obtain ⟨n, -, hr⟩ := Option.map_eq_some_iff.mp h; cases hr; simp only [List.length_cons]; omega)
    | cases h

lemma length_matchAtom {t r : List Char} {v : Json N} (h : matchAtom readNumber t = some (v, r)) :
    r.length < t.length := by
  by_cases hquote : ∃ r, t = '"' :: r
  · obtain ⟨t', rfl⟩ := hquote
    rw [matchAtom_quote] at h
    obtain ⟨str, hstr, hr⟩ := Option.map_eq_some_iff.mp h
    cases hr
    exact Nat.lt_succ_of_lt (length_scanString hstr)
  · rw [matchAtom_other (not_exists.mp hquote)] at h
    rcases Option.or_eq_some_iff.mp h with hword | ⟨-, hnumber⟩
    · exact length_matchWord hword
    · obtain ⟨n, hn, hread⟩ := Option.bind_eq_some_iff.mp hnumber
      obtain ⟨v', -, hr⟩ := Option.map_eq_some_iff.mp hread
      cases hr
      exact length_matchNumber hn

end SciForge.Json
