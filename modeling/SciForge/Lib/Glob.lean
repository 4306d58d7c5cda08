import Mathlib.Data.List.Infix

/-!
# Shell patterns

The patterns of a shell's `case`: `*`, `?`, bracket expressions with their ranges by code, and quoted characters, matched
against a whole text. What stands in brackets is taken as it is: classes such as `[:alpha:]` and quoted characters are
not read there.
-/

namespace SciForge.Glob

/-- A `[…]` is its ranges, a single character being a range of one. -/
inductive Token
  | one (c : Char)
  | any
  | star
  | set (negated : Bool) (ranges : List (Char × Char))
deriving DecidableEq

abbrev Pattern := List Token

/-! ### Reading a pattern -/

/-- The items of a bracket expression up to its `]`, and what follows. A first `]` is an item, or begins a range. -/
def readItems (first : Bool) : List Char → Option (List (Char × Char) × List Char)
  | [] => none
  | c :: '-' :: e :: rest =>
    if c = ']' ∧ first = false then some ([], '-' :: e :: rest)
    else if e = ']' then (readItems false ('-' :: e :: rest)).map (fun r => ((c, c) :: r.1, r.2))
    else (readItems false rest).map (fun r => ((c, e) :: r.1, r.2))
  | c :: rest =>
    if c = ']' ∧ first = false then some ([], rest)
    else (readItems false rest).map (fun r => ((c, c) :: r.1, r.2))

/-- A bracket expression after its `[`. -/
def readSet : List Char → Option (Token × List Char)
  | '!' :: rest => (readItems true rest).map (fun r => (.set true r.1, r.2))
  | '^' :: rest => (readItems true rest).map (fun r => (.set true r.1, r.2))
  | text => (readItems true text).map (fun r => (.set false r.1, r.2))

/-- The tokens of a pattern, from at most `fuel` characters. A `[` without its `]` stands for itself. -/
def readFrom : ℕ → List Char → Pattern
  | 0, _ => []
  | _, [] => []
  | fuel + 1, '*' :: rest => .star :: readFrom fuel rest
  | fuel + 1, '?' :: rest => .any :: readFrom fuel rest
  | fuel + 1, '\\' :: c :: rest => .one c :: readFrom fuel rest
  | fuel + 1, '[' :: rest =>
    match readSet rest with
    | some (token, after) => token :: readFrom fuel after
    | none => .one '[' :: readFrom fuel rest
  | fuel + 1, c :: rest => .one c :: readFrom fuel rest

def read (text : List Char) : Pattern := readFrom text.length text

example : read "[]-b]?".toList = [.set false [(']', 'b')], .any] := by decide

/-! ### Matching -/

/-- A token other than `*` reads one character. -/
def Token.accepts : Token → Char → Bool
  | .one c, d => c = d
  | .any, _ => true
  | .star, _ => false
  | .set negated ranges, d => negated != ranges.any (fun r => r.1 ≤ d && d ≤ r.2)

/-- The whole text matches. -/
def accepts : Pattern → List Char → Bool
  | [], text => text.isEmpty
  | .star :: rest, text => text.tails.any (accepts rest)
  | token :: rest, text =>
    match text with
    | [] => false
    | c :: text => token.accepts c && accepts rest text

/-! ### What a pattern means -/

/-- What a token stands for in a text. -/
def Token.Reads : Token → List Char → Prop
  | .star, _ => True
  | token, text => ∃ c, text = [c] ∧ token.accepts c = true

/-- The text is cut in pieces that the tokens stand for. -/
def Matches (p : Pattern) (text : List Char) : Prop := ∃ pieces, List.Forall₂ Token.Reads p pieces ∧ pieces.flatten = text

lemma matches_nil {text : List Char} : Matches [] text ↔ text = [] := by
  constructor
  · rintro ⟨pieces, hpieces, rfl⟩
    cases hpieces
    rfl
  · rintro rfl
    exact ⟨[], .nil, rfl⟩

lemma matches_cons {token : Token} {p : Pattern} {text : List Char} :
    Matches (token :: p) text ↔ ∃ piece rest, text = piece ++ rest ∧ token.Reads piece ∧ Matches p rest := by
  constructor
  · rintro ⟨pieces, hpieces, rfl⟩
    cases hpieces with
    | cons hpiece hrest => exact ⟨_, _, rfl, hpiece, _, hrest, rfl⟩
  · rintro ⟨piece, rest, rfl, hpiece, pieces, hpieces, rfl⟩
    exact ⟨piece :: pieces, .cons hpiece hpieces, rfl⟩

lemma matches_star_cons {p : Pattern} {text : List Char} :
    Matches (.star :: p) text ↔ ∃ rest, rest <:+ text ∧ Matches p rest := by
  rw [matches_cons]
  constructor
  · rintro ⟨piece, rest, rfl, -, hrest⟩
    exact ⟨rest, List.suffix_append _ _, hrest⟩
  · rintro ⟨rest, ⟨piece, rfl⟩, hrest⟩
    exact ⟨piece, rest, rfl, trivial, hrest⟩

lemma reads_of_ne_star {token : Token} (h : token ≠ .star) {text : List Char} :
    token.Reads text ↔ ∃ c, text = [c] ∧ token.accepts c = true := by
  cases token with
  | star => exact absurd rfl h
  | one c => exact Iff.rfl
  | any => exact Iff.rfl
  | set negated ranges => exact Iff.rfl

lemma matches_char_cons {token : Token} (h : token ≠ .star) {p : Pattern} {text : List Char} :
    Matches (token :: p) text ↔ ∃ c rest, text = c :: rest ∧ token.accepts c = true ∧ Matches p rest := by
  rw [matches_cons]
  constructor
  · rintro ⟨piece, rest, rfl, hpiece, hrest⟩
    obtain ⟨c, rfl, hc⟩ := (reads_of_ne_star h).mp hpiece
    exact ⟨c, rest, rfl, hc, hrest⟩
  · rintro ⟨c, rest, rfl, hc, hrest⟩
    exact ⟨[c], rest, rfl, (reads_of_ne_star h).mpr ⟨c, rfl, hc⟩, hrest⟩

lemma accepts_char_cons {token : Token} (h : token ≠ .star) (p : Pattern) (text : List Char) :
    accepts (token :: p) text =
      match text with
      | [] => false
      | c :: text => token.accepts c && accepts p text := by
  cases token with
  | star => exact absurd rfl h
  | one c => rfl
  | any => rfl
  | set negated ranges => rfl

/-- The matcher decides the meaning. -/
lemma accepts_iff {p : Pattern} {text : List Char} : accepts p text = true ↔ Matches p text := by
  induction p generalizing text with
  | nil => rw [accepts, List.isEmpty_iff, matches_nil]
  | cons token p ih =>
    by_cases hstar : token = .star
    · subst hstar
      rw [accepts, List.any_eq_true, matches_star_cons]
      simp only [List.mem_tails, ih]
    · rw [accepts_char_cons hstar, matches_char_cons hstar]
      cases text with
      | nil => exact ⟨nofun, fun ⟨_, _, h, _⟩ => nomatch h⟩
      | cons c text =>
        rw [Bool.and_eq_true, ih]
        constructor
        · rintro ⟨hc, hrest⟩
          exact ⟨c, text, rfl, hc, hrest⟩
        · rintro ⟨d, rest, h, hc, hrest⟩
          obtain ⟨rfl, rfl⟩ := List.cons.inj h
          exact ⟨hc, hrest⟩

/-! ### Plain texts -/

/-- The tokens of a text that stands for itself. -/
def literal (text : List Char) : Pattern := text.map .one

lemma matches_literal_append {s : List Char} {p : Pattern} {text : List Char} :
    Matches (literal s ++ p) text ↔ ∃ rest, text = s ++ rest ∧ Matches p rest := by
  induction s generalizing text with
  | nil => exact ⟨fun h => ⟨text, rfl, h⟩, fun ⟨_, hrest, h⟩ => hrest ▸ h⟩
  | cons c s ih =>
    have hcons : literal (c :: s) ++ p = .one c :: (literal s ++ p) := rfl
    rw [hcons, matches_char_cons Token.noConfusion]
    constructor
    · rintro ⟨d, rest, rfl, hd, hrest⟩
      obtain ⟨more, rfl, hmore⟩ := ih.mp hrest
      obtain rfl : c = d := of_decide_eq_true hd
      exact ⟨more, rfl, hmore⟩
    · rintro ⟨rest, rfl, hrest⟩
      exact ⟨c, s ++ rest, rfl, decide_eq_true rfl, ih.mpr ⟨rest, rfl, hrest⟩⟩

lemma matches_literal {s text : List Char} : Matches (literal s) text ↔ text = s := by
  rw [← List.append_nil (literal s), matches_literal_append]
  constructor
  · rintro ⟨rest, rfl, hrest⟩
    rw [matches_nil.mp hrest, List.append_nil]
  · rintro rfl
    exact ⟨[], (List.append_nil _).symm, matches_nil.mpr rfl⟩

lemma matches_start {start text : List Char} : Matches (literal start ++ [.star]) text ↔ start <+: text := by
  rw [matches_literal_append]
  constructor
  · rintro ⟨rest, rfl, -⟩
    exact List.prefix_append _ _
  · rintro ⟨rest, rfl⟩
    exact ⟨rest, rfl, matches_star_cons.mpr ⟨[], List.nil_suffix, matches_nil.mpr rfl⟩⟩

lemma matches_ending {ending text : List Char} : Matches (.star :: literal ending) text ↔ ending <:+ text := by
  rw [matches_star_cons]
  constructor
  · rintro ⟨rest, hrest, hmatch⟩
    rwa [← matches_literal.mp hmatch]
  · intro h
    exact ⟨ending, h, matches_literal.mpr rfl⟩

end SciForge.Glob
