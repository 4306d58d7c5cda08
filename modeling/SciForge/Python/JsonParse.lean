import SciForge.Python.JsonTokens

/-!
# The json reader against its grammar

The parser reads exactly what the grammar says, with room for as many calls as the text has characters; and what is
read of a text is read of it also in front of a bracket or a comma.
-/

namespace SciForge.Json

variable {N : Type} {readNumber : List Char → Option N}

/-! ### The grammar in front of a delimiter -/

/-- What a text denotes it denotes also in front of a delimiter. -/
theorem Parses.append {t r : List Char} {item : Item N} (h : Parses readNumber t item r) {s : List Char}
    (hs : Delimited s) : Parses readNumber (t ++ s) item (r ++ s) := by
  have hskip : ∀ {t r}, skipWs t = r → skipWs (t ++ s) = r ++ s := by
    rintro t r rfl
    exact skipWs_append hs t
  have hnext : ∀ {t item r}, Parses readNumber (skipWs t ++ s) item r → Parses readNumber (skipWs (t ++ s)) item r := by
    intro t item r h
    rwa [skipWs_append hs]
  induction h with
  | atom h => exact .atom (matchAtom_append h hs.ended)
  | emptyArray h => exact .emptyArray (hskip h)
  | array h ih => exact .array (hnext ih)
  | emptyObject h => exact .emptyObject (hskip h)
  | object h ih => exact .object (hnext ih)
  | lastElement h hr ih => exact .lastElement ih (hskip hr)
  | nextElement h hr h' ih ih' => exact .nextElement ih (hskip hr) (hnext ih')
  | lastMember hkey hr h hr' ih =>
    exact .lastMember (scanString_append hkey s) (hskip hr) (hnext ih) (hskip hr')
  | nextMember hkey hr h hr' h' ih ih' =>
    exact .nextMember (scanString_append hkey s) (hskip hr) (hnext ih) (hskip hr') (hnext ih')

/-! ### The parser against the grammar -/

lemma Parses.length_lt {t r : List Char} {item : Item N} (h : Parses readNumber t item r) : r.length < t.length := by
  induction h with
  | atom h => exact length_matchAtom h
  | emptyArray h =>
    have h1 := length_of_skipWs h
    simp only [List.length_cons] at *
    omega
  | @array t _ _ h ih =>
    have h1 := length_skipWs t
    simp only [List.length_cons]
    omega
  | emptyObject h =>
    have h1 := length_of_skipWs h
    simp only [List.length_cons] at *
    omega
  | @object t _ _ h ih =>
    have h1 := length_skipWs t
    simp only [List.length_cons]
    omega
  | lastElement h hr ih =>
    have h1 := length_of_skipWs hr
    simp only [List.length_cons] at *
    omega
  | @nextElement _ _ _ r1 _ _ h hr h' ih ih' =>
    have h1 := length_of_skipWs hr
    have h2 := length_skipWs r1
    simp only [List.length_cons] at *
    omega
  | @lastMember _ _ _ r1 _ _ _ hkey hr h hr' ih =>
    have h1 := length_of_skipWs hr
    have h2 := length_skipWs r1
    have h3 := length_of_skipWs hr'
    have h4 := length_scanString hkey
    simp only [List.length_cons] at *
    omega
  | @nextMember _ _ _ r1 _ _ r2 _ _ hkey hr h hr' h' ih ih' =>
    have h1 := length_of_skipWs hr
    have h2 := length_skipWs r1
    have h3 := length_of_skipWs hr'
    have h4 := length_scanString hkey
    have h5 := length_skipWs r2
    simp only [List.length_cons] at *
    omega

/-- The call that reads an item. -/
def Item.goal : Item N → Goal
  | .value _ => .value
  | .members _ => .members
  | .elements _ => .elements

lemma matchAtom_bracket (t : List Char) :
    matchAtom readNumber ('[' :: t) = none ∧ matchAtom readNumber ('{' :: t) = none ∧
      matchAtom readNumber (']' :: t) = none ∧ matchAtom readNumber ('}' :: t) = none := ⟨rfl, rfl, rfl, rfl⟩

lemma Parses.not_closing {t r : List Char} {item : Item N} (h : Parses readNumber t item r) :
    (∀ s, t ≠ ']' :: s) ∧ ∀ s, t ≠ '}' :: s := by
  induction h with
  | atom h =>
    constructor
    · rintro s rfl
      rw [(matchAtom_bracket s).2.2.1] at h
      cases h
    · rintro s rfl
      rw [(matchAtom_bracket s).2.2.2] at h
      cases h
  | lastElement h hr ih => exact ih
  | nextElement h hr h' ih ih' => exact ih
  | _ => exact ⟨fun s h => absurd (List.cons.inj h).1 (by decide), fun s h => absurd (List.cons.inj h).1 (by decide)⟩

lemma parse_atom {t : List Char} (hopen : (∀ s, t ≠ '[' :: s) ∧ ∀ s, t ≠ '{' :: s) (fuel : ℕ) :
    parse readNumber (fuel + 1) .value t = (matchAtom readNumber t).map (fun atom => (.value atom.1, atom.2)) := by
  rw [parse]
  · exact fun s h => hopen.1 s h
  · exact fun s h => hopen.2 s h

/-- The parser finds what a text denotes, with room for as many calls as it has characters. -/
theorem parse_complete {t r : List Char} {item : Item N} (h : Parses readNumber t item r) {fuel : ℕ}
    (hfuel : t.length ≤ fuel + r.length) : parse readNumber fuel item.goal t = some (item, r) := by
  have hpos := h.length_lt
  obtain ⟨fuel, rfl⟩ : ∃ room, fuel = room + 1 := ⟨fuel - 1, by omega⟩
  clear hpos
  induction h generalizing fuel with
  | @atom t v r h =>
    have hopen : (∀ s, t ≠ '[' :: s) ∧ ∀ s, t ≠ '{' :: s := by
      constructor
      · rintro s rfl
        rw [(matchAtom_bracket s).1] at h
        cases h
      · rintro s rfl
        rw [(matchAtom_bracket s).2.1] at h
        cases h
    rw [Item.goal, parse_atom hopen, h]
    rfl
  | emptyArray h => simp only [Item.goal, parse, h]
  | @array t items r h ih =>
    have hlt := h.length_lt
    have h1 := length_skipWs t
    simp only [List.length_cons] at hfuel
    obtain ⟨fuel, rfl⟩ : ∃ room, fuel = room + 1 := ⟨fuel - 1, by omega⟩
    have hitems := ih fuel (by omega)
    simp only [Item.goal] at hitems
    rw [Item.goal, parse]
    split
    · next h' => exact absurd h' (h.not_closing.1 _)
    · rw [hitems]
  | emptyObject h => simp only [Item.goal, parse, h]
  | @object t items r h ih =>
    have hlt := h.length_lt
    have h1 := length_skipWs t
    simp only [List.length_cons] at hfuel
    obtain ⟨fuel, rfl⟩ : ∃ room, fuel = room + 1 := ⟨fuel - 1, by omega⟩
    have hitems := ih fuel (by omega)
    simp only [Item.goal] at hitems
    rw [Item.goal, parse]
    split
    · next h' => exact absurd h' (h.not_closing.2 _)
    · rw [hitems]
  | lastElement h hr ih =>
    have hlt := h.length_lt
    have h1 := length_of_skipWs hr
    simp only [List.length_cons] at h1
    obtain ⟨fuel, rfl⟩ : ∃ room, fuel = room + 1 := ⟨fuel - 1, by omega⟩
    have hvalue := ih fuel (by omega)
    simp only [Item.goal] at hvalue
    simp only [Item.goal, parse.eq_def _ (fuel + 1 + 1), hvalue, hr]
  | @nextElement t v r r1 items r2 h hr h' ih ih' =>
    have hlt := h.length_lt
    have hlt' := h'.length_lt
    have h1 := length_of_skipWs hr
    have h2 := length_skipWs r1
    simp only [List.length_cons] at h1
    obtain ⟨fuel, rfl⟩ : ∃ room, fuel = room + 1 := ⟨fuel - 1, by omega⟩
    have hvalue := ih fuel (by omega)
    have hitems := ih' fuel (by omega)
    simp only [Item.goal] at hvalue hitems
    simp only [Item.goal, parse.eq_def _ (fuel + 1 + 1), hvalue, hr, hitems]
  | @lastMember t key r r1 v r2 r3 hkey hr h hr' ih =>
    have hlt := h.length_lt
    have h1 := length_of_skipWs hr
    have h2 := length_skipWs r1
    have h3 := length_of_skipWs hr'
    have h4 := length_scanString hkey
    simp only [List.length_cons] at h1 h3 hfuel
    obtain ⟨fuel, rfl⟩ : ∃ room, fuel = room + 1 := ⟨fuel - 1, by omega⟩
    have hvalue := ih fuel (by omega)
    simp only [Item.goal] at hvalue
    simp only [Item.goal, parse.eq_def _ (fuel + 1 + 1), hkey, hr, hvalue, hr']
  | @nextMember t key r r1 v r2 r3 items r4 hkey hr h hr' h' ih ih' =>
    have hlt := h.length_lt
    have hlt' := h'.length_lt
    have h1 := length_of_skipWs hr
    have h2 := length_skipWs r1
    have h3 := length_of_skipWs hr'
    have h4 := length_scanString hkey
    have h5 := length_skipWs r3
    simp only [List.length_cons] at h1 h3 hfuel
    obtain ⟨fuel, rfl⟩ : ∃ room, fuel = room + 1 := ⟨fuel - 1, by omega⟩
    have hvalue := ih fuel (by omega)
    have hitems := ih' fuel (by omega)
    simp only [Item.goal] at hvalue hitems
    simp only [Item.goal, parse.eq_def _ (fuel + 1 + 1), hkey, hr, hvalue, hr', hitems]

/-- What the parser finds in a text the text denotes. -/
theorem parse_sound {fuel : ℕ} {goal : Goal} {t r : List Char} {item : Item N}
    (h : parse readNumber fuel goal t = some (item, r)) : Parses readNumber t item r := by
  fun_induction parse readNumber fuel goal t generalizing item r
  case case2 hclose =>
    cases h
    exact .emptyArray hclose
  case case3 hitems ih =>
    cases h
    exact .array (ih hitems)
  case case5 hclose =>
    cases h
    exact .emptyObject hclose
  case case6 hitems ih =>
    cases h
    exact .object (ih hitems)
  case case8 =>
    obtain ⟨atom, hatom, hitem⟩ := Option.map_eq_some_iff.mp h
    cases hitem
    exact .atom hatom
  case case9 hvalue _ hclose ih =>
    cases h
    exact .lastElement (ih hvalue) hclose
  case case10 hvalue _ hcomma _ _ hitems ih ih' =>
    cases h
    exact .nextElement (ih hvalue) hcomma (ih' hitems)
  case case15 hkey _ hcolon _ _ hvalue _ hclose ih =>
    cases h
    exact .lastMember hkey hcolon (ih hvalue) hclose
  case case16 hkey _ hcolon _ _ hvalue _ hcomma _ _ hitems ih ih' =>
    cases h
    exact .nextMember hkey hcolon (ih hvalue) hcomma (ih' hitems)
  -- the other branches fail
  all_goals cases h

/-- `loads` reads a value where the text denotes it, with nothing but whitespace around it. -/
theorem loads_iff {t : List Char} {v : Json N} :
    loads readNumber t = some v ↔ ∃ r, Parses readNumber (skipWs t) (.value v) r ∧ skipWs r = [] := by
  constructor
  · intro h
    unfold loads at h
    split at h
    · next r hparse =>
      split at h
      · next hrest =>
        cases h
        exact ⟨r, parse_sound hparse, hrest⟩
      · cases h
    · cases h
  · rintro ⟨r, hparses, hrest⟩
    have hlength := length_skipWs t
    have hparse : parse readNumber (t.length + 1) .value (skipWs t) = some (.value v, r) :=
      parse_complete hparses (by omega)
    rw [loads, hparse]
    exact if_pos hrest

end SciForge.Json
