import SciForge.Python.JsonParse
import Mathlib.Data.List.Chain
import Mathlib.Data.Nat.Digits.Defs

/-!
# Python's json writer

`json.dump` with an indentation of two and its other defaults, and what the reader makes of the text it writes. Numbers
are written by `writeNumber`.
-/

namespace SciForge.Json

variable {N : Type}

/-! ### Strings -/

def fourDigits (n : ℕ) : List Char :=
  [Nat.digitChar (n / 0x1000), Nat.digitChar (n / 0x100 % 16), Nat.digitChar (n / 0x10 % 16), Nat.digitChar (n % 16)]

/-- `\uXXXX`. -/
def dumpUnit (n : ℕ) : List Char := '\\' :: 'u' :: fourDigits n

/-- The characters with an escape of one letter. -/
def escapes : Dict PyChar Char :=
  [(ord '\\', '\\'), (ord '"', '"'), (ord '\x08', 'b'), (ord '\x0c', 'f'), (ord '\n', 'n'), (ord '\r', 'r'),
    (ord '\t', 't')]

/-- The text of one character: ASCII as it is, a code point above `0xFFFF` as two surrogates. -/
def dumpChar (c : PyChar) : List Char :=
  match escapes.get c with
  | some e => ['\\', e]
  | none =>
    if 0x20 ≤ c.val ∧ c.val ≤ 0x7E then [Char.ofNat c.val]
    else if c.val < 0x10000 then dumpUnit c.val
    else dumpUnit (0xD800 + (c.val - 0x10000) / 0x400) ++ dumpUnit (0xDC00 + (c.val - 0x10000) % 0x400)

def dumpString (s : PyStr) : List Char := '"' :: (s.flatMap dumpChar ++ ['"'])

/-! ### Values -/

/-- A line break, and the indentation of a level. -/
def newline (level : ℕ) : List Char := '\n' :: List.replicate (2 * level) ' '

mutual

def dumpValue (writeNumber : N → List Char) (level : ℕ) : Json N → List Char
  | .null => ['n', 'u', 'l', 'l']
  | .bool true => ['t', 'r', 'u', 'e']
  | .bool false => ['f', 'a', 'l', 's', 'e']
  | .number n => writeNumber n
  | .string s => dumpString s
  | .array [] => ['[', ']']
  | .array (item :: items) => '[' :: (dumpElements writeNumber (level + 1) (item :: items) ++ newline level ++ [']'])
  | .object [] => ['{', '}']
  | .object (item :: items) => '{' :: (dumpMembers writeNumber (level + 1) (item :: items) ++ newline level ++ ['}'])

/-- The elements of an array, each on its own line. -/
def dumpElements (writeNumber : N → List Char) (level : ℕ) : List (Json N) → List Char
  | [] => []
  | v :: rest =>
    newline level ++ dumpValue writeNumber level v ++
      (if rest.isEmpty then [] else ',' :: dumpElements writeNumber level rest)

def dumpMembers (writeNumber : N → List Char) (level : ℕ) : List (PyStr × Json N) → List Char
  | [] => []
  | (key, v) :: rest =>
    newline level ++ dumpString key ++ [':', ' '] ++ dumpValue writeNumber level v ++
      (if rest.isEmpty then [] else ',' :: dumpMembers writeNumber level rest)

end

/-- `json.dump(value, handle, indent=2)`. -/
def dump (writeNumber : N → List Char) (value : Json N) : List Char := dumpValue writeNumber 0 value

/-! ### Strings read back -/

/-- What is read of a string: a high surrogate directly before a low one is one character. -/
def joinedString : PyStr → PyStr
  | [] => []
  | [c] => [c]
  | high :: low :: s =>
    if isHighSurrogate high && isLowSurrogate low then codePoint (joinSurrogates high low) :: joinedString s
    else high :: joinedString (low :: s)

lemma hexValue_digitChar : ∀ n < 16, hexValue (Nat.digitChar n) = some n := by decide

lemma hex4_fourDigits {n : ℕ} (hn : n < 0x10000) {a b c d : Char} {r r' : List Char}
    (h : fourDigits n ++ r = a :: b :: c :: d :: r') : hex4 a b c d = some n := by
  simp only [fourDigits, List.cons_append, List.nil_append, List.cons.injEq] at h
  obtain ⟨rfl, rfl, rfl, rfl, -⟩ := h
  unfold hex4
  rw [hexValue_digitChar _ (by omega), hexValue_digitChar _ (by omega), hexValue_digitChar _ (by omega),
    hexValue_digitChar _ (by omega)]
  exact congrArg some (by omega)

lemma matchEscape_fourDigits {n : ℕ} (hn : n < 0x10000) (t : List Char) :
    matchEscape ('u' :: (fourDigits n ++ t)) = joinEscapes n t := by
  have hhex := hex4_fourDigits hn (r := t) rfl
  simp only [fourDigits, List.cons_append, List.nil_append, matchEscape, hhex]

lemma scanString_dumpUnit {n : ℕ} (hn : n < 0x10000) (t : List Char) : scanString (dumpUnit n ++ t) =
    (joinEscapes n t).bind (fun c => (scanString c.2).map (fun s => (c.1 :: s.1, s.2))) := by
  rw [dumpUnit, List.cons_append, List.cons_append, scanString_backslash, matchEscape_fourDigits hn]

lemma codePoint_val (c : PyChar) : codePoint c.val = c := Fin.ext (Nat.mod_eq_of_lt c.isLt)

lemma dumpChar_cases (c : PyChar) :
    (∃ e, dumpChar c = ['\\', e] ∧ e ≠ 'u' ∧ (unescape e).map ord = some c) ∨
    (∃ a, dumpChar c = [a] ∧ ord a = c ∧ a ≠ '"' ∧ a ≠ '\\' ∧ ¬a.toNat < 0x20) ∨
    (dumpChar c = dumpUnit c.val ∧ c.val < 0x10000) ∨
    ∃ high low, dumpChar c = dumpUnit high ++ dumpUnit low ∧ high < 0x10000 ∧ low < 0x10000 ∧
      isHighSurrogate high = true ∧ isLowSurrogate high = false ∧ isLowSurrogate low = true ∧
      codePoint (joinSurrogates high low) = c := by
  have hescapes : ∀ item ∈ escapes, item.2 ≠ 'u' ∧ (unescape item.2).map ord = some item.1 := by decide
  have hascii : ∀ n ≤ 0x7E, 0x20 ≤ n → (Char.ofNat n).toNat = n := by decide
  have hspecial : ∀ a : Char, a = '"' ∨ a = '\\' → escapes.get (ord a) ≠ none := by
    rintro a (rfl | rfl) <;> decide
  unfold dumpChar
  cases hescape : escapes.get c with
  | some e => exact .inl ⟨e, rfl, hescapes _ (Dict.mem_of_get hescape)⟩
  | none =>
    by_cases hplain : 0x20 ≤ c.val ∧ c.val ≤ 0x7E
    · have hval := hascii c.val hplain.2 hplain.1
      have hord : ord (Char.ofNat c.val) = c := Fin.ext hval
      refine .inr (.inl ⟨_, if_pos hplain, hord, ?_, ?_, by omega⟩)
      · intro h
        exact hspecial _ (.inl h) (hord.symm ▸ hescape)
      · intro h
        exact hspecial _ (.inr h) (hord.symm ▸ hescape)
    by_cases hunit : c.val < 0x10000
    · refine .inr (.inr (.inl ⟨?_, hunit⟩))
      dsimp only
      rw [if_neg hplain, if_pos hunit]
    · have hlt := c.isLt
      refine .inr (.inr (.inr ⟨0xD800 + (c.val - 0x10000) / 0x400, 0xDC00 + (c.val - 0x10000) % 0x400, ?_, by omega,
        by omega, ?_, ?_, ?_, ?_⟩))
      · dsimp only
        rw [if_neg hplain, if_neg hunit]
      · simp only [isHighSurrogate, Bool.and_eq_true, decide_eq_true_eq]
        omega
      · simp only [isLowSurrogate, Bool.and_eq_false_iff, decide_eq_false_iff_not]
        omega
      · simp only [isLowSurrogate, Bool.and_eq_true, decide_eq_true_eq]
        omega
      · have hjoin : joinSurrogates (0xD800 + (c.val - 0x10000) / 0x400) (0xDC00 + (c.val - 0x10000) % 0x400) =
            c.val := by
          unfold joinSurrogates
          omega
        rw [hjoin, codePoint_val]

lemma dumpChar_surrogate {c : PyChar} (hc : isHighSurrogate c.val = true ∨ isLowSurrogate c.val = true) :
    dumpChar c = dumpUnit c.val := by
  have hescapes : ∀ item ∈ escapes, item.1.val < 0x80 := by decide
  have hrange : 0xD800 ≤ c.val ∧ c.val ≤ 0xDFFF := by
    simp only [isHighSurrogate, isLowSurrogate, Bool.and_eq_true, decide_eq_true_eq] at hc
    omega
  unfold dumpChar
  cases hescape : escapes.get c with
  | some e =>
    have hlt := hescapes _ (Dict.mem_of_get hescape)
    dsimp only at hlt
    omega
  | none =>
    dsimp only
    rw [if_neg (by omega), if_pos (by omega)]

/-- An escaped unit stands alone in front of anything but an escaped low surrogate. -/
lemma joinEscapes_alone {n : ℕ} {t : List Char}
    (h : isHighSurrogate n = true → ∀ a b c d r, t = '\\' :: 'u' :: a :: b :: c :: d :: r →
      ∃ low, hex4 a b c d = some low ∧ isLowSurrogate low = false) :
    joinEscapes n t = some (codePoint n, t) := by
  unfold joinEscapes
  split
  · next a b c d r =>
    cases hhigh : isHighSurrogate n with
    | false => rfl
    | true =>
      obtain ⟨low, hlow, hnot⟩ := h hhigh a b c d r rfl
      simp only [hlow, hnot, if_true, Bool.false_eq_true, if_false]
  · rfl

lemma joinEscapes_pair {high low : ℕ} (hhigh : isHighSurrogate high = true) (hlow : isLowSurrogate low = true)
    (hlt : low < 0x10000) (t : List Char) :
    joinEscapes high (dumpUnit low ++ t) = some (codePoint (joinSurrogates high low), t) := by
  have hhex := hex4_fourDigits hlt (r := t) rfl
  simp only [dumpUnit, fourDigits, List.cons_append, List.nil_append, joinEscapes, hhigh, hhex, hlow, if_true]

lemma dumped_head {s : PyStr} (hs : ∀ c ∈ s.head?, isLowSurrogate c.val = false) {t : List Char} {a b c d : Char}
    {r : List Char} (h : s.flatMap dumpChar ++ '"' :: t = '\\' :: 'u' :: a :: b :: c :: d :: r) :
    ∃ low, hex4 a b c d = some low ∧ isLowSurrogate low = false := by
  cases s with
  | nil => exact absurd (List.cons.inj h).1 (by decide)
  | cons x s =>
    rw [List.flatMap_cons, List.append_assoc] at h
    rcases dumpChar_cases x with ⟨e, he, hne, -⟩ | ⟨e, he, -, -, hne, -⟩ | ⟨he, hlt⟩ |
      ⟨high, low, he, hhigh, -, -, hlow, -⟩
    · rw [he] at h
      exact absurd (List.cons.inj (List.cons.inj h).2).1 hne
    · rw [he] at h
      exact absurd (List.cons.inj h).1 hne
    · rw [he, dumpUnit, List.cons_append, List.cons_append] at h
      exact ⟨_, hex4_fourDigits hlt (List.cons.inj (List.cons.inj h).2).2, hs x rfl⟩
    · rw [he, dumpUnit, List.cons_append, List.cons_append, List.cons_append, List.cons_append, List.append_assoc] at h
      exact ⟨_, hex4_fourDigits hhigh (List.cons.inj (List.cons.inj h).2).2, hlow⟩

lemma scanString_dumpChar {c : PyChar} {s : PyStr}
    (h : isHighSurrogate c.val = true → ∀ d ∈ s.head?, isLowSurrogate d.val = false) (t : List Char) :
    scanString ((c :: s).flatMap dumpChar ++ '"' :: t) =
      (scanString (s.flatMap dumpChar ++ '"' :: t)).map (fun r => (c :: r.1, r.2)) := by
  rw [List.flatMap_cons, List.append_assoc]
  rcases dumpChar_cases c with ⟨e, he, hne, hescape⟩ | ⟨a, ha, hord, hquote, hback, hcontrol⟩ | ⟨hc, hlt⟩ |
    ⟨high, low, hc, hhigh, hlow, hishigh, hnotlow, hislow, hjoin⟩
  · obtain ⟨x, hx, rfl⟩ := Option.map_eq_some_iff.mp hescape
    have hmatch : ∀ r, matchEscape (e :: r) = some (ord x, r) := by
      intro r
      unfold matchEscape
      split
      · next he => exact absurd (List.cons.inj he).1 hne
      · next he =>
        obtain ⟨rfl, rfl⟩ := List.cons.inj he
        rw [hx]
        rfl
      · next he => cases he
    rw [he, List.cons_append, List.cons_append, List.nil_append, scanString_backslash, hmatch, Option.bind_some]
  · rw [ha, List.cons_append, List.nil_append, scanString_other hquote hback, if_neg hcontrol, hord]
  · rw [hc, scanString_dumpUnit hlt, joinEscapes_alone (fun hishigh _ _ _ _ _ => dumped_head (h hishigh)),
      codePoint_val, Option.bind_some]
  · rw [hc, List.append_assoc, scanString_dumpUnit hhigh, joinEscapes_pair hishigh hislow hlow, hjoin, Option.bind_some]

/-- The reader gives a written string back, but for its surrogate pairs. -/
lemma scanString_dumped (s : PyStr) (t : List Char) :
    scanString (s.flatMap dumpChar ++ '"' :: t) = some (joinedString s, t) := by
  induction s using joinedString.induct with
  | case1 =>
    rw [List.flatMap_nil, List.nil_append, scanString, if_pos rfl]
    rfl
  | case2 c =>
    have hnext : isHighSurrogate c.val = true → ∀ d ∈ ([] : PyStr).head?, isLowSurrogate d.val = false :=
      fun _ d hd => absurd hd (Option.not_mem_none d)
    rw [scanString_dumpChar hnext, List.flatMap_nil, List.nil_append, scanString, if_pos rfl]
    rfl
  | case3 high low s hpair ih =>
    obtain ⟨hhigh, hlow⟩ := Bool.and_eq_true_iff.mp hpair
    have hhighlt : high.val < 0x10000 := by
      simp only [isHighSurrogate, Bool.and_eq_true, decide_eq_true_eq] at hhigh
      omega
    have hlowlt : low.val < 0x10000 := by
      simp only [isLowSurrogate, Bool.and_eq_true, decide_eq_true_eq] at hlow
      omega
    rw [joinedString, if_pos hpair, List.flatMap_cons, List.flatMap_cons, dumpChar_surrogate (.inl hhigh),
      dumpChar_surrogate (.inr hlow), List.append_assoc, List.append_assoc, scanString_dumpUnit hhighlt,
      joinEscapes_pair hhigh hlow hlowlt, Option.bind_some, ih]
    rfl
  | case4 high low s hpair ih =>
    have hnext : isHighSurrogate high.val = true → ∀ d ∈ (low :: s).head?, isLowSurrogate d.val = false := by
      rintro hhigh d hd
      obtain rfl := Option.some.inj hd
      rw [hhigh, Bool.true_and] at hpair
      exact Bool.not_eq_true _ ▸ hpair
    rw [joinedString, if_neg hpair, scanString_dumpChar hnext, ih]
    rfl

/-! ### Values read back -/

mutual

/-- What is read of a value. -/
def joined : Json N → Json N
  | .null => .null
  | .bool b => .bool b
  | .number n => .number n
  | .string s => .string (joinedString s)
  | .array items => .array (joinedElements items)
  | .object items => .object (Dict.update [] (joinedMembers items))

def joinedElements : List (Json N) → List (Json N)
  | [] => []
  | v :: rest => joined v :: joinedElements rest

def joinedMembers : List (PyStr × Json N) → List (PyStr × Json N)
  | [] => []
  | (key, v) :: rest => (joinedString key, joined v) :: joinedMembers rest

end

/-- How Python prints a number: one of the reader's words, or a number of its grammar, in ASCII; and it reads the number
back from it. -/
structure Prints (readNumber : List Char → Option N) (writeNumber : N → List Char) : Prop where
  reads : ∀ n, readNumber (writeNumber n) = some n
  form : ∀ n, writeNumber n = ['N', 'a', 'N'] ∨ writeNumber n = ['I', 'n', 'f', 'i', 'n', 'i', 't', 'y'] ∨
    writeNumber n = ['-', 'I', 'n', 'f', 'i', 'n', 'i', 't', 'y'] ∨ matchNumber (writeNumber n) = some (writeNumber n, [])
  ascii : ∀ n, ∀ c ∈ writeNumber n, c.toNat < 0x80

/-- The numbers 0 and 1. -/
def writeBit (bit : Bool) : List Char := if bit then ['1'] else ['0']

def readBit (t : List Char) : Option Bool := some (t = ['1'])

lemma bits_print : Prints readBit writeBit where
  reads bit := by cases bit <;> rfl
  form bit := by cases bit <;> exact .inr (.inr (.inr rfl))
  ascii bit := by cases bit <;> simp [writeBit]

variable {readNumber : List Char → Option N} {writeNumber : N → List Char}

lemma matchAtom_number (h : Prints readNumber writeNumber) (n : N) {s : List Char} (hs : Ended s) :
    matchAtom readNumber (writeNumber n ++ s) = some (.number n, s) := by
  have hreads := h.reads n
  have hform := h.form n
  rw [← or_assoc, ← or_assoc, or_assoc (c := writeNumber n = _)] at hform
  rcases hform with hword | hnumber
  · rw [matchAtom_word hword, hreads]
    rfl
  · have hatom : matchAtom readNumber (writeNumber n) = some (.number n, []) := by
      have hquote : ∀ r, writeNumber n ≠ '"' :: r := by
        intro r hr
        rw [hr] at hnumber
        obtain ⟨d, r', h', hd⟩ | ⟨d, r', h', -⟩ := matchNumber_head hnumber
        · obtain rfl := (List.cons.inj h').1
          cases hd
        · exact absurd (List.cons.inj h').1 (by decide)
      rw [matchAtom_other hquote, matchWord_number hnumber, hnumber, Option.none_or, Option.bind_some, hreads]
      rfl
    exact matchAtom_append hatom hs

lemma skipWs_newline (level : ℕ) (t : List Char) : skipWs (newline level ++ t) = skipWs t := by
  have hspaces : ∀ n, skipWs (List.replicate n ' ' ++ t) = skipWs t := by
    intro n
    induction n with
    | zero => rfl
    | succ n ih => exact ih
  exact hspaces _

lemma ended_newline (level : ℕ) (t : List Char) : Ended (newline level ++ t) := by
  intro c hc
  obtain rfl := Option.some.inj hc
  exact .inr (.inr (.inr rfl))

lemma skipWs_of_not {c : Char} (hc : isWs c = false) (t : List Char) : skipWs (c :: t) = c :: t :=
  List.dropWhile_cons_of_neg (by simp [hc])

lemma skipWs_dumpValue (h : Prints readNumber writeNumber) (level : ℕ) (v : Json N) (t : List Char) :
    skipWs (dumpValue writeNumber level v ++ t) = dumpValue writeNumber level v ++ t := by
  have hhead : ∀ {t' : List Char} {c : Char} {r : List Char}, isWs c = false → t' = c :: r →
      skipWs (t' ++ t) = t' ++ t := by
    rintro _ c r hc rfl
    exact skipWs_of_not hc _
  cases v with
  | null => exact hhead (c := 'n') rfl rfl
  | bool b =>
    cases b with
    | true => exact hhead (c := 't') rfl rfl
    | false => exact hhead (c := 'f') rfl rfl
  | number n =>
    have hdigit : ∀ {d : Char}, d.isDigit = true → isWs d = false := by
      intro d hd
      rw [Bool.eq_false_iff]
      intro hws
      simp only [isWs, Bool.or_eq_true, decide_eq_true_eq] at hws
      rcases hws with ((rfl | rfl) | rfl) | rfl <;> cases hd
    rcases h.form n with hword | hword | hword | hnumber
    · exact hhead (c := 'N') rfl hword
    · exact hhead (c := 'I') rfl hword
    · exact hhead (c := '-') rfl hword
    · obtain ⟨d, r, hr, hd⟩ | ⟨d, r, hr, -⟩ := matchNumber_head hnumber
      · exact hhead (hdigit hd) hr
      · exact hhead (c := '-') rfl hr
  | string s => exact hhead (c := '"') rfl rfl
  | array items =>
    cases items with
    | nil => exact hhead (c := '[') rfl rfl
    | cons => exact hhead (c := '[') rfl rfl
  | object items =>
    cases items with
    | nil => exact hhead (c := '{') rfl rfl
    | cons => exact hhead (c := '{') rfl rfl

lemma skipWs_dumpElements (h : Prints readNumber writeNumber) (level : ℕ) (v : Json N) (rest : List (Json N))
    (t : List Char) :
    skipWs (dumpElements writeNumber level (v :: rest) ++ t) =
      dumpValue writeNumber level v ++
        ((if rest.isEmpty then [] else ',' :: dumpElements writeNumber level rest) ++ t) := by
  rw [dumpElements, List.append_assoc, List.append_assoc, skipWs_newline, skipWs_dumpValue h]

lemma skipWs_dumpMembers (level : ℕ) (key : PyStr) (v : Json N) (rest : List (PyStr × Json N)) (t : List Char) :
    skipWs (dumpMembers writeNumber level ((key, v) :: rest) ++ t) =
      '"' :: (key.flatMap dumpChar ++ '"' :: ':' :: ' ' :: (dumpValue writeNumber level v ++
        ((if rest.isEmpty then [] else ',' :: dumpMembers writeNumber level rest) ++ t))) := by
  rw [dumpMembers, List.append_assoc, List.append_assoc, List.append_assoc, List.append_assoc, skipWs_newline, dumpString,
    List.cons_append, skipWs_of_not rfl, List.append_assoc]
  rfl

lemma skipWs_colon (h : Prints readNumber writeNumber) (level : ℕ) (v : Json N) (t : List Char) :
    skipWs (' ' :: (dumpValue writeNumber level v ++ t)) = dumpValue writeNumber level v ++ t :=
  skipWs_dumpValue h level v t

mutual

/-- The grammar reads a written value in front of what may follow it. -/
lemma parses_dumpValue (h : Prints readNumber writeNumber) (level : ℕ) {s : List Char} (hs : Ended s) :
    (v : Json N) → Parses readNumber (dumpValue writeNumber level v ++ s) (.value (joined v)) s
  | .null => .atom rfl
  | .bool true => .atom rfl
  | .bool false => .atom rfl
  | .number n => .atom (matchAtom_number h n hs)
  | .string str => by
    refine .atom ?_
    change matchAtom readNumber ('"' :: (str.flatMap dumpChar ++ ['"'] ++ s)) = _
    rw [matchAtom_quote, List.append_assoc]
    exact congrArg (Option.map _) (scanString_dumped str s)
  | .array [] => .emptyArray rfl
  | .array (v :: rest) => by
    have helements := parses_dumpElements h (level + 1) level s (v :: rest) (List.cons_ne_nil _ _)
    rw [dumpValue, List.cons_append, List.append_assoc, List.append_assoc]
    exact .array helements
  | .object [] => .emptyObject rfl
  | .object (item :: rest) => by
    have hmembers := parses_dumpMembers h (level + 1) level s (item :: rest) (List.cons_ne_nil _ _)
    rw [dumpValue, List.cons_append, List.append_assoc, List.append_assoc]
    exact .object hmembers

lemma parses_dumpElements (h : Prints readNumber writeNumber) (level outer : ℕ) (s : List Char) :
    (items : List (Json N)) → items ≠ [] →
      Parses readNumber (skipWs (dumpElements writeNumber level items ++ (newline outer ++ ([']'] ++ s))))
        (.elements (joinedElements items)) s
  | [], hne => absurd rfl hne
  | [v], _ => by
    have hvalue := parses_dumpValue h level (ended_newline outer (']' :: s)) v
    rw [skipWs_dumpElements h]
    refine .lastElement hvalue ?_
    rw [skipWs_newline, skipWs_of_not rfl]
  | v :: v' :: rest, _ => by
    have hrest := parses_dumpElements h level outer s (v' :: rest) (List.cons_ne_nil _ _)
    have hcomma : ∀ t, Ended (',' :: t) := fun t c hc => .inl (Option.some.inj hc).symm
    rw [skipWs_dumpElements h]
    exact .nextElement (parses_dumpValue h level (hcomma _) v) (skipWs_of_not rfl _) hrest

lemma parses_dumpMembers (h : Prints readNumber writeNumber) (level outer : ℕ) (s : List Char) :
    (items : List (PyStr × Json N)) → items ≠ [] →
      Parses readNumber (skipWs (dumpMembers writeNumber level items ++ (newline outer ++ (['}'] ++ s))))
        (.members (joinedMembers items)) s
  | [], hne => absurd rfl hne
  | [(key, v)], _ => by
    have hvalue : Parses readNumber (skipWs (' ' :: (dumpValue writeNumber level v ++ (newline outer ++ '}' :: s))))
        (.value (joined v)) (newline outer ++ '}' :: s) := by
      rw [skipWs_colon h]
      exact parses_dumpValue h level (ended_newline outer ('}' :: s)) v
    have hclose : skipWs (newline outer ++ '}' :: s) = '}' :: s := by rw [skipWs_newline, skipWs_of_not rfl]
    rw [skipWs_dumpMembers]
    exact .lastMember (scanString_dumped key _) (skipWs_of_not rfl _) hvalue hclose
  | (key, v) :: item :: rest, _ => by
    have hrest := parses_dumpMembers h level outer s (item :: rest) (List.cons_ne_nil _ _)
    have hcomma : ∀ t, Ended (',' :: t) := fun t c hc => .inl (Option.some.inj hc).symm
    have hvalue : ∀ t, Parses readNumber (skipWs (' ' :: (dumpValue writeNumber level v ++ ',' :: t)))
        (.value (joined v)) (',' :: t) := by
      intro t
      rw [skipWs_colon h]
      exact parses_dumpValue h level (hcomma t) v
    rw [skipWs_dumpMembers]
    exact .nextMember (scanString_dumped key _) (skipWs_of_not rfl _) (hvalue _) (skipWs_of_not rfl _) hrest

end

/-- The reader gives what was written, but for the surrogate pairs of its strings. -/
theorem loads_dump (h : Prints readNumber writeNumber) (v : Json N) :
    loads readNumber (dump writeNumber v) = some (joined v) := by
  have hend : Ended [] := fun c hc => nomatch hc
  have hparses := parses_dumpValue h 0 hend v
  refine loads_iff.mpr ⟨[], ?_, rfl⟩
  have hskip := skipWs_dumpValue h 0 v []
  rw [List.append_nil] at hskip hparses
  rw [dump, hskip]
  exact hparses

/-! ### What is read as it was written -/

/-- No high surrogate stands directly before a low one. -/
def UnpairedString (s : PyStr) : Prop :=
  s.IsChain (fun a b => ¬(isHighSurrogate a.val = true ∧ isLowSurrogate b.val = true))

mutual

/-- The strings and the keys of a value have no surrogate pair. -/
def Unpaired : Json N → Prop
  | .string s => UnpairedString s
  | .array items => UnpairedElements items
  | .object items => UnpairedMembers items
  | _ => True

def UnpairedElements : List (Json N) → Prop
  | [] => True
  | v :: rest => Unpaired v ∧ UnpairedElements rest

def UnpairedMembers : List (PyStr × Json N) → Prop
  | [] => True
  | (key, v) :: rest => (UnpairedString key ∧ Unpaired v) ∧ UnpairedMembers rest

end

mutual

/-- The objects of a value are dicts. -/
def Keyed : Json N → Prop
  | .array items => KeyedElements items
  | .object items => (Dict.keys items).Nodup ∧ KeyedMembers items
  | _ => True

def KeyedElements : List (Json N) → Prop
  | [] => True
  | v :: rest => Keyed v ∧ KeyedElements rest

def KeyedMembers : List (PyStr × Json N) → Prop
  | [] => True
  | (_, v) :: rest => Keyed v ∧ KeyedMembers rest

end

lemma length_joinedString (s : PyStr) : (joinedString s).length ≤ s.length := by
  induction s using joinedString.induct with
  | case1 | case2 => exact le_rfl
  | case3 high low s hpair ih =>
    rw [joinedString, if_pos hpair, List.length_cons, List.length_cons, List.length_cons]
    omega
  | case4 high low s hpair ih =>
    rw [joinedString, if_neg hpair, List.length_cons, List.length_cons]
    omega

lemma joinedString_eq_iff (s : PyStr) : joinedString s = s ↔ UnpairedString s := by
  unfold UnpairedString
  induction s using joinedString.induct with
  | case1 => exact iff_of_true rfl .nil
  | case2 c => exact iff_of_true rfl (.singleton c)
  | case3 high low s hpair ih =>
    rw [joinedString, if_pos hpair, List.isChain_cons_cons]
    constructor
    · intro h
      have hlength := congrArg List.length h
      have hle := length_joinedString s
      simp only [List.length_cons] at hlength
      omega
    · intro h
      exact absurd (Bool.and_eq_true_iff.mp hpair) h.1
  | case4 high low s hpair ih =>
    rw [joinedString, if_neg hpair, List.isChain_cons_cons, ← ih, List.cons_eq_cons, and_iff_right rfl]
    exact (and_iff_right (fun h => hpair (Bool.and_eq_true_iff.mpr h))).symm

lemma joinedString_eq_or (s : PyStr) : joinedString s = s ∨ ∃ c ∈ joinedString s, 0x10000 ≤ c.val := by
  induction s using joinedString.induct with
  | case1 | case2 => exact .inl rfl
  | case3 high low s hpair ih =>
    refine .inr ⟨codePoint (joinSurrogates high.val low.val), ?_, ?_⟩
    · rw [joinedString, if_pos hpair]
      exact List.mem_cons_self
    · simp only [isHighSurrogate, isLowSurrogate, Bool.and_eq_true, decide_eq_true_eq] at hpair
      have hlt : joinSurrogates high.val low.val < 0x110000 := by
        unfold joinSurrogates
        omega
      change 0x10000 ≤ joinSurrogates high.val low.val % 0x110000
      rw [Nat.mod_eq_of_lt hlt]
      unfold joinSurrogates
      omega
  | case4 high low s hpair ih =>
    rw [joinedString, if_neg hpair]
    rcases ih with ih | ⟨c, hc, hlarge⟩
    · exact .inl (congrArg (high :: ·) ih)
    · exact .inr ⟨c, List.mem_cons_of_mem _ hc, hlarge⟩

lemma joinedElements_eq_map (items : List (Json N)) : joinedElements items = items.map joined := by
  induction items with
  | nil => rfl
  | cons v rest ih => exact congrArg (joined v :: ·) ih

lemma joinedMembers_eq_map (items : List (PyStr × Json N)) :
    joinedMembers items = items.map (fun item => (joinedString item.1, joined item.2)) := by
  induction items with
  | nil => rfl
  | cons item rest ih => exact congrArg ((joinedString item.1, joined item.2) :: ·) ih

lemma length_joinedMembers (items : List (PyStr × Json N)) : (joinedMembers items).length = items.length := by
  rw [joinedMembers_eq_map, List.length_map]

mutual

/-- A value is read back as it was exactly when it has no surrogate pair. -/
lemma joined_eq_iff : (v : Json N) → Keyed v → (joined v = v ↔ Unpaired v)
  | .null, _ => iff_of_true rfl trivial
  | .bool _, _ => iff_of_true rfl trivial
  | .number _, _ => iff_of_true rfl trivial
  | .string s, _ => by
    rw [joined, Unpaired, ← joinedString_eq_iff]
    exact Json.string.injEq _ _ ▸ Iff.rfl
  | .array items, h => by
    rw [joined, Unpaired, ← joinedElements_eq_iff items h]
    exact Json.array.injEq _ _ ▸ Iff.rfl
  | .object items, h => by
    have hmembers := joinedMembers_eq_iff items h.2
    rw [joined, Unpaired, ← hmembers, Json.object.injEq]
    constructor
    · intro hupdate
      have hlength := congrArg List.length hupdate
      have hfull : (Dict.update ([] : Dict PyStr (Json N)) (joinedMembers items)).length =
          ([] : Dict PyStr (Json N)).length + (joinedMembers items).length := by
        rw [hlength, length_joinedMembers, List.length_nil, Nat.zero_add]
      obtain ⟨hnodup, hnew⟩ := Dict.keys_of_length_update hfull
      rwa [Dict.update_of_disjoint hnodup hnew, List.nil_append] at hupdate
    · intro hjoined
      have hnew : ∀ k ∈ Dict.keys items, k ∉ Dict.keys ([] : Dict PyStr (Json N)) := fun _ _ => List.not_mem_nil
      rw [hjoined, Dict.update_of_disjoint h.1 hnew, List.nil_append]

lemma joinedElements_eq_iff : (items : List (Json N)) → KeyedElements items →
    (joinedElements items = items ↔ UnpairedElements items)
  | [], _ => iff_of_true rfl trivial
  | v :: rest, h => by
    rw [joinedElements, UnpairedElements, List.cons_eq_cons, joined_eq_iff v h.1, joinedElements_eq_iff rest h.2]

lemma joinedMembers_eq_iff : (items : List (PyStr × Json N)) → KeyedMembers items →
    (joinedMembers items = items ↔ UnpairedMembers items)
  | [], _ => iff_of_true rfl trivial
  | (key, v) :: rest, h => by
    rw [joinedMembers, UnpairedMembers, List.cons_eq_cons, Prod.mk.injEq, joinedString_eq_iff, joined_eq_iff v h.1,
      joinedMembers_eq_iff rest h.2]

end

/-! ### ASCII -/

def Ascii (t : List Char) : Prop := ∀ c ∈ t, c.toNat < 0x80

@[simp] lemma ascii_nil : Ascii [] := List.forall_mem_nil _

@[simp] lemma ascii_cons {c : Char} {t : List Char} : Ascii (c :: t) ↔ c.toNat < 0x80 ∧ Ascii t := List.forall_mem_cons

@[simp] lemma ascii_append {s t : List Char} : Ascii (s ++ t) ↔ Ascii s ∧ Ascii t := List.forall_mem_append

lemma ascii_dumpUnit {n : ℕ} (hn : n < 0x10000) : Ascii (dumpUnit n) := by
  have hdigit : ∀ n < 16, (Nat.digitChar n).toNat < 0x80 := by decide
  have hdigits : Ascii (fourDigits n) := by
    simp only [fourDigits, ascii_cons, ascii_nil, and_true]
    exact ⟨hdigit _ (by omega), hdigit _ (by omega), hdigit _ (by omega), hdigit _ (by omega)⟩
  exact ascii_cons.mpr ⟨by decide, ascii_cons.mpr ⟨by decide, hdigits⟩⟩

lemma ascii_dumpChar (c : PyChar) : Ascii (dumpChar c) := by
  have hescapes : ∀ item ∈ escapes, item.2.toNat < 0x80 := by decide
  have hascii : ∀ n ≤ 0x7E, (Char.ofNat n).toNat < 0x80 := by decide
  unfold dumpChar
  cases hescape : escapes.get c with
  | some e =>
    have he := hescapes _ (Dict.mem_of_get hescape)
    exact ascii_cons.mpr ⟨by decide, ascii_cons.mpr ⟨he, ascii_nil⟩⟩
  | none =>
    dsimp only
    split
    · next hplain => exact ascii_cons.mpr ⟨hascii _ hplain.2, ascii_nil⟩
    · split
      · next hunit => exact ascii_dumpUnit hunit
      · have hlt := c.isLt
        exact ascii_append.mpr ⟨ascii_dumpUnit (by omega), ascii_dumpUnit (by omega)⟩

lemma ascii_dumpString (s : PyStr) : Ascii (dumpString s) := by
  have hbody : Ascii (s.flatMap dumpChar) := by
    intro a ha
    obtain ⟨c, -, hc⟩ := List.mem_flatMap.mp ha
    exact ascii_dumpChar c a hc
  have hquote : Ascii ['"'] := ascii_cons.mpr ⟨by decide, ascii_nil⟩
  exact ascii_cons.mpr ⟨by decide, ascii_append.mpr ⟨hbody, hquote⟩⟩

lemma ascii_newline (level : ℕ) : Ascii (newline level) := by
  refine ascii_cons.mpr ⟨by decide, ?_⟩
  intro c hc
  rw [List.eq_of_mem_replicate hc]
  decide

mutual

lemma ascii_dumpValue (h : Prints readNumber writeNumber) (level : ℕ) :
    (v : Json N) → Ascii (dumpValue writeNumber level v)
  | .null => by simp [dumpValue]
  | .bool true => by simp [dumpValue]
  | .bool false => by simp [dumpValue]
  | .number n => h.ascii n
  | .string s => ascii_dumpString s
  | .array [] => by simp [dumpValue]
  | .array (v :: rest) => by
    have helements := ascii_dumpElements h (level + 1) (v :: rest)
    simp [dumpValue, helements, ascii_newline]
  | .object [] => by simp [dumpValue]
  | .object (item :: rest) => by
    have hmembers := ascii_dumpMembers h (level + 1) (item :: rest)
    simp [dumpValue, hmembers, ascii_newline]

lemma ascii_dumpElements (h : Prints readNumber writeNumber) (level : ℕ) :
    (items : List (Json N)) → Ascii (dumpElements writeNumber level items)
  | [] => ascii_nil
  | v :: rest => by
    have hvalue := ascii_dumpValue h level v
    have hrest := ascii_dumpElements h level rest
    rw [dumpElements]
    split <;> simp [hvalue, hrest, ascii_newline]

lemma ascii_dumpMembers (h : Prints readNumber writeNumber) (level : ℕ) :
    (items : List (PyStr × Json N)) → Ascii (dumpMembers writeNumber level items)
  | [] => ascii_nil
  | (key, v) :: rest => by
    have hvalue := ascii_dumpValue h level v
    have hrest := ascii_dumpMembers h level rest
    rw [dumpMembers]
    split <;> simp [hvalue, hrest, ascii_newline, ascii_dumpString]

end

end SciForge.Json
