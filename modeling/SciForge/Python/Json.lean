import SciForge.Python.Str
import SciForge.Python.Dict

/-!
# Python's json reader

`json.loads` on a text of Unicode scalar values: the scanner's tokens, its grammar, and the parser. Numbers and the
constants `NaN`, `Infinity` and `-Infinity` become what `readNumber` makes of their text; where it makes nothing of
it, the reader raises.
-/

namespace SciForge

/-- A value of `json.loads`. -/
inductive Json (N : Type)
  | null
  | bool (b : Bool)
  | number (n : N)
  | string (s : PyStr)
  | array (items : List (Json N))
  | object (items : List (PyStr × Json N))

namespace Json

variable {N : Type}

/-! ### Tokens -/

def isWs (c : Char) : Bool := c = ' ' || c = '\t' || c = '\n' || c = '\r'

def skipWs (t : List Char) : List Char := t.dropWhile isWs

/-- The digits at the start of a text, and the rest. -/
def digits (t : List Char) : List Char × List Char := (t.takeWhile Char.isDigit, t.dropWhile Char.isDigit)

/-- `0`, or digits that do not start with it. -/
def matchInt : List Char → Option (List Char × List Char)
  | '0' :: r => some (['0'], r)
  | t =>
    match digits t with
    | ([], _) => none
    | (d :: ds, r) => some (d :: ds, r)

/-- `.` and digits, when both are there. -/
def matchFraction : List Char → List Char × List Char
  | '.' :: r =>
    match digits r with
    | ([], _) => ([], '.' :: r)
    | (d :: ds, r') => ('.' :: d :: ds, r')
  | t => ([], t)

/-- A sign, when there is one. -/
def matchSign : List Char → List Char × List Char
  | '+' :: r => (['+'], r)
  | '-' :: r => (['-'], r)
  | t => ([], t)

/-- `e` or `E`, a sign or none, and digits, when they are there. -/
def matchExponent : List Char → List Char × List Char
  | [] => ([], [])
  | c :: r =>
    if c = 'e' ∨ c = 'E' then
      match digits (matchSign r).2 with
      | ([], _) => ([], c :: r)
      | (d :: ds, r') => (c :: (matchSign r).1 ++ d :: ds, r')
    else ([], c :: r)

/-- A minus, when there is one. -/
def matchMinus : List Char → List Char × List Char
  | '-' :: r => (['-'], r)
  | t => ([], t)

/-- The longest number at the start of a text. -/
def matchNumber (t : List Char) : Option (List Char × List Char) :=
  (matchInt (matchMinus t).2).map (fun int =>
    let fraction := matchFraction int.2
    let exponent := matchExponent fraction.2
    ((matchMinus t).1 ++ int.1 ++ fraction.1 ++ exponent.1, exponent.2))

def hexValue (c : Char) : Option ℕ :=
  if '0' ≤ c ∧ c ≤ '9' then some (c.toNat - 48)
  else if 'a' ≤ c ∧ c ≤ 'f' then some (c.toNat - 87)
  else if 'A' ≤ c ∧ c ≤ 'F' then some (c.toNat - 55)
  else none

def hex4 (a b c d : Char) : Option ℕ := do
  let a ← hexValue a
  let b ← hexValue b
  let c ← hexValue c
  let d ← hexValue d
  pure (((a * 16 + b) * 16 + c) * 16 + d)

/-- The code point with number `n < 0x110000`. -/
def codePoint (n : ℕ) : PyChar := Fin.ofNat 0x110000 n

def isHighSurrogate (n : ℕ) : Bool := 0xD800 ≤ n && n ≤ 0xDBFF

def isLowSurrogate (n : ℕ) : Bool := 0xDC00 ≤ n && n ≤ 0xDFFF

def joinSurrogates (high low : ℕ) : ℕ := 0x10000 + (high - 0xD800) * 0x400 + (low - 0xDC00)

/-- The character that a one-letter escape stands for. -/
def unescape (c : Char) : Option Char :=
  if c = '"' ∨ c = '\\' ∨ c = '/' then some c
  else if c = 'b' then some '\x08'
  else if c = 'f' then some '\x0c'
  else if c = 'n' then some '\n'
  else if c = 'r' then some '\r'
  else if c = 't' then some '\t'
  else none

/-- The code point of an escape, and the rest. A high surrogate takes the low one that is escaped next to it. -/
def joinEscapes (high : ℕ) : List Char → Option (PyChar × List Char)
  | '\\' :: 'u' :: a :: b :: c :: d :: r =>
    if isHighSurrogate high then
      match hex4 a b c d with
      | none => none
      | some low =>
        if isLowSurrogate low then some (codePoint (joinSurrogates high low), r)
        else some (codePoint high, '\\' :: 'u' :: a :: b :: c :: d :: r)
    else some (codePoint high, '\\' :: 'u' :: a :: b :: c :: d :: r)
  | r => some (codePoint high, r)

/-- The escape behind a backslash: the code point, and the rest. -/
def matchEscape : List Char → Option (PyChar × List Char)
  | 'u' :: a :: b :: c :: d :: r =>
    match hex4 a b c d with
    | none => none
    | some high => joinEscapes high r
  | c :: r => (unescape c).map (fun c => (ord c, r))
  | [] => none

lemma length_joinEscapes {high : ℕ} {t r : List Char} {c : PyChar} (h : joinEscapes high t = some (c, r)) :
    r.length ≤ t.length := by
  unfold joinEscapes at h
  split at h
  · split at h
    · split at h
      · cases h
      · split at h <;> obtain ⟨-, rfl⟩ := Prod.mk.inj (Option.some.inj h) <;> simp only [List.length_cons] <;> omega
    · exact (Prod.mk.inj (Option.some.inj h)).2.symm ▸ le_rfl
  · exact (Prod.mk.inj (Option.some.inj h)).2.symm ▸ le_rfl

lemma length_matchEscape {t r : List Char} {c : PyChar} (h : matchEscape t = some (c, r)) : r.length < t.length := by
  unfold matchEscape at h
  split at h
  · split at h
    · cases h
    · have hr := length_joinEscapes h
      simp only [List.length_cons]
      omega
  · obtain ⟨c', -, hr⟩ := Option.map_eq_some_iff.mp h
    cases hr
    simp
  · cases h

/-- The characters of a string up to its closing quote, and the rest. A control character must be escaped. -/
def scanString : List Char → Option (PyStr × List Char)
  | [] => none
  | c :: r =>
    if c = '"' then some ([], r)
    else if c = '\\' then
      match h : matchEscape r with
      | none => none
      | some (c, r') =>
        have : r'.length < r.length := length_matchEscape h
        (scanString r').map (fun s => (c :: s.1, s.2))
    else if c.toNat < 0x20 then none
    else (scanString r).map (fun s => (ord c :: s.1, s.2))
termination_by t => t.length

/-- The words of the reader. -/
def matchWord (readNumber : List Char → Option N) : List Char → Option (Json N × List Char)
  | 'n' :: 'u' :: 'l' :: 'l' :: r => some (.null, r)
  | 't' :: 'r' :: 'u' :: 'e' :: r => some (.bool true, r)
  | 'f' :: 'a' :: 'l' :: 's' :: 'e' :: r => some (.bool false, r)
  | 'N' :: 'a' :: 'N' :: r => (readNumber ['N', 'a', 'N']).map (fun n => (.number n, r))
  | 'I' :: 'n' :: 'f' :: 'i' :: 'n' :: 'i' :: 't' :: 'y' :: r =>
    (readNumber ['I', 'n', 'f', 'i', 'n', 'i', 't', 'y']).map (fun n => (.number n, r))
  | '-' :: 'I' :: 'n' :: 'f' :: 'i' :: 'n' :: 'i' :: 't' :: 'y' :: r =>
    (readNumber ['-', 'I', 'n', 'f', 'i', 'n', 'i', 't', 'y']).map (fun n => (.number n, r))
  | _ => none

/-- A string, a word or a number. -/
def matchAtom (readNumber : List Char → Option N) : List Char → Option (Json N × List Char)
  | '"' :: r => (scanString r).map (fun s => (.string s.1, s.2))
  | t =>
    (matchWord readNumber t).or ((matchNumber t).bind (fun n => (readNumber n.1).map (fun v => (.number v, n.2))))

/-! ### Grammar -/

/-- What a part of a text denotes: a value, or the members of an object or the elements of an array with the
bracket that ends them. -/
inductive Item (N : Type)
  | value (v : Json N)
  | members (items : List (PyStr × Json N))
  | elements (items : List (Json N))

/-- The text denotes the item and leaves the rest. -/
inductive Parses (readNumber : List Char → Option N) : List Char → Item N → List Char → Prop
  | atom {t v r} (h : matchAtom readNumber t = some (v, r)) : Parses readNumber t (.value v) r
  | emptyArray {t r} (h : skipWs t = ']' :: r) : Parses readNumber ('[' :: t) (.value (.array [])) r
  | array {t items r} (h : Parses readNumber (skipWs t) (.elements items) r) :
    Parses readNumber ('[' :: t) (.value (.array items)) r
  | emptyObject {t r} (h : skipWs t = '}' :: r) : Parses readNumber ('{' :: t) (.value (.object [])) r
  | object {t items r} (h : Parses readNumber (skipWs t) (.members items) r) :
    Parses readNumber ('{' :: t) (.value (.object (Dict.update [] items))) r
  | lastElement {t v r r'} (h : Parses readNumber t (.value v) r) (hr : skipWs r = ']' :: r') :
    Parses readNumber t (.elements [v]) r'
  | nextElement {t v r r' items r''} (h : Parses readNumber t (.value v) r) (hr : skipWs r = ',' :: r')
    (h' : Parses readNumber (skipWs r') (.elements items) r'') : Parses readNumber t (.elements (v :: items)) r''
  | lastMember {t key r r' v r'' r'''} (hkey : scanString t = some (key, r)) (hr : skipWs r = ':' :: r')
    (h : Parses readNumber (skipWs r') (.value v) r'') (hr'' : skipWs r'' = '}' :: r''') :
    Parses readNumber ('"' :: t) (.members [(key, v)]) r'''
  | nextMember {t key r r' v r'' r''' items r''''} (hkey : scanString t = some (key, r)) (hr : skipWs r = ':' :: r')
    (h : Parses readNumber (skipWs r') (.value v) r'') (hr'' : skipWs r'' = ',' :: r''')
    (h' : Parses readNumber (skipWs r''') (.members items) r'''') :
    Parses readNumber ('"' :: t) (.members ((key, v) :: items)) r''''

/-! ### Parser -/

inductive Goal
  | value
  | members
  | elements

/-- The reader with room for `fuel` nested calls. -/
def parse (readNumber : List Char → Option N) : ℕ → Goal → List Char → Option (Item N × List Char)
  | 0, _, _ => none
  | fuel + 1, .value, '[' :: t =>
    match skipWs t with
    | ']' :: r => some (.value (.array []), r)
    | t =>
      match parse readNumber fuel .elements t with
      | some (.elements items, r) => some (.value (.array items), r)
      | _ => none
  | fuel + 1, .value, '{' :: t =>
    match skipWs t with
    | '}' :: r => some (.value (.object []), r)
    | t =>
      match parse readNumber fuel .members t with
      | some (.members items, r) => some (.value (.object (Dict.update [] items)), r)
      | _ => none
  | _ + 1, .value, t => (matchAtom readNumber t).map (fun atom => (.value atom.1, atom.2))
  | fuel + 1, .elements, t =>
    match parse readNumber fuel .value t with
    | some (.value v, r) =>
      match skipWs r with
      | ']' :: r' => some (.elements [v], r')
      | ',' :: r' =>
        match parse readNumber fuel .elements (skipWs r') with
        | some (.elements items, r'') => some (.elements (v :: items), r'')
        | _ => none
      | _ => none
    | _ => none
  | fuel + 1, .members, '"' :: t =>
    match scanString t with
    | none => none
    | some (key, r) =>
      match skipWs r with
      | ':' :: r' =>
        match parse readNumber fuel .value (skipWs r') with
        | some (.value v, r'') =>
          match skipWs r'' with
          | '}' :: r''' => some (.members [(key, v)], r''')
          | ',' :: r''' =>
            match parse readNumber fuel .members (skipWs r''') with
            | some (.members items, r'''') => some (.members ((key, v) :: items), r'''')
            | _ => none
          | _ => none
        | _ => none
      | _ => none
  | _ + 1, .members, _ => none

/-- `json.loads`: one value, with whitespace around it. -/
def loads (readNumber : List Char → Option N) (t : List Char) : Option (Json N) :=
  match parse readNumber (t.length + 1) .value (skipWs t) with
  | some (.value v, r) => if skipWs r = [] then some v else none
  | _ => none

end Json

end SciForge
