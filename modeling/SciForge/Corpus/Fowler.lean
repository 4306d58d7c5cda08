import SciForge.Python.Int
import SciForge.Lib.Raising
import SciForge.Corpus.Runner
import Mathlib.Data.List.DropRight

/-!
# The Fowler adapter

The `.dat` reader, line by line. Each line of the file gives nothing, one more filtered line, or the
cases of its mode letters; the last pattern is carried over for `SAME`.
-/

namespace SciForge.Corpus

/-! ### Escapes -/

def datEscapes : Dict PyChar PyChar :=
  [(ord 'a', ⟨7, by decide⟩), (ord 'b', ⟨8, by decide⟩), (ord 'f', ⟨12, by decide⟩),
    (ord 'n', ⟨10, by decide⟩), (ord 'r', ⟨13, by decide⟩), (ord 't', ⟨9, by decide⟩),
    (ord 'v', ⟨11, by decide⟩), (ord '\\', ord '\\'), (ord '"', ord '"')]

def escapeWidths : Dict PyChar ℕ := [(ord 'x', 2), (ord 'u', 4), (ord 'U', 8)]

/-- `digits, base, skip` for the escape that starts `field`. -/
def escapeDigits (field : PyStr) : PyStr × ℕ × ℕ :=
  match (field.drop 1).head?.bind escapeWidths.get with
  | some width => ((field.drop 2).take width, 16, 2 + width)
  | none => ((field.drop 1).take 3, 8, 4)

/-- The character a backslash escape stands for and the characters it spans, `none` when it is refused. -/
def datEscape (u : UnicodeTable) (field : PyStr) : Option (PyChar × ℕ) :=
  match (field.drop 1).head?.bind datEscapes.get with
  | some escaped => some (escaped, 2)
  | none =>
    let (digits, base, skip) := escapeDigits field
    match (pyInt u digits base).bind pyChr with
    | none => none
    | some out => if digits.length ≠ skip - (if base = 16 then 2 else 1) then none else some (out, skip)

/-- The expanded field, `none` when Go would refuse it. -/
def datUnquote (u : UnicodeTable) (field : PyStr) : Option PyStr :=
  match field with
  | [] => some []
  | char :: rest =>
    if char ≠ ord '\\' then (datUnquote u rest).map (fun out => char :: out)
    else
      match datEscape u (char :: rest) with
      | none => none
      | some (out, skip) => (datUnquote u (rest.drop (skip - 1))).map (fun expanded => out :: expanded)
termination_by field.length
decreasing_by
  · exact Nat.lt_succ_self _
  · rw [List.length_drop, List.length_cons]
    omega

/-! ### Outcomes -/

/-- `rest.find(end)` when it is positive: the token before it and the text after it. -/
def splitToken (stop : PyChar) (rest : PyStr) : Option (PyStr × PyStr) :=
  match rest.findIdx? (fun c => c = stop) with
  | none | some 0 => none
  | some (i + 1) => some (rest.take (i + 1), rest.drop (i + 2))

lemma splitToken_length {stop : PyChar} {rest token after : PyStr}
    (h : splitToken stop rest = some (token, after)) : after.length + 1 < rest.length := by
  unfold splitToken at h
  split at h
  · cases h
  · cases h
  · rename_i i hfind
    have hlt := (List.findIdx?_eq_some_iff_getElem.mp hfind).1
    obtain ⟨-, rfl⟩ := Prod.mk.inj (Option.some.inj h)
    rw [List.length_drop]
    omega

/-- The opening parenthesis before every other value. -/
def openValue (values : List ℤ) (rest : PyStr) : Option (PyStr × PyChar) :=
  if values.length % 2 = 0 then
    match rest with
    | c :: tail => if c = ord '(' then some (tail, ord ',') else none
    | [] => none
  else some (rest, ord ')')

lemma openValue_length {values : List ℤ} {rest body : PyStr} {stop : PyChar}
    (h : openValue values rest = some (body, stop)) : body.length ≤ rest.length := by
  unfold openValue at h
  split at h
  · cases rest with
    | nil => cases h
    | cons c tail =>
      simp only at h
      split at h
      · obtain ⟨rfl, -⟩ := Prod.mk.inj (Option.some.inj h)
        exact Nat.le_succ _
      · cases h
  · obtain ⟨rfl, -⟩ := Prod.mk.inj (Option.some.inj h)
    exact le_rfl

/-- `-1 if token == "?" else int(token)`. -/
def tokenValue (u : UnicodeTable) (token : PyStr) : Option ℤ :=
  if token = py "?" then some (-1) else pyInt u token 10

/-- The loop over the field: an opening parenthesis before every other value, a comma or a closing one
after it. -/
def parseValues (u : UnicodeTable) (values : List ℤ) (rest : PyStr) : Option (List ℤ) :=
  if rest = [] then some values
  else
    match _hopen : openValue values rest with
    | none => none
    | some (body, stop) =>
      match _hsplit : splitToken stop body with
      | none => none
      | some (token, after) =>
        match tokenValue u token with
        | some value => parseValues u (values ++ [value]) after
        | none => none
termination_by rest.length
decreasing_by
  have hbody := openValue_length _hopen
  have hafter := splitToken_length _hsplit
  omega

/-- `[values[k:k + 2] for k in range(0, len(values), 2)]`. -/
def pairsOf : List ℤ → List Span
  | a :: b :: rest => [a, b] :: pairsOf rest
  | [a] => [[a]]
  | [] => []

/-- The outcome of field 4, `none` when Go cannot read it. An empty field raises. -/
def parseDatResult (u : UnicodeTable) (field : PyStr) : Except String (Option Observable) :=
  if field = py "NOMATCH" then .ok (some .noMatch)
  else
    match field with
    | [] => .error "IndexError"
    | c :: rest =>
      if ord 'A' ≤ c ∧ c ≤ ord 'Z' then .ok (some (.str "error"))
      else
        match parseValues u [] (c :: rest) with
        | none => .ok none
        | some values =>
          if values.length % 2 = 1 then .ok none
          else
            match pairsOf values with
            | [] => .error "IndexError"
            | span :: groups => .ok (some (matchDict span groups))

/-! ### Lines -/

def datControl : PyStr := py "?&|;{}"

def datMeta : PyStr := py "\\.+*?()|[]\x7b\x7d^$"

/-- `text.split(sep)` without its empty parts. -/
def splitParts (sep : PyChar) (text : PyStr) : List PyStr :=
  (text.splitOn sep).filter (fun part => part ≠ [])

/-- The flags a line runs under, `none` when it is not a test. -/
def testFlags (flags : PyStr) : Option PyStr :=
  match flags with
  | [] => none
  | c :: rest =>
    if c ∈ datControl then if rest = [] then none else some rest
    else if c = ord ':' then
      match rest.dropWhile (· ≠ ord ':') with
      | [] => none
      | _colon :: flags => some flags
    else if c ∈ py "CNT0123456789" then none
    else some (c :: rest)

/-- What one line adds. -/
inductive DatLine
  | nothing
  | filtered
  | cases (cs : List (Case PyStr PyStr))

def quoteMeta (pattern : PyStr) : PyStr :=
  pattern.flatMap (fun char => if char ∈ datMeta then [ord '\\', char] else [char])

def nullFields (fields : List PyStr) : List PyStr :=
  fields.map (fun part => if part = py "NULL" then [] else part)

/-- One case for each `E` or `L` of the flags. -/
def datCases (flags pattern text : PyStr) (expected : Observable) : List (Case PyStr PyStr) :=
  (flags.filter (fun mode => mode = ord 'E' ∨ mode = ord 'L')).map (fun mode =>
    ⟨if mode = ord 'E' then pattern else quoteMeta pattern, text, expected,
      if ord 'i' ∈ flags then ["icase"] else [], "", none⟩)

lemma datCases_validate (flags pattern text : PyStr) (expected : Observable) :
    (datCases flags pattern text expected).mapM Case.validate = .ok (datCases flags pattern text expected) := by
  rw [mapM_eq_ok, List.forall₂_same]
  intro c hc
  obtain ⟨mode, -, rfl⟩ := List.mem_map.mp hc
  by_cases hi : ord 'i' ∈ flags
  · simp [Case.validate, hi, flagNames]
  · simp [Case.validate, hi]

/-- `if "$" in flags`: both fields expanded. -/
def datExpand (u : UnicodeTable) (flags pattern text : PyStr) : Option (PyStr × PyStr) :=
  if ord '$' ∈ flags then
    match datUnquote u pattern, datUnquote u text with
    | some pattern, some text => some (pattern, text)
    | _, _ => none
  else some (pattern, text)

/-- The body of the loop: what the line adds, and the last pattern after it. -/
def datLine (u : UnicodeTable) (lastPattern : PyStr) (raw : PyStr) : Except String (DatLine × PyStr) :=
  let line := raw.rdropWhile (· = ord '\n')
  if line = [] ∨ line.head? = some (ord '#') then .ok (.nothing, lastPattern)
  else
    match splitParts (ord '\t') line with
    | [] => .ok (.nothing, lastPattern)
    | first :: others =>
      match testFlags first with
      | none => .ok (.nothing, lastPattern)
      | some flags =>
        if (first :: others).length < 4 ∨ py "NIL" ∈ first :: others then .ok (.filtered, lastPattern)
        else
          match nullFields (first :: others) with
          | _ :: pattern :: text :: outcome :: _ =>
            match datExpand u flags pattern text with
            | none => .ok (.filtered, lastPattern)
            | some (pattern, text) =>
              let pattern := if pattern = py "SAME" then lastPattern else pattern
              match parseDatResult u outcome with
              | .error e => .error e
              | .ok none => .ok (.filtered, pattern)
              | .ok (some expected) =>
                match (datCases flags pattern text expected).mapM Case.validate with
                | .error _ => .error "SchemaError"
                | .ok [] => .ok (.filtered, pattern)
                | .ok cs => .ok (.cases cs, pattern)
          | _ => .error "IndexError"

def loadCasesDatLoop (u : UnicodeTable) (cases : List (Case PyStr PyStr)) (filtered : ℕ) (lastPattern : PyStr)
    (lines : List PyStr) : Except String (List (Case PyStr PyStr) × ℕ) :=
  match lines with
  | [] => .ok (cases, filtered)
  | raw :: lines =>
    match datLine u lastPattern raw with
    | .error e => .error e
    | .ok (.nothing, lastPattern) => loadCasesDatLoop u cases filtered lastPattern lines
    | .ok (.filtered, lastPattern) => loadCasesDatLoop u cases (filtered + 1) lastPattern lines
    | .ok (.cases cs, lastPattern) => loadCasesDatLoop u (cases ++ cs) filtered lastPattern lines

def loadCasesDat (u : UnicodeTable) (lines : List PyStr) : Except String (List (Case PyStr PyStr) × ℕ) :=
  loadCasesDatLoop u [] 0 [] lines

end SciForge.Corpus
