import SciForge.Corpus.Runner
import SciForge.Lib.Raising
import Mathlib.Algebra.BigOperators.Group.List.Basic
import Mathlib.Algebra.GroupWithZero.Nat

/-!
# The rust-regex adapter

A parsed TOML document has text of Unicode scalar values; floats and dates, which the format does not
use, are left out. Subscripting the wrong kind of value raises, as it does in the adapter.
-/

namespace SciForge.Corpus

inductive Toml
  | bool (b : Bool)
  | int (n : ℤ)
  | str (s : List Char)
  | array (items : List Toml)
  | table (entries : List (String × Toml))

/-- The truth value Python gives it. -/
def Toml.truthy : Toml → Bool
  | .bool b => b
  | .int n => n ≠ 0
  | .str s => !s.isEmpty
  | .array items => !items.isEmpty
  | .table entries => !entries.isEmpty

/-- `entry.get(key)` as a condition. -/
def truthyKey (entry : Dict String Toml) (key : String) : Bool :=
  match entry.get key with
  | some value => value.truthy
  | none => false

/-- `entry.get(key) is False`. -/
def isFalseKey (entry : Dict String Toml) (key : String) : Bool :=
  match entry.get key with
  | some (.bool false) => true
  | _ => false

/-! ### Byte offsets -/

def charOffsetsLoop (offsets : Dict ℕ ℕ) (byte index : ℕ) : List Char → Dict ℕ ℕ × ℕ
  | [] => (offsets, byte)
  | char :: rest => charOffsetsLoop (offsets.set byte index) (byte + char.utf8Size) (index + 1) rest

def charOffsets (text : List Char) : Dict ℕ ℕ :=
  let (offsets, byte) := charOffsetsLoop [] 0 0 text
  offsets.set byte text.length

/-- `offsets.get(key)`; a bool is an int to a dict, a list or a table is unhashable. -/
def offsetOf (offsets : Dict ℕ ℕ) : Toml → Except String (Option ℕ)
  | .int n => .ok (if 0 ≤ n then offsets.get n.toNat else none)
  | .bool b => .ok (offsets.get b.toNat)
  | .str _ => .ok none
  | .array _ | .table _ => .error "TypeError"

/-- The inner `span`: `[]` for an unwritten group, `none` when an end splits a code point. -/
def rustSpan (offsets : Dict ℕ ℕ) (pair : Toml) : Except String (Option Span) :=
  if pair.truthy = false then .ok (some [])
  else
    match pair with
    | .array (first :: rest) => do
      let start ← offsetOf offsets first
      match rest with
      | [] => .error "IndexError"
      | second :: _ =>
        let stop ← offsetOf offsets second
        match start, stop with
        | some start, some stop => .ok (some [(start : ℤ), (stop : ℤ)])
        | _, _ => .ok none
    | .str (_ :: rest) => if rest.isEmpty then .error "IndexError" else .ok none
    | .table _ => .error "KeyError"
    | _ => .error "TypeError"

/-- `isinstance(value, int)`. -/
def Toml.isInt : Toml → Bool
  | .int _ | .bool _ => true
  | _ => false

/-- `[match] if match and isinstance(match[0], int) else list(match)`. -/
def rustPairs : Toml → Except String (List Toml)
  | .array [] => .ok []
  | .array (first :: rest) => if first.isInt then .ok [.array (first :: rest)] else .ok (first :: rest)
  | .str s => .ok (s.map (fun char => .str [char]))
  | .table [] => .ok []
  | .table (_ :: _) => .error "KeyError"
  | .int _ | .bool _ => .error "TypeError"

def rustMatch (offsets : Dict ℕ ℕ) (value : Toml) : Except String (Option Observable) := do
  let pairs ← rustPairs value
  let spans ← pairs.mapM (rustSpan offsets)
  match spans.mapM id with
  | none => .ok none
  | some [] => .error "IndexError"
  | some (whole :: groups) => .ok (some (matchDict whole groups))

/-! ### Entries -/

/-- What the adapter does not offer, filtered at import. -/
def outOfApi (entry : Dict String Toml) : Bool :=
  truthyKey entry "anchored" || (entry.get "bounds").isSome || (entry.get "match-limit").isSome ||
    isFalseKey entry "utf8" || truthyKey entry "unescape" ||
    (entry.get "search-kind").isSome || (entry.get "line-terminator").isSome ||
    isFalseKey entry "compiles" ||
    (match entry.get "match-kind" with
      | none => false
      | some (.str s) => decide (s ≠ "leftmost-first".toList)
      | some _ => true)

/-- Iterating over `entry.get("matches", [])`. -/
def rustMatches (entry : Dict String Toml) : Except String (List Toml) :=
  match entry.get "matches" with
  | none => .ok []
  | some (.array items) => .ok items
  | some (.str s) => .ok (s.map (fun char => .str [char]))
  | some (.table entries) => .ok ((Dict.keys entries).map (fun key => .str key.toList))
  | some (.int _) | some (.bool _) => .error "TypeError"

def rustFlags (entry : Dict String Toml) : List String :=
  (if isFalseKey entry "unicode" then ["ascii"] else []) ++
    if truthyKey entry "case-insensitive" then ["icase"] else []

/-- The body of the loop: the case of an entry, `none` for one counted as filtered. -/
def rustEntry (entry : Dict String Toml) : Except String (Option (Case Toml PyStr)) :=
  match outOfApi entry, entry.get "haystack" with
  | false, some (.str haystack) => do
    let offsets := charOffsets haystack
    let found ← rustMatches entry
    let expected ← found.mapM (rustMatch offsets)
    match expected.mapM id with
    | none => .ok none
    | some expected =>
      let regex ← subscript (entry.get "regex")
      .ok (some ⟨regex, haystack.map ord, .list expected, rustFlags entry, "", none⟩)
  | _, _ => .ok none

/-- The cases of the `[[test]]` entries, and how many were filtered. -/
def loadCasesRustToml (entries : List (Dict String Toml)) :
    Except String (List (Case Toml PyStr) × ℕ) :=
  entries.foldlM (fun (cases, filtered) entry => do
    match ← rustEntry entry with
    | some c => return (cases ++ [c], filtered)
    | none => return (cases, filtered + 1)) ([], 0)

/-! ### The offset table -/

def utf8Length (text : List Char) : ℕ := (text.map Char.utf8Size).sum

@[simp] lemma utf8Length_nil : utf8Length [] = 0 := rfl

@[simp] lemma utf8Length_cons (char : Char) (text : List Char) :
    utf8Length (char :: text) = char.utf8Size + utf8Length text := rfl

lemma utf8Length_take_lt {text : List Char} {i j : ℕ} (hij : i < j) (hj : j ≤ text.length) :
    utf8Length (text.take i) < utf8Length (text.take j) := by
  induction text generalizing i j with
  | nil => simp at hj; omega
  | cons char text ih =>
    obtain ⟨j, rfl⟩ : ∃ k, j = k + 1 := ⟨j - 1, by omega⟩
    have hpos := char.utf8Size_pos
    cases i with
    | zero =>
      simp only [List.take_zero, utf8Length_nil, List.take_succ_cons, utf8Length_cons]
      omega
    | succ i =>
      simp only [List.take_succ_cons, utf8Length_cons]
      have := ih (i := i) (j := j) (by omega) (by simpa using hj)
      omega

/-- After the loop: the byte count, the entries it made, and those it left alone. -/
lemma charOffsetsLoop_spec (text : List Char) (offsets : Dict ℕ ℕ) (byte index : ℕ) :
    (charOffsetsLoop offsets byte index text).2 = byte + utf8Length text ∧
    (∀ i, i < text.length → (charOffsetsLoop offsets byte index text).1.get
      (byte + utf8Length (text.take i)) = some (index + i)) ∧
    ∀ k, (∀ i, i < text.length → k ≠ byte + utf8Length (text.take i)) →
      (charOffsetsLoop offsets byte index text).1.get k = offsets.get k := by
  induction text generalizing offsets byte index with
  | nil => simp [charOffsetsLoop]
  | cons char text ih =>
    have hpos := char.utf8Size_pos
    obtain ⟨hbyte, hmade, hkept⟩ := ih (offsets.set byte index) (byte + char.utf8Size) (index + 1)
    refine ⟨?_, ?_, ?_⟩
    · rw [charOffsetsLoop, hbyte, utf8Length_cons]
      omega
    · intro i hi
      rw [charOffsetsLoop]
      cases i with
      | zero =>
        rw [hkept _ (fun j _ => by simp only [List.take_zero, utf8Length_nil]; omega)]
        exact Dict.get_set_self _ _ _
      | succ i =>
        have h := hmade i (by simpa using hi)
        rw [List.take_succ_cons, utf8Length_cons, ← Nat.add_assoc, h]
        congr 1
        omega
    · intro k hk
      rw [charOffsetsLoop, hkept k (fun i hi => ?_)]
      · exact Dict.get_set_of_ne _ (by simpa using (hk 0 (by simp)).symm) _
      · have h := hk (i + 1) (by simpa using hi)
        rwa [List.take_succ_cons, utf8Length_cons, ← Nat.add_assoc] at h

/-- The table holds exactly the lengths of the prefixes, each with the prefix's length in characters. -/
lemma charOffsets_get {text : List Char} {k i : ℕ} :
    (charOffsets text).get k = some i ↔ i ≤ text.length ∧ utf8Length (text.take i) = k := by
  obtain ⟨hbyte, hmade, hkept⟩ := charOffsetsLoop_spec text [] 0 0
  simp only [Nat.zero_add] at hbyte hmade hkept
  have hend : (charOffsets text).get (utf8Length text) = some text.length := by
    unfold charOffsets
    dsimp only
    rw [hbyte]
    exact Dict.get_set_self _ _ _
  have hother : ∀ k, k ≠ utf8Length text →
      (charOffsets text).get k = (charOffsetsLoop [] 0 0 text).1.get k := by
    intro k hk
    unfold charOffsets
    dsimp only
    rw [hbyte]
    exact Dict.get_set_of_ne _ hk.symm _
  have hstarts : ∀ i, i ≤ text.length → (charOffsets text).get (utf8Length (text.take i)) = some i := by
    intro i hi
    rcases Nat.lt_or_eq_of_le hi with hlt | rfl
    · rw [hother _ (fun he => ?_), hmade i hlt]
      have := utf8Length_take_lt hlt le_rfl
      rw [List.take_length] at this
      omega
    · rw [List.take_length, hend]
  constructor
  · intro h
    by_cases hex : ∃ j, j ≤ text.length ∧ utf8Length (text.take j) = k
    · obtain ⟨j, hj, rfl⟩ := hex
      rw [hstarts j hj] at h
      obtain rfl := Option.some.inj h
      exact ⟨hj, rfl⟩
    · have hne : k ≠ utf8Length text := fun he => hex ⟨text.length, le_rfl, by rw [List.take_length, he]⟩
      rw [hother k hne, hkept k (fun j hj he => hex ⟨j, hj.le, he.symm⟩)] at h
      cases h
  · rintro ⟨hi, rfl⟩
    exact hstarts i hi

end SciForge.Corpus
