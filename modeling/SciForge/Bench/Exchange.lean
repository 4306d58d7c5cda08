import SciForge.Bench.Emitter
import SciForge.Bench.Schema
import SciForge.Python.JsonNumbers

/-!
# The C++ emitter against the Python reader

What `json.loads` makes of an emitted run is the plain-dict form of the run that was emitted.
-/

namespace SciForge.Bench

open Json Schema

variable {D N : Type} {readNumber : List Char → Option N}

/-! ### Strings -/

/-- The lower-case hexadecimal digit of `n < 16`. -/
def hexDigit (n : ℕ) : Char :=
  ['0', '1', '2', '3', '4', '5', '6', '7', '8', '9', 'a', 'b', 'c', 'd', 'e', 'f'].getD n '0'

/-- The text of one character in an emitted string. -/
def escapeChar (c : Char) : List Char :=
  if c = '"' ∨ c = '\\' then ['\\', c]
  else if c = '\n' then ['\\', 'n']
  else if c = '\t' then ['\\', 't']
  else if c = '\r' then ['\\', 'r']
  else if c.toNat < 0x20 then ['\\', 'u', '0', '0', hexDigit (c.toNat / 16), hexDigit (c.toNat % 16)]
  else [c]

lemma escapeByte_high {b : UInt8} (hb : 0x80 ≤ b.toNat) : escapeByte b = [b] := by
  have hne : ∀ c : Char, c.toNat < 0x80 → b ≠ byte c := by
    rintro c hc rfl
    rw [byte, UInt8.toNat_ofNat'] at hb
    omega
  have hcontrol : ¬b < 0x20 := by
    rw [UInt8.lt_iff_toNat_lt]
    exact Nat.not_lt.mpr (Nat.le_trans (by decide) hb)
  rw [escapeByte, if_neg (not_or.mpr ⟨hne _ (by decide), hne _ (by decide)⟩), if_neg (hne _ (by decide)),
    if_neg (hne _ (by decide)), if_neg (hne _ (by decide)), if_neg hcontrol]

lemma escapeByte_ascii : ∀ n < 0x80, escapeByte (UInt8.ofNat n) = utf8 (escapeChar (Char.ofNat n)) := by
  decide +kernel

lemma flatMap_escapeByte (c : Char) : (String.utf8EncodeChar c).flatMap escapeByte = utf8 (escapeChar c) := by
  by_cases hc : c.toNat < 0x80
  · rw [utf8EncodeChar_ascii hc, List.flatMap_singleton, escapeByte_ascii c.toNat hc, Char.ofNat_toNat]
  · have hhigh : ∀ b ∈ String.utf8EncodeChar c, escapeByte b = [b] :=
      fun b hb => escapeByte_high (le_of_mem_utf8EncodeChar (Nat.le_of_not_lt hc) hb)
    have hne : ∀ c' : Char, c'.toNat < 0x80 → c ≠ c' := by
      rintro c' hc' rfl
      exact hc hc'
    have hcontrol : ¬c.toNat < 0x20 := by omega
    rw [escapeChar, if_neg (not_or.mpr ⟨hne _ (by decide), hne _ (by decide)⟩), if_neg (hne _ (by decide)),
      if_neg (hne _ (by decide)), if_neg (hne _ (by decide)), if_neg hcontrol, List.flatMap_congr hhigh]
    simp [utf8]

/-- The emitter escapes each character of the text whose bytes it is given. -/
lemma jsonString_utf8 (s : List Char) : jsonString (utf8 s) = utf8 ('"' :: (s.flatMap escapeChar ++ ['"'])) := by
  have hbody : (utf8 s).flatMap escapeByte = utf8 (s.flatMap escapeChar) := by
    induction s with
    | nil => rfl
    | cons c s ih => rw [utf8_cons, List.flatMap_append, flatMap_escapeByte, ih, List.flatMap_cons, utf8_append]
  rw [jsonString, hbody, utf8_cons, utf8_append]
  rfl

lemma joinEscapes_low {n : ℕ} (hn : isHighSurrogate n = false) (t : List Char) :
    joinEscapes n t = some (codePoint n, t) := by
  unfold joinEscapes
  split
  · rw [hn]
    rfl
  · rfl

lemma hex4_hexDigit : ∀ n < 0x20, hex4 '0' '0' (hexDigit (n / 16)) (hexDigit (n % 16)) = some n ∧
    isHighSurrogate n = false ∧ codePoint n = ord (Char.ofNat n) := by
  decide

lemma matchEscape_control {c : Char} (hc : c.toNat < 0x20) (t : List Char) :
    matchEscape ('u' :: '0' :: '0' :: hexDigit (c.toNat / 16) :: hexDigit (c.toNat % 16) :: t) = some (ord c, t) := by
  obtain ⟨hhex, hlow, hcode⟩ := hex4_hexDigit c.toNat hc
  rw [Char.ofNat_toNat] at hcode
  rw [matchEscape]
  simp only [hhex]
  rw [joinEscapes_low hlow, hcode]

lemma scanString_escapeChar (c : Char) (t : List Char) :
    scanString (escapeChar c ++ t) = (scanString t).map (fun s => (ord c :: s.1, s.2)) := by
  have hbackslash : ∀ {e : List Char}, matchEscape (e ++ t) = some (ord c, t) →
      scanString ('\\' :: (e ++ t)) = (scanString t).map (fun s => (ord c :: s.1, s.2)) := by
    intro e he
    rw [scanString_backslash, he]
    rfl
  unfold escapeChar
  split_ifs with hspecial hnewline htab hreturn hcontrol
  · exact hbackslash (by rcases hspecial with rfl | rfl <;> rfl)
  · exact hbackslash (by rw [hnewline]; rfl)
  · exact hbackslash (by rw [htab]; rfl)
  · exact hbackslash (by rw [hreturn]; rfl)
  · exact hbackslash (matchEscape_control hcontrol t)
  · rw [not_or] at hspecial
    rw [List.singleton_append, scanString_other hspecial.1 hspecial.2, if_neg hcontrol]

lemma scanString_escaped (s t : List Char) :
    scanString (s.flatMap escapeChar ++ '"' :: t) = some (s.map ord, t) := by
  induction s with
  | nil => rw [List.flatMap_nil, List.nil_append, scanString, if_pos rfl]; rfl
  | cons c s ih =>
    rw [List.flatMap_cons, List.append_assoc, scanString_escapeChar, ih]
    rfl

/-! ### Documents -/

/-- `json.loads` of the text that the bytes encode. -/
def loadsUtf8 (readNumber : List Char → Option N) (b : Bytes) : Option (Json N) := (decodeUtf8 b).bind (loads readNumber)

lemma loadsUtf8_utf8 (t : List Char) : loadsUtf8 readNumber (utf8 t) = loads readNumber t := by
  rw [loadsUtf8, decodeUtf8_utf8]
  rfl

lemma loadsUtf8_eq_some {b : Bytes} {v : Json N} :
    loadsUtf8 readNumber b = some v ↔ ∃ t, b = utf8 t ∧ loads readNumber t = some v := by
  rw [loadsUtf8, Option.bind_eq_some_iff]
  simp only [decodeUtf8_eq_some]

lemma skipWs_of_head {c : Char} (hc : isWs c = false) (t : List Char) : skipWs (c :: t) = c :: t := by
  rw [skipWs, List.dropWhile_cons_of_neg (by simp [hc])]

/-- A value that is read by itself is read in front of a delimiter. -/
lemma parses_delimited {t s : List Char} {v : Json N} (h : loads readNumber t = some v) (hs : Delimited s) :
    ∃ r, Parses readNumber (skipWs (t ++ s)) (.value v) r ∧ skipWs r = skipWs s := by
  obtain ⟨r, hparses, hrest⟩ := loads_iff.mp h
  refine ⟨r ++ s, ?_, ?_⟩
  · rw [skipWs_append hs]
    exact hparses.append hs
  · rw [skipWs_append hs, hrest, List.nil_append]
    cases s with
    | nil => rfl
    | cons c s =>
      rcases hs c rfl with rfl | rfl | rfl <;> rw [skipWs_of_head (by decide)]

lemma jsonJoin_cons_cons (item item' : Bytes) (items : List Bytes) :
    jsonJoin (item :: item' :: items) = item ++ bytes "," ++ jsonJoin (item' :: items) := by
  simp only [jsonJoin, List.flatMap_cons, List.append_assoc]

lemma parses_elements {items : List Bytes} {values : List (Json N)}
    (h : List.Forall₂ (fun item value => loadsUtf8 readNumber item = some value) items values) (hne : items ≠ []) :
    ∃ t, jsonJoin items ++ bytes "]" = utf8 t ∧ Parses readNumber (skipWs t) (.elements values) [] := by
  induction h with
  | nil => exact absurd rfl hne
  | @cons item value items values hitem hitems ih =>
    obtain ⟨t, rfl, ht⟩ := loadsUtf8_eq_some.mp hitem
    cases hitems with
    | nil =>
      obtain ⟨r, hparses, hrest⟩ := parses_delimited ht (s := [']']) (by simp [Delimited])
      exact ⟨t ++ [']'], by simp [jsonJoin, utf8_append, bytes], .lastElement hparses hrest⟩
    | @cons item' value' items values hitem' hitems =>
      obtain ⟨t', ht', helements⟩ := ih (List.cons_ne_nil _ _)
      obtain ⟨r, hparses, hrest⟩ := parses_delimited ht (s := ',' :: t') (by simp [Delimited])
      refine ⟨t ++ ',' :: t', ?_, .nextElement hparses hrest helements⟩
      rw [jsonJoin_cons_cons, List.append_assoc, ht', utf8_append, utf8_cons, List.append_assoc]
      rfl

lemma loadsUtf8_array {items : List Bytes} {values : List (Json N)}
    (h : List.Forall₂ (fun item value => loadsUtf8 readNumber item = some value) items values) :
    loadsUtf8 readNumber (bytes "[" ++ jsonJoin items ++ bytes "]") = some (.array values) := by
  cases h with
  | nil => exact loadsUtf8_eq_some.mpr ⟨['[', ']'], rfl, loads_iff.mpr ⟨[], .emptyArray rfl, rfl⟩⟩
  | cons hitem hitems =>
    obtain ⟨t, ht, hparses⟩ := parses_elements (.cons hitem hitems) (List.cons_ne_nil _ _)
    refine loadsUtf8_eq_some.mpr ⟨'[' :: t, ?_, loads_iff.mpr ⟨[], .array hparses, rfl⟩⟩
    rw [List.append_assoc, ht, utf8_cons]
    rfl

/-- The `str` that the bytes encode. -/
def strOf (b : Bytes) : Option PyStr := (decodeUtf8 b).map (List.map ord)

lemma strOf_eq_some {b : Bytes} {s : PyStr} : strOf b = some s ↔ ∃ t, b = utf8 t ∧ t.map ord = s := by
  rw [strOf, Option.map_eq_some_iff]
  simp only [decodeUtf8_eq_some]

lemma strOf_bytes (literal : String) : strOf (bytes literal) = some (py literal) :=
  strOf_eq_some.mpr ⟨literal.toList, rfl, rfl⟩

lemma loadsUtf8_jsonString {b : Bytes} {s : PyStr} (h : strOf b = some s) :
    loadsUtf8 readNumber (jsonString b) = some (.string s) := by
  obtain ⟨t, rfl, rfl⟩ := strOf_eq_some.mp h
  refine loadsUtf8_eq_some.mpr ⟨_, jsonString_utf8 t, loads_iff.mpr ⟨[], .atom ?_, rfl⟩⟩
  rw [skipWs_of_head (by decide), matchAtom_quote, scanString_escaped]
  rfl

/-- What a field of an emitted object is read as. -/
structure FieldReads (readNumber : List Char → Option N) (field : Bytes × Bytes) (item : PyStr × Json N) : Prop where
  key : strOf field.1 = some item.1
  value : loadsUtf8 readNumber field.2 = some item.2

lemma parses_members {fields : List (Bytes × Bytes)} {items : List (PyStr × Json N)}
    (h : List.Forall₂ (FieldReads readNumber) fields items) (hne : fields ≠ []) :
    ∃ t, jsonJoin (fields.map (fun field => jsonString field.1 ++ bytes ":" ++ field.2)) ++ bytes "\x7d" = utf8 ('"' :: t) ∧
      Parses readNumber ('"' :: t) (.members items) [] := by
  induction h with
  | nil => exact absurd rfl hne
  | @cons field item fields items hfield hfields ih =>
    obtain ⟨key, value⟩ := field
    obtain ⟨key', value'⟩ := item
    obtain ⟨k, rfl, rfl⟩ := strOf_eq_some.mp hfield.key
    obtain ⟨t, rfl, ht⟩ := loadsUtf8_eq_some.mp hfield.value
    have hkey : ∀ s, scanString (k.flatMap escapeChar ++ '"' :: ':' :: (t ++ s)) = some (k.map ord, ':' :: (t ++ s)) :=
      fun s => scanString_escaped k _
    have hcolon : ∀ s, skipWs (':' :: s) = ':' :: s := fun s => skipWs_of_head (by decide) s
    cases hfields with
    | nil =>
      obtain ⟨r, hparses, hrest⟩ := parses_delimited ht (s := ['}']) (by simp [Delimited])
      refine ⟨k.flatMap escapeChar ++ '"' :: ':' :: (t ++ ['}']), ?_, .lastMember (hkey _) (hcolon _) hparses hrest⟩
      simp [jsonJoin, jsonString_utf8, utf8_append, utf8_cons, utf8_nil, bytes]
    | @cons field' item' fields items hfield' hfields =>
      obtain ⟨t', ht', hmembers⟩ := ih (List.cons_ne_nil _ _)
      obtain ⟨r, hparses, hrest⟩ := parses_delimited ht (s := ',' :: '"' :: t') (by simp [Delimited])
      refine ⟨k.flatMap escapeChar ++ '"' :: ':' :: (t ++ ',' :: '"' :: t'), ?_,
        .nextMember (hkey _) (hcolon _) hparses hrest hmembers⟩
      rw [List.map_cons] at ht'
      rw [List.map_cons, List.map_cons, jsonJoin_cons_cons, List.append_assoc, ht']
      simp [jsonString_utf8, utf8_append, utf8_cons, utf8_nil, bytes]

lemma loadsUtf8_object {fields : List (Bytes × Bytes)} {items : List (PyStr × Json N)}
    (h : List.Forall₂ (FieldReads readNumber) fields items) :
    loadsUtf8 readNumber (jsonObject fields) = some (.object (Dict.update [] items)) := by
  cases h with
  | nil => exact loadsUtf8_eq_some.mpr ⟨['{', '}'], rfl, loads_iff.mpr ⟨[], .emptyObject rfl, rfl⟩⟩
  | cons hfield hfields =>
    obtain ⟨t, ht, hparses⟩ := parses_members (.cons hfield hfields) (List.cons_ne_nil _ _)
    refine loadsUtf8_eq_some.mpr ⟨'{' :: '"' :: t, ?_, loads_iff.mpr ⟨[], .object ?_, rfl⟩⟩
    · rw [jsonObject, List.append_assoc, ht, utf8_cons]
      rfl
    · rwa [skipWs_of_head (by decide)]

/-! ### Numbers -/

/-- `%.6g` prints a finite value as a number of JSON that fits the buffer. -/
def Doubles.Prints (double : Doubles D) : Prop :=
  ∀ value, double.isnan value = false → double.isinf value = false →
    ∃ t, decodeUtf8 (double.format value) = some t ∧ matchNumber t = some (t, []) ∧ t.length < 32

/-- The sample that is read of a value of C++. -/
def sampleOf (readNumber : List Char → Option N) (double : Doubles D) (value : D) : Option (Json N) :=
  (decodeUtf8 (jsonNumber double value)).bind (fun t => (readNumber t).map .number)

lemma loads_atom {c : Char} {t : List Char} (hc : isWs c = false ∧ c ≠ '[' ∧ c ≠ '{')
    (hatom : matchAtom readNumber (c :: t) = (readNumber (c :: t)).map (fun n => (.number n, []))) :
    loads readNumber (c :: t) = (readNumber (c :: t)).map .number := by
  have hopen : (∀ s, c :: t ≠ '[' :: s) ∧ ∀ s, c :: t ≠ '{' :: s :=
    ⟨fun s h => hc.2.1 (List.cons.inj h).1, fun s h => hc.2.2 (List.cons.inj h).1⟩
  rw [loads, skipWs_of_head hc.1, parse_atom hopen, hatom]
  cases readNumber (c :: t) <;> rfl

lemma loads_number {t : List Char} (h : matchNumber t = some (t, [])) :
    loads readNumber t = (readNumber t).map .number := by
  have hatom : (∀ r, t ≠ '"' :: r) → matchAtom readNumber t = (readNumber t).map (fun n => (.number n, [])) := by
    intro hquote
    rw [matchAtom_other hquote, matchWord_number h, h]
    rfl
  obtain ⟨d, r, rfl, hd⟩ | ⟨d, r, rfl, -⟩ := matchNumber_head h
  · have hne : ∀ c : Char, c.isDigit = false → d ≠ c := by
      rintro c hc rfl
      rw [hd] at hc
      cases hc
    have hws : isWs d = false := by
      simp [isWs, hne ' ' rfl, hne '\t' rfl, hne '\n' rfl, hne '\r' rfl]
    exact loads_atom ⟨hws, hne _ rfl, hne _ rfl⟩ (hatom (fun r h => hne '"' rfl (List.cons.inj h).1))
  · exact loads_atom (by decide) (hatom (fun r h => absurd (List.cons.inj h).1 (by decide)))

lemma loadsUtf8_jsonNumber {double : Doubles D} (hdouble : double.Prints) (value : D) :
    loadsUtf8 readNumber (jsonNumber double value) = sampleOf readNumber double value := by
  have hword : ∀ {t : List Char} {b}, loads readNumber t = (readNumber t).map .number → decodeUtf8 b = some t →
      loadsUtf8 readNumber b = (decodeUtf8 b).bind (fun t => (readNumber t).map .number) := by
    intro t b ht hb
    rw [loadsUtf8, hb]
    exact ht
  unfold sampleOf jsonNumber
  split_ifs with hnan hinf hpositive
  · exact hword (loads_atom (by decide) (matchAtom_word (.inl rfl) [])) (decodeUtf8_utf8 _)
  · exact hword (loads_atom (by decide) (matchAtom_word (.inr (.inl rfl)) [])) (decodeUtf8_utf8 _)
  · exact hword (loads_atom (by decide) (matchAtom_word (.inr (.inr rfl)) [])) (decodeUtf8_utf8 _)
  · obtain ⟨t, ht, hnumber, -⟩ := hdouble value (by simpa using hnan) (by simpa using hinf)
    exact hword (loads_number hnumber) ht

lemma sampleOf_isSome {F : Type} (u : UnicodeTable) (readFloat : List Char → F) {double : Doubles D}
    (hdouble : double.Prints) (value : D) :
    (sampleOf (pyNumber u readFloat) double value).isSome = true := by
  have hread : ∀ {t b}, decodeUtf8 b = some t → (pyNumber u readFloat t).isSome = true →
      ((decodeUtf8 b).bind (fun t => (pyNumber u readFloat t).map Json.number)).isSome = true := by
    intro t b hb ht
    rw [hb, Option.bind_some, Option.isSome_map]
    exact ht
  unfold sampleOf jsonNumber
  split_ifs with hnan hinf hpositive
  · exact hread (decodeUtf8_utf8 ['N', 'a', 'N']) rfl
  · exact hread (decodeUtf8_utf8 ['I', 'n', 'f', 'i', 'n', 'i', 't', 'y']) rfl
  · exact hread (decodeUtf8_utf8 ['-', 'I', 'n', 'f', 'i', 'n', 'i', 't', 'y']) rfl
  · obtain ⟨t, ht, hnumber, hlength⟩ := hdouble value (by simpa using hnan) (by simpa using hinf)
    refine hread ht ((pyNumber_isSome u readFloat hnumber).mpr (fun _ => ?_))
    have hminus : (matchMinus t).2.length ≤ t.length := by
      rcases matchMinus_cases t with ⟨r, rfl, hminus⟩ | hminus
      · rw [hminus]
        exact Nat.le_succ _
      · rw [hminus]
    exact (hminus.trans hlength.le).trans (by decide)

/-! ### Cases and runs -/

/-- The arguments of `emit_case`. -/
structure CaseArgs (D : Type) where
  name : Bytes
  unit : Bytes
  samples : List D
  domain : List (Bytes × Bytes)
  resultJson : Bytes

def CaseArgs.emit (double : Doubles D) (args : CaseArgs D) : Bytes :=
  emitCase double args.name args.unit args.samples args.domain args.resultJson

/-- The case that the arguments of `emit_case` stand for: texts in UTF-8, the result and the domain values
well-formed JSON, the result absent or not null. -/
structure StandsFor (readNumber : List Char → Option N) (double : Doubles D) (args : CaseArgs D) (case : Schema.Case N) :
    Prop where
  name : ∃ s, strOf args.name = some s ∧ case.name = .string s
  unit : ∃ s, strOf args.unit = some s ∧ case.unit = .string s
  samples : List.Forall₂ (fun value sample => sampleOf readNumber double value = some sample) args.samples case.samples
  result : args.resultJson = [] ∧ case.result = .null ∨
    case.result ≠ .null ∧ loadsUtf8 readNumber args.resultJson = some case.result
  extra : ∃ items, List.Forall₂ (FieldReads readNumber) args.domain items ∧ case.extra = Dict.update [] items

variable {double : Doubles D}

lemma loadsUtf8_samples (hdouble : double.Prints) {values : List D} {samples : List (Json N)}
    (h : List.Forall₂ (fun value sample => sampleOf readNumber double value = some sample) values samples) :
    loadsUtf8 readNumber (jsonArray double values) = some (.array samples) := by
  apply loadsUtf8_array
  rw [List.forall₂_map_left_iff]
  refine h.imp ?_
  intro value sample hsample
  rw [loadsUtf8_jsonNumber hdouble, hsample]

lemma loadsUtf8_ne_nil {b : Bytes} {v : Json N} (h : loadsUtf8 readNumber b = some v) : b ≠ [] := by
  rintro rfl
  have hnil : loadsUtf8 readNumber (utf8 []) = none := loadsUtf8_utf8 []
  rw [utf8_nil, h] at hnil
  cases hnil

lemma update_ownFields (case : Schema.Case N) : Dict.update [] (ownFields case) = ownFields case := by
  apply Dict.update_of_disjoint
  · unfold ownFields
    cases isNone case.result with
    | true =>
      change [py "name", py "unit", py "samples"].Nodup
      decide
    | false =>
      change caseKeys.Nodup
      decide
  · intro k _ hk
    cases hk

/-- An emitted case is read as the plain-dict form of the case it stands for. -/
theorem loadsUtf8_emit (hdouble : double.Prints) {args : CaseArgs D} {case : Schema.Case N}
    (h : StandsFor readNumber double args case) :
    loadsUtf8 readNumber (args.emit double) = some (caseToJson case) := by
  obtain ⟨name, hname, hname'⟩ := h.name
  obtain ⟨unit, hunit, hunit'⟩ := h.unit
  obtain ⟨items, hitems, hextra⟩ := h.extra
  have hfirst : List.Forall₂ (FieldReads readNumber)
      [(bytes "name", jsonString args.name), (bytes "unit", jsonString args.unit),
        (bytes "samples", jsonArray double args.samples)]
      [(py "name", case.name), (py "unit", case.unit), (py "samples", .array case.samples)] := by
    rw [hname', hunit']
    exact .cons ⟨strOf_bytes _, loadsUtf8_jsonString hname⟩ (.cons ⟨strOf_bytes _, loadsUtf8_jsonString hunit⟩
      (.cons ⟨strOf_bytes _, loadsUtf8_samples hdouble h.samples⟩ .nil))
  have hown : ∃ fields, args.emit double = jsonObject (fields ++ args.domain) ∧
      List.Forall₂ (FieldReads readNumber) fields (ownFields case) := by
    rw [CaseArgs.emit, emitCase]
    rcases h.result with ⟨hnone, hnull⟩ | ⟨hnull, hresult⟩
    · refine ⟨_, rfl, ?_⟩
      rw [if_neg (not_not.mpr hnone), ownFields, if_pos (isNone_iff.mpr hnull), List.append_nil]
      exact hfirst
    · refine ⟨_, rfl, ?_⟩
      rw [if_pos (loadsUtf8_ne_nil hresult), ownFields, if_neg (fun hnone => hnull (isNone_iff.mp hnone))]
      exact List.rel_append hfirst (.cons ⟨strOf_bytes _, hresult⟩ .nil)
  obtain ⟨fields, hemit, hfields⟩ := hown
  rw [hemit, loadsUtf8_object (List.rel_append hfields hitems), caseToJson_eq, hextra]
  have happend : Dict.update [] (ownFields case ++ items) = (Dict.update [] (ownFields case)).update items :=
    List.foldl_append
  have hnil : (Dict.keys ([] : Dict PyStr (Json N))).Nodup := List.nodup_nil
  have hdict := Dict.update_update (ownFields case) hnil items
  rw [happend, update_ownFields, ← hdict, Dict.update_nil]

lemma loadsUtf8_emitRun (hdouble : double.Prints) {metaJson : Bytes} {metadata : Json N} {args : List (CaseArgs D)}
    {cases : List (Schema.Case N)} (hmeta : loadsUtf8 readNumber metaJson = some metadata)
    (hcases : List.Forall₂ (StandsFor readNumber double) args cases) :
    loadsUtf8 readNumber (emitRun metaJson (args.map (CaseArgs.emit double))) =
      some (.object [(py "meta", metadata), (py "cases", .array (cases.map caseToJson))]) := by
  have harray : loadsUtf8 readNumber (bytes "[" ++ jsonJoin (args.map (CaseArgs.emit double)) ++ bytes "]") =
      some (.array (cases.map caseToJson)) := by
    apply loadsUtf8_array
    rw [List.forall₂_map_left_iff, List.forall₂_map_right_iff]
    exact hcases.imp (fun _ _ h => loadsUtf8_emit hdouble h)
  have hfields : List.Forall₂ (FieldReads readNumber)
      [(bytes "meta", metaJson), (bytes "cases", bytes "[" ++ jsonJoin (args.map (CaseArgs.emit double)) ++ bytes "]")]
      [(py "meta", metadata), (py "cases", .array (cases.map caseToJson))] :=
    .cons ⟨strOf_bytes _, hmeta⟩ (.cons ⟨strOf_bytes _, harray⟩ .nil)
  have hkey : py "meta" ≠ py "cases" := by decide
  rw [emitRun, loadsUtf8_object hfields]
  simp [Dict.set, hkey]

/-- The emitter and the reader agree. A string is read back; an emitted run is read as its meta value and the
plain-dict forms of its cases, which is the plain-dict form of the run when the meta value is an object; and the run
is recovered from it when no domain key is one of the case keys. -/
theorem emitRun_agrees (hdouble : double.Prints) {metaJson : Bytes} {metadata : Json N} {args : List (CaseArgs D)}
    {cases : List (Schema.Case N)} (hmeta : loadsUtf8 readNumber metaJson = some metadata)
    (hcases : List.Forall₂ (StandsFor readNumber double) args cases) :
    (∀ value s, strOf value = some s → loadsUtf8 readNumber (jsonString value) = some (.string s)) ∧
      loadsUtf8 readNumber (emitRun metaJson (args.map (CaseArgs.emit double))) =
        some (.object [(py "meta", metadata), (py "cases", .array (cases.map caseToJson))]) ∧
      ∀ items, metadata = .object items →
        loadsUtf8 readNumber (emitRun metaJson (args.map (CaseArgs.emit double))) = some (runToJson ⟨items, cases⟩) ∧
        ((∀ case ∈ cases, ∀ key ∈ case.extra.keys, key ∉ caseKeys) →
          runFromJson (runToJson ⟨items, cases⟩) = .ok ⟨items, cases⟩) := by
  have hloads := loadsUtf8_emitRun hdouble hmeta hcases
  refine ⟨fun value s => loadsUtf8_jsonString, hloads, ?_⟩
  rintro items rfl
  refine ⟨hloads, fun hextra => runFromJson_runToJson ?_ hextra⟩
  intro case hcase
  obtain ⟨args, -, h⟩ := forall₂_mem_right hcases hcase
  obtain ⟨fields, -, hfields⟩ := h.extra
  rw [hfields]
  exact Dict.keys_update_nodup (d := []) List.nodup_nil fields

/-- The numbers 1.0 (`true`) and NaN (`false`). -/
def oneOrNan : Doubles Bool where
  isnan value := !value
  isinf _ := false
  positive value := value
  format _ := bytes "1"

/-- The reading of `1`, and of `NaN` as `none`. -/
def readOne (t : List Char) : Option (Option ℕ) := some (if t = ['1'] then some 1 else none)

lemma oneOrNan_prints : oneOrNan.Prints := fun _ _ _ => ⟨['1'], decodeUtf8_utf8 _, rfl, by decide⟩

/-- One case with a quote and a control character in its name, and the domain key `size` twice. -/
def quotedCase : CaseArgs Bool where
  name := bytes "a\"\n"
  unit := bytes "s"
  samples := [true, false]
  domain := [(bytes "size", bytes " 1 "), (bytes "size", bytes "[1]")]
  resultJson := bytes "true"

def quotedRun : Schema.Run (Option ℕ) where
  metadata := []
  cases := [{
    name := .string (py "a\"\n"), unit := .string (py "s"), samples := [.number (some 1), .number none],
    result := .bool true, extra := [(py "size", .array [.number (some 1)])] }]

theorem emitRun_agrees_quoted :
    loadsUtf8 readOne (emitRun (bytes "\x7b\x7d") [quotedCase.emit oneOrNan]) = some (runToJson quotedRun) ∧
      runFromJson (runToJson quotedRun) = .ok quotedRun := by
  have hmeta : loadsUtf8 readOne (bytes "\x7b\x7d") = some (.object quotedRun.metadata) := loadsUtf8_utf8 _
  have hsize : ∀ {b v}, loadsUtf8 readOne b = some v → FieldReads readOne (bytes "size", b) (py "size", v) :=
    fun h => ⟨strOf_bytes _, h⟩
  have hcase : StandsFor readOne oneOrNan quotedCase (quotedRun.cases.head (List.cons_ne_nil _ _)) := by
    constructor
    · exact ⟨py "a\"\n", strOf_bytes _, rfl⟩
    · exact ⟨py "s", strOf_bytes _, rfl⟩
    · refine .cons ?_ (.cons ?_ .nil)
      · exact congrArg (Option.bind · _) (decodeUtf8_utf8 ['1'])
      · exact congrArg (Option.bind · _) (decodeUtf8_utf8 ['N', 'a', 'N'])
    · exact .inr ⟨(fun h => nomatch h), loadsUtf8_utf8 _⟩
    · refine ⟨_, .cons (hsize (v := .number (some 1)) (loadsUtf8_utf8 _))
        (.cons (hsize (v := .array [.number (some 1)]) (loadsUtf8_utf8 _)) .nil), ?_⟩
      rfl
  have hagrees := emitRun_agrees oneOrNan_prints hmeta (.cons hcase .nil)
  obtain ⟨hreads, hrecovers⟩ := hagrees.2.2 _ rfl
  refine ⟨hreads, hrecovers ?_⟩
  intro case hmem key hkey
  obtain rfl := List.mem_singleton.mp hmem
  obtain rfl := List.mem_singleton.mp hkey
  decide

/-- An integer of more digits than Python reads. -/
def longInteger : List Char := List.replicate (intMaxStrDigits + 1) '1'

lemma ones_number (n : ℕ) :
    matchNumber (List.replicate (n + 1) '1') = some (List.replicate (n + 1) '1', []) := by
  have hall : ∀ c ∈ List.replicate (n + 1) '1', c.isDigit = true := by
    intro c hc
    rw [List.eq_of_mem_replicate hc]
    rfl
  have hdigits : digits (List.replicate (n + 1) '1') = (List.replicate (n + 1) '1', []) := by
    rw [digits, List.takeWhile_eq_self_iff.mpr hall, List.dropWhile_eq_nil_iff.mpr hall]
  have hint : matchInt ('1' :: List.replicate n '1') = some ('1' :: List.replicate n '1', []) := by
    rw [matchInt_of_ne (by decide)]
    exact congrArg some hdigits
  have hminus : matchMinus ('1' :: List.replicate n '1') = ([], '1' :: List.replicate n '1') := rfl
  rw [List.replicate_succ, matchNumber, hminus, hint]
  simp [matchFraction, matchExponent]

def anyDigits : UnicodeTable := ⟨fun _ => false, fun _ => none⟩

/-- A case whose result is a long integer. -/
def longCase : CaseArgs Bool where
  name := bytes "a"
  unit := bytes "s"
  samples := []
  domain := []
  resultJson := utf8 longInteger

/-- The long integer is a well-formed text, and Python cannot read the run that has it as a result. -/
theorem emitRun_overlong : loadsUtf8 some (utf8 longInteger) = some (.number longInteger) ∧
    loadsUtf8 (pyNumber anyDigits id) (emitRun (bytes "\x7b\x7d") [longCase.emit oneOrNan]) = none := by
  have hwell : loadsUtf8 some (utf8 longInteger) = some (.number longInteger) := by
    rw [loadsUtf8_utf8, longInteger, loads_number (ones_number intMaxStrDigits)]
    rfl
  refine ⟨hwell, Option.eq_none_iff_forall_not_mem.mpr (fun v hv => ?_)⟩
  have hcase : StandsFor some oneOrNan longCase
      ⟨.string (py "a"), .string (py "s"), [], .number longInteger, []⟩ :=
    ⟨⟨py "a", strOf_bytes _, rfl⟩, ⟨py "s", strOf_bytes _, rfl⟩, .nil, .inr ⟨fun h => (nomatch h), hwell⟩, [], .nil, rfl⟩
  have hmeta : loadsUtf8 some (bytes "\x7b\x7d") = some (.object []) := loadsUtf8_utf8 _
  have hraw := loadsUtf8_emitRun oneOrNan_prints hmeta (.cons hcase .nil)
  obtain ⟨t, ht, hread⟩ := loadsUtf8_eq_some.mp hv
  obtain ⟨raw, hloads, hnumbers⟩ := loads_numbers hread
  rw [List.map_singleton, ht, loadsUtf8_utf8, hloads] at hraw
  have hmem : longInteger ∈ raw.numbers := by
    rw [Option.some.inj hraw]
    exact List.mem_singleton_self _
  have hminus : ∀ n, matchMinus (List.replicate (n + 1) '1') = ([], List.replicate (n + 1) '1') := fun n => rfl
  have hdigits := (pyNumber_isSome anyDigits id (ones_number intMaxStrDigits)).mp (hnumbers _ hmem)
  rw [hminus, List.length_replicate] at hdigits
  refine absurd (hdigits (List.all_eq_true.mpr (fun c hc => ?_))) (Nat.not_succ_le_self _)
  rw [List.eq_of_mem_replicate hc]
  rfl

end SciForge.Bench
