import SciForge.Python.JsonParse
import SciForge.Tools.PinScan

/-!
# The list of dependencies, read without a JSON reader

The sed scripts of the checkout action and of the CMake job, which take a JSON array of objects apart by its text,
against `json.loads`.
-/

namespace SciForge.Tools.Deps

open PinScan Json

/-! ### The scripts -/

/-- `"key"[[:space:]]*:[[:space:]]*"\([^"]*\)"` at the start of a text. -/
def fieldHere (key text : List Char) : Option (List Char) :=
  match text.dropPrefix? ('\x22' :: key ++ ['\x22']) with
  | none => none
  | some rest =>
    match rest.dropWhile isSpace with
    | ':' :: rest =>
      match rest.dropWhile isSpace with
      | '\x22' :: rest => if '\x22' ∈ rest then some (rest.takeWhile (· ≠ '\x22')) else none
      | _ => none
    | _ => none

/-- What `s/.*"key"[[:space:]]*:[[:space:]]*"\([^"]*\)".*/\1/p` prints of a line: `.*` takes as much as it can. -/
def field (key : List Char) : List Char → Option (List Char)
  | [] => none
  | c :: text => (field key text).or (fieldHere key (c :: text))

/-- `s/^[[:space:]]*\[//`. -/
def dropOpening (line : List Char) : List Char :=
  match line.dropWhile isSpace with
  | '[' :: rest => rest
  | _ => line

/-- `s/\][[:space:]]*$//`. -/
def dropClosing (line : List Char) : List Char :=
  match line.reverse.dropWhile isSpace with
  | ']' :: rest => rest.reverse
  | _ => line

/-- `},[[:space:]]*{` at the start of a text: what follows it. -/
def betweenHere : List Char → Option (List Char)
  | '}' :: ',' :: rest =>
    match rest.dropWhile isSpace with
    | '{' :: rest => some rest
    | _ => none
  | _ => none

lemma length_betweenHere {text rest : List Char} (h : betweenHere text = some rest) : rest.length < text.length := by
  unfold betweenHere at h
  split at h
  · next after =>
    split at h
    · next hdrop =>
      have hlength := List.length_dropWhile_le isSpace after
      rw [hdrop] at hlength
      cases h
      simp only [List.length_cons] at hlength ⊢
      omega
    · cases h
  · cases h

/-- `s/},[[:space:]]*{/}\n{/g`. -/
def splitObjects : List Char → List Char
  | [] => []
  | c :: text =>
    match _h : betweenHere (c :: text) with
    | some rest => '}' :: '\n' :: '{' :: splitObjects rest
    | none => c :: splitObjects text
termination_by text => text.length
decreasing_by
  · exact length_betweenHere _h
  · simp

/-- The lines of the action's loop; the loop passes over an empty one. -/
def objects (deps : List Char) : List (List Char) :=
  ((deps.splitOn '\n').flatMap fun line => (splitObjects (dropClosing (dropOpening line))).splitOn '\n').filter (· ≠ [])

/-- The lines of the CMake job's first script. -/
def objectLines (deps : List Char) : List (List Char) :=
  (deps.splitOn '\n').flatMap fun line => (splitObjects line).splitOn '\n'

/-! ### The part of a text that a value takes up -/

variable {N : Type} {readNumber : List Char → Option N}

lemma matchInt_split {t int r : List Char} (h : matchInt t = some (int, r)) : t = int ++ r ∧ '\x22' ∉ int := by
  unfold matchInt at h
  split at h
  · cases h
    exact ⟨rfl, by decide⟩
  · next t _ =>
    split at h
    · cases h
    · next d ds r' hdigits =>
      cases h
      obtain ⟨htake, hdrop⟩ := Prod.mk.inj hdigits
      constructor
      · rw [← htake, ← hdrop, List.takeWhile_append_dropWhile]
      · rw [← htake]
        intro hmem
        exact absurd (List.mem_takeWhile_imp hmem) (by decide)

lemma digits_split (t : List Char) : t = (digits t).1 ++ (digits t).2 ∧ '\x22' ∉ (digits t).1 := by
  constructor
  · exact (List.takeWhile_append_dropWhile).symm
  · intro hmem
    exact absurd (List.mem_takeWhile_imp hmem) (by decide)

lemma matchMinus_split (t : List Char) : t = (matchMinus t).1 ++ (matchMinus t).2 ∧ '\x22' ∉ (matchMinus t).1 := by
  have hminus : '\x22' ∉ ['-'] := by decide
  unfold matchMinus
  split
  · exact ⟨rfl, hminus⟩
  · exact ⟨rfl, List.not_mem_nil⟩

lemma matchSign_split (t : List Char) : t = (matchSign t).1 ++ (matchSign t).2 ∧ '\x22' ∉ (matchSign t).1 := by
  have hplus : '\x22' ∉ ['+'] := by decide
  have hminus : '\x22' ∉ ['-'] := by decide
  unfold matchSign
  split
  · exact ⟨rfl, hplus⟩
  · exact ⟨rfl, hminus⟩
  · exact ⟨rfl, List.not_mem_nil⟩

lemma matchFraction_split (t : List Char) :
    t = (matchFraction t).1 ++ (matchFraction t).2 ∧ '\x22' ∉ (matchFraction t).1 := by
  unfold matchFraction
  split
  · next r =>
    obtain ⟨hsplit, hquote⟩ := digits_split r
    split
    · exact ⟨rfl, List.not_mem_nil⟩
    · next hdigits =>
      rw [hdigits] at hsplit hquote
      exact ⟨congrArg ('.' :: ·) hsplit, List.not_mem_cons_of_ne_of_not_mem (by decide) hquote⟩
  · exact ⟨rfl, List.not_mem_nil⟩

lemma matchExponent_split (t : List Char) :
    t = (matchExponent t).1 ++ (matchExponent t).2 ∧ '\x22' ∉ (matchExponent t).1 := by
  cases t with
  | nil => exact ⟨rfl, List.not_mem_nil⟩
  | cons c r =>
    rw [matchExponent_cons]
    split
    · next hc =>
      obtain ⟨hsign, hquote⟩ := matchSign_split r
      obtain ⟨hdigits, hquote'⟩ := digits_split (matchSign r).2
      have hne : '\x22' ≠ c := by
        rintro rfl
        exact absurd hc.1 (by decide)
      constructor
      · rw [List.cons_append, List.cons_append, List.append_assoc, ← hdigits, ← hsign]
      · exact List.not_mem_append (List.not_mem_cons_of_ne_of_not_mem hne hquote) hquote'
    · exact ⟨rfl, List.not_mem_nil⟩

lemma matchNumber_split {t n r : List Char} (h : matchNumber t = some (n, r)) : t = n ++ r ∧ '\x22' ∉ n := by
  obtain ⟨⟨int, rest⟩, hint, hparts⟩ := Option.map_eq_some_iff.mp h
  obtain ⟨rfl, rfl⟩ := Prod.mk.inj hparts
  obtain ⟨hminus, hquote⟩ := matchMinus_split t
  obtain ⟨hint, hquote'⟩ := matchInt_split hint
  obtain ⟨hfraction, hquote''⟩ := matchFraction_split rest
  obtain ⟨hexponent, hquote'''⟩ := matchExponent_split (matchFraction rest).2
  constructor
  · simp only [List.append_assoc]
    rw [← hexponent, ← hfraction, ← hint, ← hminus]
  · exact List.not_mem_append (List.not_mem_append (List.not_mem_append hquote hquote') hquote'') hquote'''

/-- A number, `true`, `false` or `null`. -/
def Bare : Json N → Prop
  | .null | .bool _ | .number _ => True
  | .string _ | .array _ | .object _ => False

lemma matchWord_split {t r : List Char} {v : Json N} (h : matchWord readNumber t = some (v, r)) :
    ∃ c w, t = c :: w ++ r ∧ '\x22' ∉ c :: w ∧ isSpace c = false ∧ Bare v := by
  unfold matchWord at h
  split at h
  · cases h
    exact ⟨'n', ['u', 'l', 'l'], rfl, by decide, rfl, trivial⟩
  · cases h
    exact ⟨'t', ['r', 'u', 'e'], rfl, by decide, rfl, trivial⟩
  · cases h
    exact ⟨'f', ['a', 'l', 's', 'e'], rfl, by decide, rfl, trivial⟩
  · obtain ⟨n, -, hr⟩ := Option.map_eq_some_iff.mp h
    cases hr
    exact ⟨'N', ['a', 'N'], rfl, by decide, rfl, trivial⟩
  · obtain ⟨n, -, hr⟩ := Option.map_eq_some_iff.mp h
    cases hr
    exact ⟨'I', ['n', 'f', 'i', 'n', 'i', 't', 'y'], rfl, by decide, rfl, trivial⟩
  · obtain ⟨n, -, hr⟩ := Option.map_eq_some_iff.mp h
    cases hr
    exact ⟨'-', ['I', 'n', 'f', 'i', 'n', 'i', 't', 'y'], rfl, by decide, rfl, trivial⟩
  · cases h

lemma scanString_split {t r : List Char} {s : PyStr} (h : scanString t = some (s, r)) (hplain : '\\' ∉ t) :
    ∃ w, t = w ++ '\x22' :: r ∧ '\x22' ∉ w ∧ s = w.map ord := by
  refine scanString_induction (P := fun t s r => '\\' ∉ t → ∃ w, t = w ++ '\x22' :: r ∧ '\x22' ∉ w ∧ s = w.map ord)
    ?_ ?_ ?_ h hplain
  · exact fun t _ => ⟨[], rfl, List.not_mem_nil, rfl⟩
  · exact fun t c t' str r _ _ _ hplain => absurd List.mem_cons_self hplain
  · intro c t str r hquote _ _ ih hplain
    obtain ⟨w, rfl, hw, rfl⟩ := ih (fun hmem => hplain (List.mem_cons_of_mem _ hmem))
    exact ⟨c :: w, rfl, List.not_mem_cons_of_ne_of_not_mem (Ne.symm hquote) hw, rfl⟩

lemma not_mem_right {a : Char} {w r : List Char} (h : a ∉ w ++ r) : a ∉ r := fun hmem => h (List.mem_append_right w hmem)

lemma not_mem_tail {a c : Char} {t : List Char} (h : a ∉ c :: t) : a ∉ t := fun hmem => h (List.mem_cons_of_mem c hmem)

lemma isSpace_digit {d : Char} (hd : d.isDigit) : isSpace d = false := by
  simp only [Char.isDigit, Bool.and_eq_true, decide_eq_true_eq] at hd
  have h48 : 48 ≤ d.toNat := hd.1
  have hne : d ≠ ' ' := by
    rintro rfl
    exact absurd h48 (by decide)
  have hval : ¬d.val ≤ 13 := fun h => absurd (h48.trans (show d.toNat ≤ 13 from h)) (by decide)
  unfold isSpace
  simp [hne, hval]

lemma matchAtom_split {t r : List Char} {v : Json N} (h : matchAtom readNumber t = some (v, r)) (hplain : '\\' ∉ t) :
    (∃ w, t = '\x22' :: w ++ '\x22' :: r ∧ '\x22' ∉ w ∧ v = .string (w.map ord)) ∨
      ∃ c w, t = c :: w ++ r ∧ '\x22' ∉ c :: w ∧ isSpace c = false ∧ Bare v := by
  by_cases hquote : ∃ r, t = '\x22' :: r
  · obtain ⟨t, rfl⟩ := hquote
    rw [matchAtom_quote] at h
    obtain ⟨⟨s, r'⟩, hscan, hr⟩ := Option.map_eq_some_iff.mp h
    obtain ⟨rfl, rfl⟩ := Prod.mk.inj hr
    obtain ⟨w, rfl, hw, rfl⟩ := scanString_split hscan (not_mem_tail hplain)
    exact .inl ⟨w, rfl, hw, rfl⟩
  · right
    rw [matchAtom_other (not_exists.mp hquote)] at h
    rcases Option.or_eq_some_iff.mp h with hword | ⟨-, hnumber⟩
    · exact matchWord_split hword
    · obtain ⟨⟨n, r'⟩, hn, hread⟩ := Option.bind_eq_some_iff.mp hnumber
      obtain ⟨v', -, hr⟩ := Option.map_eq_some_iff.mp hread
      obtain ⟨rfl, rfl⟩ := Prod.mk.inj hr
      obtain ⟨hsplit, hquote⟩ := matchNumber_split hn
      have hlength := length_matchNumber hn
      cases n with
      | nil =>
        rw [hsplit] at hlength
        simp at hlength
      | cons c n =>
        refine ⟨c, n, hsplit, hquote, ?_, trivial⟩
        obtain ⟨d, rest, ht, hd⟩ | ⟨d, rest, ht, -⟩ := matchNumber_head hn
        · rw [hsplit] at ht
          rw [(List.cons.inj ht).1]
          exact isSpace_digit hd
        · rw [hsplit] at ht
          rw [(List.cons.inj ht).1]
          rfl

/-! ### Fields and quotes -/

/-- A key of letters. -/
def Word (key : List Char) : Prop := key.all Char.isAlpha = true

lemma Word.not_mem {key : List Char} (h : Word key) {c : Char} (hc : c.isAlpha = false) : c ∉ key := by
  intro hmem
  rw [List.all_eq_true.mp h c hmem] at hc
  cases hc

/-- What comes after a value. -/
def Stop (r : List Char) : Prop := Delimited (skipWs r)

def Blank (ws : List Char) : Prop := ∀ c ∈ ws, isWs c = true

lemma Blank.not_mem {ws : List Char} (h : Blank ws) {c : Char} (hc : isWs c = false) : c ∉ ws := by
  intro hmem
  rw [h c hmem] at hc
  cases hc

lemma split_skipWs (t : List Char) : ∃ ws, t = ws ++ skipWs t ∧ Blank ws :=
  ⟨t.takeWhile isWs, (List.takeWhile_append_dropWhile).symm, fun _ => List.mem_takeWhile_imp⟩

lemma skipWs_blank {ws : List Char} (h : Blank ws) {c : Char} (hc : isWs c = false) (r : List Char) :
    skipWs (ws ++ c :: r) = c :: r := by
  rw [skipWs, List.dropWhile_append_of_pos h, List.dropWhile_cons_of_neg (by simp [hc])]

lemma dropWhile_isSpace (t : List Char) : t.dropWhile isSpace = (skipWs t).dropWhile isSpace := by
  induction t with
  | nil => rfl
  | cons c t ih =>
    by_cases hc : isWs c
    · have hspace : isSpace c = true := by
        simp only [isWs, Bool.or_eq_true, decide_eq_true_eq] at hc
        rcases hc with ((rfl | rfl) | rfl) | rfl <;> decide
      rw [List.dropWhile_cons_of_pos hspace, ih, skipWs, skipWs, List.dropWhile_cons_of_pos hc]
    · rw [skipWs, List.dropWhile_cons_of_neg hc]

lemma dropWhile_of_skipWs {t r : List Char} {c : Char} (h : skipWs t = c :: r) (hc : isSpace c = false) :
    t.dropWhile isSpace = c :: r := by
  rw [dropWhile_isSpace, h, List.dropWhile_cons_of_neg (by simp [hc])]

section Prefixes

variable {key w : List Char}

lemma dropPrefix_key (rest : List Char) : (key ++ '\x22' :: rest).dropPrefix? (key ++ ['\x22']) = some rest :=
  List.dropPrefix?_eq_some_iff.mpr ⟨key ++ ['\x22'], by simp, BEq.rfl⟩

lemma dropPrefix_none {stop : Char} (hw : '\x22' ∉ w) (hstop : stop ∉ key) (hne : stop = '\x22' → w ≠ key)
    (rest : List Char) : (w ++ stop :: rest).dropPrefix? (key ++ ['\x22']) = none := by
  rw [Option.eq_none_iff_forall_ne_some]
  intro after hafter
  obtain ⟨start, htext, hstart⟩ := List.dropPrefix?_eq_some_iff.mp hafter
  rw [eq_of_beq hstart, List.append_assoc] at htext
  rcases List.append_eq_append_iff.mp htext with ⟨gap, hkey, hrest⟩ | ⟨gap, hbefore, hrest⟩
  · cases gap with
    | nil => exact hne (List.cons.inj hrest).1 (by rw [hkey, List.append_nil])
    | cons c gap =>
      rw [hkey, (List.cons.inj hrest).1] at hstop
      exact hstop (List.mem_append_right _ List.mem_cons_self)
  · cases gap with
    | nil => exact hne (List.cons.inj hrest).1.symm (by rw [hbefore, List.append_nil])
    | cons c gap =>
      rw [hbefore, ← (List.cons.inj hrest).1] at hw
      exact hw (List.mem_append_right _ List.mem_cons_self)

lemma dropPrefix_unquoted (hw : '\x22' ∉ w) : w.dropPrefix? (key ++ ['\x22']) = none := by
  rw [Option.eq_none_iff_forall_ne_some]
  intro after hafter
  obtain ⟨start, rfl, hstart⟩ := List.dropPrefix?_eq_some_iff.mp hafter
  rw [eq_of_beq hstart] at hw
  exact hw (List.mem_append_left _ (List.mem_append_right _ List.mem_cons_self))

end Prefixes

section Quotes

variable {key w : List Char}

lemma fieldHere_other {c : Char} (hc : c ≠ '\x22') (text : List Char) : fieldHere key (c :: text) = none := by
  have hprefix : (c :: text).dropPrefix? ('\x22' :: key ++ ['\x22']) = none := by simp [List.dropPrefix?, hc]
  rw [fieldHere, hprefix]

lemma fieldHere_quote (text : List Char) :
    ('\x22' :: text).dropPrefix? ('\x22' :: key ++ ['\x22']) = text.dropPrefix? (key ++ ['\x22']) := by
  simp [List.dropPrefix?]

/-- No field begins at a quote when something else than the key comes before the next one. -/
lemma fieldHere_cut {stop : Char} (hstop : stop ∉ key) (hquote : stop ≠ '\x22') (hw : '\x22' ∉ w)
    (rest : List Char) : fieldHere key ('\x22' :: (w ++ stop :: rest)) = none := by
  rw [fieldHere, fieldHere_quote, dropPrefix_none hw hstop (fun h => absurd h hquote)]

lemma fieldHere_unquoted (hw : '\x22' ∉ w) : fieldHere key ('\x22' :: w) = none := by
  rw [fieldHere, fieldHere_quote, dropPrefix_unquoted hw]

lemma fieldHere_stop (hkey : Word key) {r : List Char} (hr : Stop r) : fieldHere key ('\x22' :: r) = none := by
  obtain ⟨ws, hsplit, hblank⟩ := split_skipWs r
  have hquote := hblank.not_mem (c := '\x22') rfl
  cases hskip : skipWs r with
  | nil =>
    rw [hskip, List.append_nil] at hsplit
    rw [hsplit]
    exact fieldHere_unquoted hquote
  | cons c rest =>
    rw [hskip] at hsplit
    rw [hsplit]
    have hc := hr c (by rw [hskip]; rfl)
    refine fieldHere_cut (hkey.not_mem ?_) ?_ hquote rest
    · rcases hc with rfl | rfl | rfl <;> rfl
    · rcases hc with rfl | rfl | rfl <;> decide

lemma fieldHere_value (hkey : Word key) (hw : '\x22' ∉ w) {r : List Char} (hr : Stop r) :
    fieldHere key ('\x22' :: (w ++ '\x22' :: r)) = none := by
  by_cases hwkey : w = key
  · rw [fieldHere, fieldHere_quote, hwkey, dropPrefix_key]
    dsimp only
    rw [dropWhile_isSpace]
    cases hskip : skipWs r with
    | nil => rfl
    | cons c rest =>
      have hc := hr c (by rw [hskip]; rfl)
      rcases hc with rfl | rfl | rfl <;> rfl
  · rw [fieldHere, fieldHere_quote, dropPrefix_none hw (hkey.not_mem rfl) (fun _ => hwkey)]

lemma field_unquoted (hw : '\x22' ∉ w) (text : List Char) : field key (w ++ text) = field key text := by
  induction w with
  | nil => rfl
  | cons c w ih =>
    have hc : c ≠ '\x22' := fun h => hw (h ▸ List.mem_cons_self)
    rw [List.cons_append, field, fieldHere_other hc, ih (not_mem_tail hw), Option.or_none]

lemma field_quoted (hw : '\x22' ∉ w) (rest : List Char) :
    field key ('\x22' :: (w ++ '\x22' :: rest)) =
      ((field key rest).or (fieldHere key ('\x22' :: rest))).or (fieldHere key ('\x22' :: (w ++ '\x22' :: rest))) := by
  rw [field, field_unquoted hw, field]

end Quotes

/-! ### What the fields of a value are -/

/-- The text has no field, whatever comes after it. -/
def Quiet (w : List Char) : Prop := ∀ key, Word key → ∀ r, Stop r → field key (w ++ r) = field key r

lemma quiet_unquoted {w : List Char} (hw : '\x22' ∉ w) : Quiet w := fun _ _ r _ => field_unquoted hw r

lemma quiet_string {w : List Char} (hw : '\x22' ∉ w) : Quiet ('\x22' :: (w ++ ['\x22'])) := by
  intro key hkey r hr
  have htext : '\x22' :: (w ++ ['\x22']) ++ r = '\x22' :: (w ++ '\x22' :: r) := by simp
  rw [htext, field_quoted hw, fieldHere_stop hkey hr, fieldHere_value hkey hw hr, Option.or_none, Option.or_none]

def stringOf : Json N → Option PyStr
  | .string s => some s
  | _ => none

/-- The text of a value: a string in quotes, or something that begins otherwise. -/
def Shape (v : Json N) (w : List Char) : Prop :=
  (∃ s, w = '\x22' :: (s ++ ['\x22']) ∧ '\x22' ∉ s ∧ v = .string (s.map ord)) ∨
    ∃ c w', w = c :: w' ∧ c ≠ '\x22' ∧ isSpace c = false ∧ stringOf v = none

def Takes : Item N → List Char → Prop
  | .value v, w => Shape v w
  | .members _, w => '}' ∈ w
  | .elements _, _ => True

lemma stringOf_bare {v : Json N} (h : Bare v) : stringOf v = none := by
  cases v with
  | string => exact h.elim
  | _ => rfl

lemma stop_delimiter {r r' : List Char} {c : Char} (h : skipWs r = c :: r') (hc : c = ',' ∨ c = ']' ∨ c = '}') :
    Stop r := by
  intro c' hc'
  rw [h] at hc'
  cases hc'
  exact hc

lemma stop_blank {ws : List Char} (hws : Blank ws) {c : Char} (hc : c = ',' ∨ c = ']' ∨ c = '}') (r : List Char) :
    Stop (ws ++ c :: r) := by
  have hnot : isWs c = false := by rcases hc with rfl | rfl | rfl <;> rfl
  exact stop_delimiter (skipWs_blank hws hnot r) hc

lemma member_split {t r r₁ : List Char} {name : PyStr} (hname : scanString t = some (name, r))
    (hr : skipWs r = ':' :: r₁) (hplain : '\\' ∉ '\x22' :: t) :
    ∃ w, '\x22' :: t = w ++ skipWs r₁ ∧ '\\' ∉ skipWs r₁ := by
  obtain ⟨s, rfl, -, -⟩ := scanString_split hname (not_mem_tail hplain)
  obtain ⟨ws, hsplit, -⟩ := split_skipWs r
  obtain ⟨ws₁, hsplit₁, -⟩ := split_skipWs r₁
  rw [hr, hsplit₁] at hsplit
  have htext : '\x22' :: (s ++ '\x22' :: r) = '\x22' :: (s ++ '\x22' :: (ws ++ ':' :: ws₁)) ++ skipWs r₁ := by
    rw [hsplit]
    simp
  rw [htext] at hplain ⊢
  exact ⟨_, rfl, not_mem_right hplain⟩

/-- What an item takes up of a text; without a closing brace it has no field. -/
theorem takes_of_parses {t r : List Char} {item : Item N} (h : Parses readNumber t item r) (hplain : '\\' ∉ t) :
    ∃ w, t = w ++ r ∧ Takes item w ∧ ('}' ∈ w ∨ Quiet w) := by
  have hopen : '\x22' ∉ ['['] := by decide
  have hclose : '\x22' ∉ [']'] := by decide
  induction h with
  | atom h =>
    obtain ⟨s, rfl, hs, rfl⟩ | ⟨c, w, rfl, hw, hspace, hbare⟩ := matchAtom_split h hplain
    · exact ⟨'\x22' :: (s ++ ['\x22']), by simp, .inl ⟨s, rfl, hs, rfl⟩, .inr (quiet_string hs)⟩
    · have hne : c ≠ '\x22' := fun h => hw (h ▸ List.mem_cons_self)
      exact ⟨c :: w, rfl, .inr ⟨c, w, rfl, hne, hspace, stringOf_bare hbare⟩, .inr (quiet_unquoted hw)⟩
  | @emptyArray t r h =>
    obtain ⟨ws, hsplit, hblank⟩ := split_skipWs t
    rw [h] at hsplit
    have hquote : '\x22' ∉ '[' :: (ws ++ [']']) :=
      List.not_mem_append hopen (List.not_mem_append (hblank.not_mem rfl) hclose)
    exact ⟨'[' :: (ws ++ [']']), by simp [hsplit], .inr ⟨'[', _, rfl, by decide, rfl, rfl⟩,
      .inr (quiet_unquoted hquote)⟩
  | @array t items r h ih =>
    obtain ⟨ws, hsplit, hblank⟩ := split_skipWs t
    rw [hsplit] at hplain
    obtain ⟨w, hw, -, hquiet⟩ := ih (not_mem_right (not_mem_tail hplain))
    have hquote : '\x22' ∉ '[' :: ws := List.not_mem_append hopen (hblank.not_mem rfl)
    refine ⟨'[' :: (ws ++ w), by rw [hsplit, hw]; simp, .inr ⟨'[', _, rfl, by decide, rfl, rfl⟩, ?_⟩
    refine hquiet.imp (fun hmem => List.mem_cons_of_mem _ (List.mem_append_right _ hmem)) (fun hquiet key hkey s hs => ?_)
    have htext : '[' :: (ws ++ w) ++ s = ('[' :: ws) ++ (w ++ s) := by simp
    rw [htext, field_unquoted hquote, hquiet key hkey s hs]
  | @emptyObject t r h =>
    obtain ⟨ws, hsplit, -⟩ := split_skipWs t
    rw [h] at hsplit
    exact ⟨'{' :: (ws ++ ['}']), by simp [hsplit], .inr ⟨'{', _, rfl, by decide, rfl, rfl⟩, .inl (by simp)⟩
  | @object t items r h ih =>
    obtain ⟨ws, hsplit, -⟩ := split_skipWs t
    rw [hsplit] at hplain
    obtain ⟨w, hw, hmem, -⟩ := ih (not_mem_right (not_mem_tail hplain))
    exact ⟨'{' :: (ws ++ w), by rw [hsplit, hw]; simp, .inr ⟨'{', _, rfl, by decide, rfl, rfl⟩,
      .inl (List.mem_cons_of_mem _ (List.mem_append_right _ hmem))⟩
  | @lastElement t v r r₁ h hr ih =>
    obtain ⟨w, rfl, -, hquiet⟩ := ih hplain
    obtain ⟨ws, hsplit, hblank⟩ := split_skipWs r
    rw [hr] at hsplit
    refine ⟨w ++ (ws ++ [']']), by rw [hsplit]; simp, trivial, ?_⟩
    refine hquiet.imp (List.mem_append_left _) (fun hquiet key hkey s _ => ?_)
    have hquote : '\x22' ∉ ws ++ [']'] := List.not_mem_append (hblank.not_mem rfl) hclose
    have hstop : Stop (ws ++ [']'] ++ s) := by simpa using stop_blank hblank (.inr (.inl rfl)) s
    rw [List.append_assoc, hquiet key hkey _ hstop, field_unquoted hquote]
  | @nextElement t v r r₁ items r₂ h hr h' ih ih' =>
    obtain ⟨w, rfl, -, hquiet⟩ := ih hplain
    obtain ⟨ws, hsplit, hblank⟩ := split_skipWs r
    obtain ⟨ws₁, hsplit₁, hblank₁⟩ := split_skipWs r₁
    rw [hr] at hsplit
    have hplain' : '\\' ∉ skipWs r₁ := by
      rw [hsplit, hsplit₁] at hplain
      exact not_mem_right (not_mem_tail (not_mem_right (not_mem_right hplain)))
    obtain ⟨w₁, hw₁, -, hquiet₁⟩ := ih' hplain'
    refine ⟨w ++ (ws ++ ',' :: (ws₁ ++ w₁)), by rw [hsplit, hsplit₁, hw₁]; simp, trivial, ?_⟩
    rcases hquiet with hmem | hquiet
    · exact .inl (List.mem_append_left _ hmem)
    rcases hquiet₁ with hmem | hquiet₁
    · exact .inl (by simp [hmem])
    refine .inr (fun key hkey s hs => ?_)
    have hcomma : '\x22' ∉ [','] := by decide
    have hquote : '\x22' ∉ ws ++ ',' :: ws₁ :=
      List.not_mem_append (hblank.not_mem rfl) (List.not_mem_append hcomma (hblank₁.not_mem rfl))
    have htext : w ++ (ws ++ ',' :: (ws₁ ++ w₁)) ++ s = w ++ (ws ++ ',' :: (ws₁ ++ (w₁ ++ s))) := by simp
    have htext' : ws ++ ',' :: (ws₁ ++ (w₁ ++ s)) = (ws ++ ',' :: ws₁) ++ (w₁ ++ s) := by simp
    rw [htext, hquiet key hkey _ (stop_blank hblank (.inl rfl) _), htext', field_unquoted hquote, hquiet₁ key hkey s hs]
  | @lastMember t name r r₁ v r₂ r₃ hname hr h hr₂ ih =>
    obtain ⟨w, hmember, hplain'⟩ := member_split hname hr hplain
    obtain ⟨w₁, hw₁, -, -⟩ := ih hplain'
    obtain ⟨ws, hsplit, -⟩ := split_skipWs r₂
    rw [hr₂] at hsplit
    have htext : '\x22' :: t = (w ++ (w₁ ++ (ws ++ ['}']))) ++ r₃ := by
      rw [hmember, hw₁, hsplit]
      simp
    exact ⟨_, htext, by simp [Takes], .inl (by simp)⟩
  | @nextMember t name r r₁ v r₂ r₃ items r₄ hname hr h hr₂ h' ih ih' =>
    obtain ⟨w, hmember, hplain'⟩ := member_split hname hr hplain
    obtain ⟨w₁, hw₁, -, -⟩ := ih hplain'
    obtain ⟨ws, hsplit, -⟩ := split_skipWs r₂
    obtain ⟨ws₁, hsplit₁, -⟩ := split_skipWs r₃
    rw [hr₂] at hsplit
    have hplain₃ : '\\' ∉ skipWs r₃ := by
      rw [hw₁, hsplit, hsplit₁] at hplain'
      exact not_mem_right (not_mem_tail (not_mem_right (not_mem_right hplain')))
    obtain ⟨w₃, hw₃, hmem, -⟩ := ih' hplain₃
    have hmem : '}' ∈ w₃ := hmem
    have htext : '\x22' :: t = (w ++ (w₁ ++ (ws ++ ',' :: (ws₁ ++ w₃)))) ++ r₄ := by
      rw [hmember, hw₁, hsplit, hsplit₁, hw₃]
      simp
    exact ⟨_, htext, by simp [Takes, hmem], .inl (by simp [hmem])⟩

end SciForge.Tools.Deps
