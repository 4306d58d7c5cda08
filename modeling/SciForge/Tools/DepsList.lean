import SciForge.Lib.Raising
import SciForge.Tools.DepsText
import Mathlib.Data.List.Infix

/-!
# The fields of every dependency

On a list of dependencies in one line, the sed scripts find one object for each that `json.loads` reads, and in it
the fields that `json.loads` gives it.
-/

namespace SciForge.Tools.Deps

open PinScan Json

variable {N : Type} {readNumber : List Char → Option N} {key : List Char}

/-! ### Members -/

lemma ord_injective : Function.Injective ord := by
  intro a b h
  have hval : (ord a).val = (ord b).val := by rw [h]
  exact Char.ext (UInt32.toNat_inj.mp hval)

/-- The last string among the members of that name. -/
def lastString (name : PyStr) : List (PyStr × Json N) → Option PyStr
  | [] => none
  | (k, v) :: items => (lastString name items).or (if k = name then stringOf v else none)

/-- The last value among the members of that name. -/
def lastValue (name : PyStr) : List (PyStr × Json N) → Option (Json N)
  | [] => none
  | (k, v) :: items => (lastValue name items).or (if k = name then some v else none)

lemma get_update_last (d : Dict PyStr (Json N)) (items : List (PyStr × Json N)) (name : PyStr) :
    (d.update items).get name = (lastValue name items).or (d.get name) := by
  induction items generalizing d with
  | nil => rfl
  | cons item items ih =>
    obtain ⟨k, v⟩ := item
    rw [Dict.update_cons, ih, lastValue, Option.or_assoc]
    by_cases hk : k = name
    · rw [if_pos hk, hk, Dict.get_set_self, Option.some_or]
    · rw [if_neg hk, Dict.get_set_of_ne _ hk, Option.none_or]

lemma lastString_eq {items : List (PyStr × Json N)} {name : PyStr}
    (h : ∀ v, lastValue name items = some v → ∃ s, v = .string s) :
    lastString name items = (lastValue name items).bind stringOf := by
  induction items with
  | nil => rfl
  | cons item items ih =>
    obtain ⟨k, v⟩ := item
    rw [lastString, lastValue]
    cases hrest : lastValue name items with
    | some last =>
      have hlast := ih (fun v hv => h v (by rw [lastValue, hv, Option.some_or]))
      obtain ⟨s, rfl⟩ := h last (by rw [lastValue, hrest, Option.some_or])
      rw [hlast, hrest]
      rfl
    | none =>
      have hlast := ih (fun v hv => absurd (hrest.symm.trans hv) (by simp))
      rw [hlast, hrest]
      by_cases hk : k = name
      · simp [hk]
      · simp [hk]

lemma fieldHere_member (hkey : Word key) {s w ws ws₁ : List Char} (hs : '\x22' ∉ s) {v : Json N} (hshape : Shape v w)
    (hws : Blank ws) (hws₁ : Blank ws₁) (r : List Char) :
    (fieldHere key ('\x22' :: (s ++ '\x22' :: (ws ++ ':' :: (ws₁ ++ (w ++ r)))))).map (List.map ord) =
      if s.map ord = key.map ord then stringOf v else none := by
  by_cases hname : s = key
  · have hcolon : (ws ++ ':' :: (ws₁ ++ (w ++ r))).dropWhile isSpace = ':' :: (ws₁ ++ (w ++ r)) :=
      dropWhile_of_skipWs (skipWs_blank hws rfl _) rfl
    rw [if_pos (by rw [hname]), fieldHere, fieldHere_quote, hname, dropPrefix_key]
    obtain ⟨x, rfl, hx, rfl⟩ | ⟨c, w', rfl, hc, hspace, hnone⟩ := hshape
    · have hvalue : (ws₁ ++ ('\x22' :: (x ++ ['\x22']) ++ r)).dropWhile isSpace = '\x22' :: (x ++ '\x22' :: r) := by
        refine dropWhile_of_skipWs ?_ rfl
        rw [List.cons_append, skipWs_blank hws₁ rfl]
        simp
      have hmem : '\x22' ∈ x ++ '\x22' :: r := by simp
      have htake : (x ++ '\x22' :: r).takeWhile (· ≠ '\x22') = x := by
        have hall : ∀ c ∈ x, decide (c ≠ '\x22') = true := fun c hc => decide_eq_true (fun h => hx (h ▸ hc))
        rw [List.takeWhile_append_of_pos hall]
        simp
      simp only [hcolon, hvalue, if_pos hmem, htake]
      rfl
    · have hblank : isWs c = false := by
        rw [Bool.eq_false_iff]
        intro hws
        have hdrop := dropWhile_isSpace [c]
        rw [List.dropWhile_cons_of_neg (by simp [hspace]), skipWs, List.dropWhile_cons_of_pos hws] at hdrop
        cases hdrop
      have hvalue : (ws₁ ++ (c :: w' ++ r)).dropWhile isSpace = c :: (w' ++ r) :=
        dropWhile_of_skipWs (skipWs_blank hws₁ hblank _) hspace
      simp only [hcolon, hvalue, hnone]
      split
      · next h => exact absurd (List.cons.inj h).1 hc
      · rfl
  · have hne : s.map ord ≠ key.map ord := fun h => hname (List.map_injective_iff.mpr ord_injective h)
    rw [if_neg hne, fieldHere, fieldHere_quote, dropPrefix_none hs (hkey.not_mem rfl) (fun _ => hname)]
    rfl

lemma field_member (hkey : Word key) {s w ws ws₁ : List Char} (hs : '\x22' ∉ s) {v : Json N} (hshape : Shape v w)
    (hquiet : Quiet w) (hws : Blank ws) (hws₁ : Blank ws₁) {r : List Char} (hr : Stop r) :
    (field key ('\x22' :: (s ++ '\x22' :: (ws ++ ':' :: (ws₁ ++ (w ++ r)))))).map (List.map ord) =
      ((field key r).map (List.map ord)).or (if s.map ord = key.map ord then stringOf v else none) := by
  have hcolon : '\x22' ∉ [':'] := by decide
  have hquote : '\x22' ∉ ws ++ ':' :: ws₁ :=
    List.not_mem_append (hws.not_mem rfl) (List.not_mem_append hcolon (hws₁.not_mem rfl))
  have htext : ws ++ ':' :: (ws₁ ++ (w ++ r)) = (ws ++ ':' :: ws₁) ++ (w ++ r) := by simp
  have hrest : field key (ws ++ ':' :: (ws₁ ++ (w ++ r))) = field key r := by
    rw [htext, field_unquoted hquote, hquiet key hkey r hr]
  have hcut : fieldHere key ('\x22' :: (ws ++ ':' :: (ws₁ ++ (w ++ r)))) = none :=
    fieldHere_cut (hkey.not_mem rfl) (by decide) (hws.not_mem rfl) _
  rw [field_quoted hs, hrest, hcut, Option.or_none, Option.map_or, fieldHere_member hkey hs hshape hws hws₁]

lemma member_reads {t r r₁ r₂ : List Char} {name : PyStr} {v : Json N} (hname : scanString t = some (name, r))
    (hr : skipWs r = ':' :: r₁) (h : Parses readNumber (skipWs r₁) (.value v) r₂) (hplain : '\\' ∉ '\x22' :: t) :
    ∃ m, '\x22' :: t = m ++ r₂ ∧ ('}' ∉ m → ∀ key, Word key → ∀ rest, Stop rest →
      (field key (m ++ rest)).map (List.map ord) =
        ((field key rest).map (List.map ord)).or (if name = key.map ord then stringOf v else none)) := by
  obtain ⟨-, -, hplain₁⟩ := member_split hname hr hplain
  obtain ⟨s, rfl, hs, rfl⟩ := scanString_split hname (not_mem_tail hplain)
  obtain ⟨ws, hsplit, hblank⟩ := split_skipWs r
  obtain ⟨ws₁, hsplit₁, hblank₁⟩ := split_skipWs r₁
  obtain ⟨w, hw, hshape, hquiet⟩ := takes_of_parses h hplain₁
  rw [hr, hsplit₁, hw] at hsplit
  refine ⟨'\x22' :: (s ++ '\x22' :: (ws ++ ':' :: (ws₁ ++ w))), by rw [hsplit]; simp, fun hnone key hkey rest hrest => ?_⟩
  have hquiet : Quiet w := hquiet.resolve_left (fun hmem => hnone (by simp [hmem]))
  have htext : '\x22' :: (s ++ '\x22' :: (ws ++ ':' :: (ws₁ ++ w))) ++ rest =
      '\x22' :: (s ++ '\x22' :: (ws ++ ':' :: (ws₁ ++ (w ++ rest)))) := by simp
  rw [htext, field_member hkey hs hshape hquiet hblank hblank₁ hrest]

/-- The fields of the members of an object: the last one of a name counts, for both readers. -/
lemma field_members {items : List (PyStr × Json N)} {t r : List Char} (h : Parses readNumber t (.members items) r)
    (hplain : '\\' ∉ t) : ∃ w, t = w ++ '}' :: r ∧ ('}' ∉ w → ∀ key, Word key → ∀ s,
      (field key (w ++ '}' :: s)).map (List.map ord) =
        ((field key s).map (List.map ord)).or (lastString (key.map ord) items)) := by
  have hbrace : '\x22' ∉ ['}'] := by decide
  have hcomma : '\x22' ∉ [','] := by decide
  induction items generalizing t with
  | nil => cases h
  | cons item items ih =>
    cases h with
    | @lastMember t name r₀ r₁ v r₂ r₃ hname hr h hr₂ =>
      obtain ⟨m, hmember, hfield⟩ := member_reads hname hr h hplain
      obtain ⟨ws, hsplit, hblank⟩ := split_skipWs r₂
      rw [hr₂] at hsplit
      refine ⟨m ++ ws, by rw [hmember, hsplit]; simp, fun hnone key hkey rest => ?_⟩
      have hnone' : '}' ∉ m := fun hmem => hnone (List.mem_append_left _ hmem)
      have hquote : '\x22' ∉ ws ++ ['}'] := List.not_mem_append (hblank.not_mem rfl) hbrace
      have htext : m ++ ws ++ '}' :: rest = m ++ ((ws ++ ['}']) ++ rest) := by simp
      have hstop : Stop ((ws ++ ['}']) ++ rest) := by simpa using stop_blank hblank (.inr (.inr rfl)) rest
      rw [htext, hfield hnone' key hkey _ hstop, field_unquoted hquote, lastString, lastString, Option.none_or]
    | @nextMember t name r₀ r₁ v r₂ r₃ _ _ hname hr h hr₂ h' =>
      obtain ⟨m, hmember, hfield⟩ := member_reads hname hr h hplain
      obtain ⟨ws, hsplit, hblank⟩ := split_skipWs r₂
      obtain ⟨ws₁, hsplit₁, hblank₁⟩ := split_skipWs r₃
      rw [hr₂] at hsplit
      have hplain₃ : '\\' ∉ skipWs r₃ := by
        rw [hmember, hsplit, hsplit₁] at hplain
        exact not_mem_right (not_mem_tail (not_mem_right (not_mem_right hplain)))
      obtain ⟨w, hw, hfields⟩ := ih h' hplain₃
      refine ⟨m ++ (ws ++ ',' :: (ws₁ ++ w)), by rw [hmember, hsplit, hsplit₁, hw]; simp, fun hnone key hkey rest => ?_⟩
      have hnone' : '}' ∉ m := fun hmem => hnone (List.mem_append_left _ hmem)
      have hnone₁ : '}' ∉ w := fun hmem => hnone (by simp [hmem])
      have hquote : '\x22' ∉ ws ++ ',' :: ws₁ :=
        List.not_mem_append (hblank.not_mem rfl) (List.not_mem_append hcomma (hblank₁.not_mem rfl))
      have htext : m ++ (ws ++ ',' :: (ws₁ ++ w)) ++ '}' :: rest =
          m ++ ((ws ++ ',' :: ws₁) ++ (w ++ '}' :: rest)) := by simp
      have hstop : Stop ((ws ++ ',' :: ws₁) ++ (w ++ '}' :: rest)) := by
        simpa using stop_blank hblank (.inl rfl) (ws₁ ++ (w ++ '}' :: rest))
      rw [htext, hfield hnone' key hkey _ hstop, field_unquoted hquote, hfields hnone₁ key hkey rest, lastString,
        Option.or_assoc]

/-! ### Objects -/

/-- The object has a string under the key, or nothing. -/
def TextAt (key : List Char) (d : Dict PyStr (Json N)) : Prop := ∀ v, d.get (key.map ord) = some v → ∃ s, v = .string s

/-- The scripts find in the line what json finds in the object. -/
structure Reads (line : List Char) (d : Dict PyStr (Json N)) : Prop where
  nonempty : line ≠ []
  field_eq : ∀ key, Word key → TextAt key d →
    (field key line).map (List.map ord) = (d.get (key.map ord)).bind stringOf

lemma reads_object {d : Dict PyStr (Json N)} {t r : List Char} (h : Parses readNumber t (.value (.object d)) r)
    (hplain : '\\' ∉ t) : ∃ x, t = '{' :: (x ++ '}' :: r) ∧ ('}' ∉ x → ∀ before after, '\x22' ∉ before →
      '\x22' ∉ after → Reads (before ++ '{' :: (x ++ '}' :: after)) d) := by
  have hopen : '\x22' ∉ ['{'] := by decide
  have hbrace : '\x22' ∉ ['}'] := by decide
  have hempty : ∀ {after}, '\x22' ∉ after → ∀ key, field key after = none := by
    intro after hafter key
    have htext : field key (after ++ []) = none := field_unquoted hafter []
    rwa [List.append_nil] at htext
  generalize hitem : Item.value (Json.object d) = item at h
  cases h with
  | @atom t v r h =>
    cases hitem
    obtain ⟨s, -, -, hv⟩ | ⟨c, w, -, -, -, hbare⟩ := matchAtom_split h hplain
    · cases hv
    · exact hbare.elim
  | @emptyObject t r h =>
    cases hitem
    obtain ⟨ws, hsplit, hblank⟩ := split_skipWs t
    rw [h] at hsplit
    refine ⟨ws, by rw [hsplit], fun _ before after hbefore hafter => ⟨by simp, fun key hkey _ => ?_⟩⟩
    have hquote : '\x22' ∉ before ++ '{' :: (ws ++ '}' :: after) :=
      List.not_mem_append hbefore (List.not_mem_append hopen
        (List.not_mem_append (hblank.not_mem rfl) (List.not_mem_append hbrace hafter)))
    rw [hempty hquote]
    rfl
  | @object t items r h =>
    cases hitem
    obtain ⟨ws, hsplit, hblank⟩ := split_skipWs t
    rw [hsplit] at hplain
    obtain ⟨w, hw, hfields⟩ := field_members h (not_mem_right (not_mem_tail hplain))
    refine ⟨ws ++ w, by rw [hsplit, hw]; simp, fun hnone before after hbefore hafter => ⟨by simp, fun key hkey htext => ?_⟩⟩
    have hquote : '\x22' ∉ before ++ '{' :: ws :=
      List.not_mem_append hbefore (List.not_mem_append hopen (hblank.not_mem rfl))
    have hsame : before ++ '{' :: (ws ++ w ++ '}' :: after) = (before ++ '{' :: ws) ++ (w ++ '}' :: after) := by simp
    have hget : (Dict.update [] items).get (key.map ord) = lastValue (key.map ord) items := by
      rw [get_update_last]
      exact Option.or_none
    rw [TextAt, hget] at htext
    rw [hsame, field_unquoted hquote, hfields (fun hmem => hnone (List.mem_append_right _ hmem)) key hkey, hempty hafter,
      lastString_eq htext, hget]
    rfl
  | _ => cases hitem

/-! ### Lines -/

lemma betweenHere_other {c : Char} (hc : c ≠ '}') (text : List Char) : betweenHere (c :: text) = none := by
  unfold betweenHere
  split
  · next h => exact absurd (List.cons.inj h).1 hc
  · rfl

lemma splitObjects_none {c : Char} {text : List Char} (h : betweenHere (c :: text) = none) :
    splitObjects (c :: text) = c :: splitObjects text := by
  rw [splitObjects]
  split
  · next h' => cases h.symm.trans h'
  · rfl

lemma splitObjects_plain {w : List Char} (hw : '}' ∉ w) (text : List Char) :
    splitObjects (w ++ text) = w ++ splitObjects text := by
  induction w with
  | nil => rfl
  | cons c w ih =>
    have hc : c ≠ '}' := fun h => hw (h ▸ List.mem_cons_self)
    rw [List.cons_append, splitObjects_none (betweenHere_other hc _), ih (not_mem_tail hw), List.cons_append]

lemma splitObjects_between {ws : List Char} (hws : Blank ws) (text : List Char) :
    splitObjects ('}' :: ',' :: (ws ++ '{' :: text)) = '}' :: '\n' :: '{' :: splitObjects text := by
  have hopen : (ws ++ '{' :: text).dropWhile isSpace = '{' :: text := dropWhile_of_skipWs (skipWs_blank hws rfl _) rfl
  have hbetween : betweenHere ('}' :: ',' :: (ws ++ '{' :: text)) = some text := by
    rw [betweenHere, hopen]
    rfl
  rw [splitObjects]
  split
  · next h => rw [Option.some.inj (hbetween.symm.trans h)]
  · next h => cases hbetween.symm.trans h

lemma splitObjects_last {text : List Char} (h : text.head? ≠ some ',') :
    splitObjects ('}' :: text) = '}' :: splitObjects text := by
  refine splitObjects_none ?_
  unfold betweenHere
  split
  · next htext =>
    rw [(List.cons.inj htext).2] at h
    exact absurd rfl h
  · rfl

/-- The text has no blank between a closing brace and a comma. -/
def Tight (t : List Char) : Prop :=
  ∀ s ∈ t.tails, s.head? = some '}' → (skipWs s.tail).head? = some ',' → s.tail.head? = some ','

lemma Tight.right {w t : List Char} (h : Tight (w ++ t)) : Tight t := fun s hs =>
  h s ((List.mem_tails _ _).mpr (((List.mem_tails _ _).mp hs).trans (List.suffix_append w t)))

lemma count_objects {ds : List (Dict PyStr (Json N))} {t r : List Char}
    (h : Parses readNumber t (.elements (ds.map .object)) r) (hplain : '\\' ∉ t) :
    ds.length + r.count '}' ≤ t.count '}' := by
  induction ds generalizing t with
  | nil =>
    generalize hitems : ([] : List (Dict PyStr (Json N))).map Json.object = items at h
    cases h with
    | lastElement => cases hitems
    | nextElement => cases hitems
  | cons d ds ih =>
    generalize hitems : (d :: ds).map Json.object = items at h
    cases h with
    | @lastElement t v r₀ r h hr =>
      obtain ⟨rfl, hnil⟩ := List.cons.inj hitems
      obtain rfl := List.map_eq_nil_iff.mp hnil
      obtain ⟨x, rfl, -⟩ := reads_object h hplain
      obtain ⟨ws, hsplit, -⟩ := split_skipWs r₀
      rw [hr] at hsplit
      rw [hsplit]
      simp only [List.count_cons, List.count_append, List.length_cons, List.length_nil]
      simp
      omega
    | @nextElement t v r₀ r₁ _ r h hr h' =>
      obtain ⟨rfl, rfl⟩ := List.cons.inj hitems
      obtain ⟨x, rfl, -⟩ := reads_object h hplain
      obtain ⟨ws, hsplit, -⟩ := split_skipWs r₀
      obtain ⟨ws₁, hsplit₁, -⟩ := split_skipWs r₁
      rw [hr] at hsplit
      have hplain' : '\\' ∉ skipWs r₁ := by
        rw [hsplit, hsplit₁] at hplain
        exact not_mem_right (not_mem_tail (not_mem_right (not_mem_tail (not_mem_right (not_mem_tail hplain)))))
      have hrest := ih h' hplain'
      rw [hsplit, hsplit₁]
      simp only [List.count_cons, List.count_append, List.length_cons]
      simp
      omega

/-- The elements of the list, between any texts without quotes, braces or line ends, become one line each. -/
lemma lines_elements {ds : List (Dict PyStr (Json N))} {t r : List Char}
    (h : Parses readNumber t (.elements (ds.map .object)) r) (hplain : '\\' ∉ t) (hline : '\n' ∉ t) (htight : Tight t)
    (hcount : t.count '}' = ds.length + r.count '}') :
    ∃ body, t = '{' :: (body ++ ']' :: r) ∧ ∀ before after, '\x22' ∉ before → '}' ∉ before → '\n' ∉ before →
      '\x22' ∉ after → '}' ∉ after → '\n' ∉ after → after.head? ≠ some ',' →
      List.Forall₂ Reads ((splitObjects (before ++ '{' :: (body ++ after))).splitOn '\n') ds := by
  have hopen : '}' ∉ ['{'] := by decide
  have hopen' : '\n' ∉ ['{'] := by decide
  induction ds generalizing t with
  | nil =>
    generalize hitems : ([] : List (Dict PyStr (Json N))).map Json.object = items at h
    cases h with
    | lastElement => cases hitems
    | nextElement => cases hitems
  | cons d ds ih =>
    generalize hitems : (d :: ds).map Json.object = items at h
    cases h with
    | @lastElement t v r₀ r h hr =>
      obtain ⟨rfl, hnil⟩ := List.cons.inj hitems
      obtain rfl := List.map_eq_nil_iff.mp hnil
      obtain ⟨x, rfl, hreads⟩ := reads_object h hplain
      obtain ⟨ws, hsplit, hblank⟩ := split_skipWs r₀
      rw [hr] at hsplit
      have hx : x.count '}' = 0 := by
        rw [hsplit] at hcount
        simp only [List.count_cons, List.count_append, List.length_cons, List.length_nil] at hcount
        simp at hcount
        omega
      have hx : '}' ∉ x := List.count_eq_zero.mp hx
      have hlinex : '\n' ∉ x := fun hmem => hline (by simp [hmem])
      have hlinews : '\n' ∉ ws := fun hmem => hline (by simp [hsplit, hmem])
      refine ⟨x ++ '}' :: ws, by rw [hsplit]; simp, ?_⟩
      intro before after hquote hbrace hend hquote' hbrace' hend' hcomma
      have htext : before ++ '{' :: (x ++ '}' :: ws ++ after) = before ++ '{' :: (x ++ '}' :: (ws ++ after)) := by simp
      have hstart : '}' ∉ before ++ '{' :: x := List.not_mem_append hbrace (List.not_mem_append hopen hx)
      have hafter : '}' ∉ ws ++ after := List.not_mem_append (hblank.not_mem rfl) hbrace'
      have hhead : (ws ++ after).head? ≠ some ',' := by
        cases ws with
        | nil => exact hcomma
        | cons c ws =>
          intro h
          exact hblank.not_mem (c := ',') rfl (by rw [← Option.some.inj h]; exact List.mem_cons_self)
      have hsame : splitObjects (before ++ '{' :: (x ++ '}' :: (ws ++ after))) =
          before ++ '{' :: (x ++ '}' :: (ws ++ after)) := by
        have hassoc : before ++ '{' :: (x ++ '}' :: (ws ++ after)) = (before ++ '{' :: x) ++ '}' :: (ws ++ after) := by
          simp
        have hend : splitObjects (ws ++ after) = ws ++ after := by
          have h := splitObjects_plain hafter []
          rwa [List.append_nil, splitObjects, List.append_nil] at h
        rw [hassoc, splitObjects_plain hstart, splitObjects_last hhead, hend]
      have hsingle : '\n' ∉ before ++ '{' :: (x ++ '}' :: (ws ++ after)) := by
        simp [hend, hlinex, hlinews, hend']
      rw [htext, hsame, List.splitOn_eq_singleton hsingle]
      refine .cons (hreads hx before (ws ++ after) hquote ?_) .nil
      exact List.not_mem_append (hblank.not_mem rfl) hquote'
    | @nextElement t v r₀ r₁ _ r h hr h' =>
      obtain ⟨rfl, rfl⟩ := List.cons.inj hitems
      obtain ⟨x, rfl, hreads⟩ := reads_object h hplain
      have hcomma : r₀ = ',' :: r₁ := by
        have hsuffix : '}' :: r₀ ∈ ('{' :: (x ++ '}' :: r₀)).tails := (List.mem_tails _ _).mpr ⟨'{' :: x, rfl⟩
        have hhead := htight _ hsuffix rfl (by rw [List.tail_cons, hr]; rfl)
        rw [List.tail_cons] at hhead
        cases r₀ with
        | nil => cases hhead
        | cons c rest =>
          obtain rfl := Option.some.inj hhead
          rw [skipWs, List.dropWhile_cons_of_neg (by decide)] at hr
          exact hr
      obtain ⟨ws, hsplit, hblank⟩ := split_skipWs r₁
      rw [hcomma, hsplit] at hplain hline htight hcount ⊢
      have htext : ∀ rest, '{' :: (x ++ '}' :: ',' :: (ws ++ rest)) = ('{' :: x ++ '}' :: ',' :: ws) ++ rest := by simp
      have hplain' : '\\' ∉ skipWs r₁ := not_mem_right (htext _ ▸ hplain)
      have hline' : '\n' ∉ skipWs r₁ := not_mem_right (htext _ ▸ hline)
      have htight' : Tight (skipWs r₁) := Tight.right (htext _ ▸ htight)
      have hleast := count_objects h' hplain'
      simp only [List.count_cons, List.count_append, List.length_cons] at hcount
      have hws : ws.count '}' = 0 := List.count_eq_zero.mpr (hblank.not_mem rfl)
      simp only [hws] at hcount
      simp at hcount
      obtain ⟨body, hbody, hlines⟩ := ih h' hplain' hline' htight' (by omega)
      have hx : '}' ∉ x := List.count_eq_zero.mp (by omega)
      have hlinex : '\n' ∉ x := fun hmem => hline (by simp [hmem])
      refine ⟨x ++ '}' :: ',' :: (ws ++ '{' :: body), by rw [hbody]; simp, ?_⟩
      intro before after hquote hbrace hend hquote' hbrace' hend' hcomma
      have hstart : '}' ∉ before ++ '{' :: x := List.not_mem_append hbrace (List.not_mem_append hopen hx)
      have hbefore : before ++ '{' :: (x ++ '}' :: ',' :: (ws ++ '{' :: body) ++ after) =
          (before ++ '{' :: x) ++ '}' :: ',' :: (ws ++ '{' :: (body ++ after)) := by simp
      have hrest : '{' :: splitObjects (body ++ after) = splitObjects ([] ++ '{' :: (body ++ after)) := by
        rw [List.nil_append, splitObjects_none (betweenHere_other (by decide) _)]
      have hfirst : (before ++ '{' :: x) ++ '}' :: '\n' :: splitObjects ([] ++ '{' :: (body ++ after)) =
          (before ++ '{' :: (x ++ '}' :: [])) ++ '\n' :: splitObjects ([] ++ '{' :: (body ++ after)) := by simp
      have hend : '\n' ∉ before ++ '{' :: (x ++ '}' :: []) := by simp [hend, hlinex]
      rw [hbefore, splitObjects_plain hstart, splitObjects_between hblank, hrest, hfirst,
        List.splitOn_append_cons_self_of_not_mem hend]
      refine .cons (hreads hx before [] hquote List.not_mem_nil) ?_
      exact hlines [] after List.not_mem_nil List.not_mem_nil List.not_mem_nil hquote' hbrace' hend' hcomma

/-! ### Lists -/

/-- A list of objects in one line, without escapes, whose only closing braces are those of its objects. -/
structure Listed (readNumber : List Char → Option N) (t : List Char) (ds : List (Dict PyStr (Json N))) : Prop where
  load : loads readNumber t = some (.array (ds.map .object))
  nonempty : ds ≠ []
  plain : '\\' ∉ t
  line : '\n' ∉ t
  tight : Tight t
  braces : t.count '}' = ds.length

lemma dropOpening_bracket {ws : List Char} (hws : Blank ws) (t : List Char) : dropOpening (ws ++ '[' :: t) = t := by
  have hopen : (ws ++ '[' :: t).dropWhile isSpace = '[' :: t := dropWhile_of_skipWs (skipWs_blank hws rfl _) rfl
  unfold dropOpening
  rw [hopen]
  rfl

lemma dropClosing_bracket {ws : List Char} (hws : Blank ws) (t : List Char) : dropClosing (t ++ ']' :: ws) = t := by
  have hreverse : (t ++ ']' :: ws).reverse = ws.reverse ++ ']' :: t.reverse := by simp
  have hblank : Blank ws.reverse := fun c hc => hws c (List.mem_reverse.mp hc)
  have hclose : (ws.reverse ++ ']' :: t.reverse).dropWhile isSpace = ']' :: t.reverse :=
    dropWhile_of_skipWs (skipWs_blank hblank rfl _) rfl
  unfold dropClosing
  rw [hreverse, hclose]
  exact List.reverse_reverse t

lemma Listed.split {t : List Char} {ds : List (Dict PyStr (Json N))} (h : Listed readNumber t ds) :
    ∃ ws t₁ r, Blank ws ∧ Blank r ∧ t = ws ++ '[' :: t₁ ∧ Parses readNumber (skipWs t₁) (.elements (ds.map .object)) r := by
  obtain ⟨r, hparses, hr⟩ := loads_iff.mp h.load
  obtain ⟨ws, hsplit, hblank⟩ := split_skipWs t
  obtain ⟨ws', hsplit', hblank'⟩ := split_skipWs r
  rw [hr, List.append_nil] at hsplit'
  have hplain : '\\' ∉ skipWs t := not_mem_right (hsplit ▸ h.plain)
  generalize skipWs t = t' at hparses hsplit hplain
  generalize hitem : Item.value (Json.array (ds.map Json.object)) = item at hparses
  cases hparses with
  | @atom _ v _ hatom =>
    cases hitem
    obtain ⟨s, -, -, hv⟩ | ⟨c, w, -, -, -, hbare⟩ := matchAtom_split hatom hplain
    · cases hv
    · exact hbare.elim
  | emptyArray =>
    injection hitem with hitem
    injection hitem with hitem
    exact absurd (List.map_eq_nil_iff.mp hitem) h.nonempty
  | @array t₁ items r harray =>
    injection hitem with hitem
    injection hitem with hitem
    rw [← hitem] at harray
    exact ⟨ws, t₁, r, hblank, hsplit' ▸ hblank', hsplit, harray⟩
  | _ => cases hitem

/-- Both scripts make a line of each object, whose fields are those that json finds in it. -/
theorem Listed.reads {t : List Char} {ds : List (Dict PyStr (Json N))} (h : Listed readNumber t ds) :
    List.Forall₂ Reads (objects t) ds ∧ List.Forall₂ Reads (objectLines t) ds := by
  obtain ⟨ws, t₁, r, hblank, hblank', rfl, hparses⟩ := h.split
  obtain ⟨ws₁, hsplit, hblank₁⟩ := split_skipWs t₁
  have htext : ws ++ '[' :: t₁ = (ws ++ '[' :: ws₁) ++ skipWs t₁ := by
    rw [List.append_assoc, List.cons_append, ← hsplit]
  have hbracket : '}' ∉ ws ++ '[' :: ws₁ := by
    have hopen : '}' ∉ ['['] := by decide
    exact List.not_mem_append (hblank.not_mem rfl) (List.not_mem_append hopen (hblank₁.not_mem rfl))
  have hquote : '\x22' ∉ ws ++ '[' :: ws₁ := by
    have hopen : '\x22' ∉ ['['] := by decide
    exact List.not_mem_append (hblank.not_mem rfl) (List.not_mem_append hopen (hblank₁.not_mem rfl))
  have hcount : (skipWs t₁).count '}' = ds.length + r.count '}' := by
    have hbraces := h.braces
    rw [htext, List.count_append, List.count_eq_zero.mpr hbracket] at hbraces
    rw [List.count_eq_zero.mpr (hblank'.not_mem rfl), Nat.add_zero, ← hbraces, Nat.zero_add]
  have hplain := h.plain
  have hline := h.line
  have htight := h.tight
  rw [htext] at hplain hline htight
  obtain ⟨body, hbody, hlines⟩ :=
    lines_elements hparses (not_mem_right hplain) (not_mem_right hline) htight.right hcount
  have hlinews : '\n' ∉ ws ++ '[' :: ws₁ := fun hmem => hline (List.mem_append_left _ hmem)
  have hlinews₁ : '\n' ∉ ws₁ := fun hmem => hlinews (by simp [hmem])
  have hliner : '\n' ∉ ']' :: r := by
    intro hmem
    have hrest := not_mem_right hline
    rw [hbody] at hrest
    exact hrest (List.mem_cons_of_mem _ (List.mem_append_right _ hmem))
  have hsingle : (ws ++ '[' :: t₁).splitOn '\n' = [ws ++ '[' :: t₁] := List.splitOn_eq_singleton h.line
  constructor
  · have hedit : dropClosing (dropOpening (ws ++ '[' :: t₁)) = ws₁ ++ '{' :: (body ++ []) := by
      have hassoc : ws₁ ++ '{' :: (body ++ ']' :: r) = (ws₁ ++ '{' :: body) ++ ']' :: r := by simp
      rw [dropOpening_bracket hblank, hsplit, hbody, hassoc, dropClosing_bracket hblank', List.append_nil]
    have hall := hlines ws₁ [] (hblank₁.not_mem rfl) (hblank₁.not_mem rfl) hlinews₁ List.not_mem_nil List.not_mem_nil
      List.not_mem_nil (by simp)
    have hkept : ∀ line ∈ (splitObjects (ws₁ ++ '{' :: (body ++ []))).splitOn '\n', decide (line ≠ []) = true := by
      intro line hmem
      obtain ⟨d, -, hreads⟩ := forall₂_mem_left hall hmem
      exact decide_eq_true hreads.nonempty
    unfold objects
    rw [hsingle, List.flatMap_singleton, hedit, List.filter_eq_self.mpr hkept]
    exact hall
  · have hbraces' : '}' ∉ ']' :: r := by
      have hclose : '}' ∉ [']'] := by decide
      exact List.not_mem_append hclose (hblank'.not_mem rfl)
    have hquote' : '\x22' ∉ ']' :: r := by
      have hclose : '\x22' ∉ [']'] := by decide
      exact List.not_mem_append hclose (hblank'.not_mem rfl)
    unfold objectLines
    rw [hsingle, List.flatMap_singleton, htext, hbody]
    exact hlines _ _ hquote hbracket hlinews hquote' hbraces' hliner (by simp)

end SciForge.Tools.Deps
