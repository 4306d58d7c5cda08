import SciForge.Tools.Release
import SciForge.Lib.Machine
import SciForge.Lib.Sections

/-!
# Calendar versions

How `release.sh` numbers the releases of a month: the patch is the count of the month's tags so far.
-/

namespace SciForge.Tools.Release

/-! ### Decimal texts -/

lemma toString_injective : Function.Injective (fun n : ℕ => (toString n).toList) := by
  intro n m h
  have hdigits : Nat.toDigits 10 n = Nat.toDigits 10 m := by
    simpa only [Nat.toString_eq_repr, Nat.toList_repr] using h
  rw [← Nat.ofDigitChars_ten_toDigits (n := n), hdigits, Nat.ofDigitChars_ten_toDigits]

lemma dot_not_mem_toString (n : ℕ) : '.' ∉ (toString n).toList := by
  rw [Nat.toString_eq_repr, Nat.toList_repr]
  intro h
  have hdigit := Nat.isDigit_of_mem_toDigits (by decide) (by decide) h
  revert hdigit
  decide

/-! ### The tags of a month -/

/-- `$year.$month`. -/
def monthText (year month : ℕ) : String := toString year ++ "." ++ toString month

/-- What `v$year.$month.*` begins with. -/
def monthStart (year month : ℕ) : String := "v" ++ monthText year month ++ "."

/-- `git tag -l "v$year.$month.*"`. -/
def monthTags (tags : List String) (year month : ℕ) : List String := tags.filter (hasPrefix · (monthStart year month))

/-- `v$year.$month.$patch`. -/
def tagOf (year month patch : ℕ) : String := monthStart year month ++ toString patch

lemma versionTag_eq {B C : Type} (s : Script B C) (year month : ℕ) :
    s.versionTag (monthText year month) = tagOf year month (monthTags s.tags.keys year month).length := rfl

lemma toList_monthStart (year month : ℕ) :
    (monthStart year month).toList = 'v' :: ((toString year).toList ++ '.' :: ((toString month).toList ++ ['.'])) := by
  simp only [monthStart, monthText, String.toList_append, List.append_assoc]
  rfl

lemma toList_tagOf (year month patch : ℕ) : (tagOf year month patch).toList =
    'v' :: ((toString year).toList ++ '.' :: ((toString month).toList ++ '.' :: (toString patch).toList)) := by
  simp only [tagOf, String.toList_append, toList_monthStart, List.append_assoc, List.cons_append, List.nil_append]

lemma hasPrefix_tagOf (year month patch year' month' : ℕ) :
    hasPrefix (tagOf year month patch) (monthStart year' month') = true ↔ year' = year ∧ month' = month := by
  unfold hasPrefix
  rw [List.isPrefixOf_iff_prefix, toList_tagOf, toList_monthStart]
  constructor
  · rintro ⟨rest, h⟩
    simp only [List.cons_append, List.append_assoc, List.nil_append] at h
    obtain ⟨hyear, hrest⟩ := append_sep_inj (dot_not_mem_toString _) (dot_not_mem_toString _) (List.cons.inj h).2
    obtain ⟨hmonth, -⟩ := append_sep_inj (dot_not_mem_toString _) (dot_not_mem_toString _) hrest
    exact ⟨toString_injective hyear, toString_injective hmonth⟩
  · rintro ⟨rfl, rfl⟩
    exact ⟨(toString patch).toList, by simp only [List.cons_append, List.append_assoc, List.nil_append]⟩

lemma tagOf_injective (year month : ℕ) : Function.Injective (tagOf year month) := by
  intro patch patch' h
  have hlist := congrArg String.toList h
  unfold tagOf at hlist
  rw [String.toList_append, String.toList_append] at hlist
  exact toString_injective (List.append_cancel_left hlist)

/-! ### Releases one after the other -/

/-- A release of the month with its extra tags, or a tag that appears otherwise. -/
inductive TagEvent
  | release (year month : ℕ) (extra : List String)
  | elsewhere (name : String)

/-- The tagging loop: it stops at the first tag that exists. -/
def makeTags (tags : List String) : List String → List String
  | [] => tags
  | name :: rest => if name ∈ tags then tags else makeTags (tags ++ [name]) rest

/-- The tags after the event, `none` when the script refuses a tag that exists. -/
def tagStep (tags : List String) : TagEvent → Option (List String)
  | .release year month extra =>
    let tag := tagOf year month (monthTags tags year month).length
    if tag ∈ tags ∨ ∃ name ∈ extra, name ∈ tags then none else some (makeTags tags (tag :: extra))
  | .elsewhere name => some (makeTags tags [name])

/-- No release of any month has a tag of that name. -/
def Foreign (name : String) : Prop := ∀ year month, hasPrefix name (monthStart year month) = false

/-- The tags that are not a release's own version are foreign. -/
def TagEvent.Plain : TagEvent → Prop
  | .release _ _ extra => ∀ name ∈ extra, Foreign name
  | .elsewhere name => Foreign name

/-- The releases of the month among the events. -/
def releasesOf (year month : ℕ) (events : List TagEvent) : ℕ :=
  events.countP fun
    | .release year' month' _ => year' = year ∧ month' = month
    | .elsewhere _ => false

/-- The tags of the month are those of the patches below `n`, in order. -/
def Numbered (tags : List String) (n : ℕ → ℕ → ℕ) : Prop :=
  ∀ year month, monthTags tags year month = (List.range (n year month)).map (tagOf year month)

lemma monthTags_makeTags {names : List String} (hforeign : ∀ name ∈ names, Foreign name) (tags : List String)
    (year month : ℕ) : monthTags (makeTags tags names) year month = monthTags tags year month := by
  induction names generalizing tags with
  | nil => rfl
  | cons name rest ih =>
    unfold makeTags
    split
    · rfl
    · rw [ih (fun n hn => hforeign n (List.mem_cons_of_mem _ hn))]
      unfold monthTags
      rw [List.filter_append, List.filter_cons_of_neg (by rw [hforeign name List.mem_cons_self]; exact nofun),
        List.filter_nil, List.append_nil]

lemma tagOf_not_mem {tags : List String} {n : ℕ → ℕ → ℕ} (h : Numbered tags n) (year month : ℕ) :
    tagOf year month (monthTags tags year month).length ∉ tags := by
  intro hmem
  have hmonth : tagOf year month (monthTags tags year month).length ∈ monthTags tags year month :=
    List.mem_filter.mpr ⟨hmem, (hasPrefix_tagOf _ _ _ _ _).mpr ⟨rfl, rfl⟩⟩
  rw [h year month, List.length_map, List.length_range] at hmonth
  obtain ⟨patch, hpatch, hsame⟩ := List.mem_map.mp hmonth
  have hlt := List.mem_range.mp hpatch
  rw [tagOf_injective year month hsame] at hlt
  exact Nat.lt_irrefl _ hlt

lemma numbered_step {tags tags' : List String} {n : ℕ → ℕ → ℕ} {e : TagEvent} (h : Numbered tags n) (hplain : e.Plain)
    (hstep : tagStep tags e = some tags') :
    Numbered tags' (fun year month => n year month + releasesOf year month [e]) := by
  intro year month
  cases e with
  | elsewhere name =>
    obtain rfl := Option.some.inj hstep
    have hforeign : ∀ name' ∈ [name], Foreign name' := fun _ hn => List.mem_singleton.mp hn ▸ hplain
    rw [monthTags_makeTags hforeign]
    exact h year month
  | release year' month' extra =>
    unfold tagStep at hstep
    dsimp only at hstep
    split at hstep
    · cases hstep
    · obtain rfl := Option.some.inj hstep
      unfold makeTags
      rw [if_neg (tagOf_not_mem h year' month'), monthTags_makeTags hplain]
      have hlength : (monthTags tags year' month').length = n year' month' := by
        rw [h year' month', List.length_map, List.length_range]
      have hnext : monthTags (tags ++ [tagOf year' month' (monthTags tags year' month').length]) year month =
          monthTags tags year month ++
            [tagOf year' month' (n year' month')].filter (hasPrefix · (monthStart year month)) := by
        rw [hlength]
        exact List.filter_append _ _
      rw [hnext, h year month]
      by_cases hsame : year = year' ∧ month = month'
      · obtain ⟨rfl, rfl⟩ := hsame
        have hkept := (hasPrefix_tagOf year month (n year month) year month).mpr ⟨rfl, rfl⟩
        rw [List.filter_cons_of_pos (p := (hasPrefix · (monthStart year month))) hkept]
        simp [releasesOf, List.range_succ]
      · rw [List.filter_cons_of_neg (p := (hasPrefix · (monthStart year month)))
          (fun hprefix => hsame ((hasPrefix_tagOf _ _ _ _ _).mp hprefix))]
        have hother : releasesOf year month [.release year' month' extra] = 0 := by
          simp only [releasesOf, List.countP_singleton, ite_eq_right_iff, decide_eq_true_eq]
          exact fun hsame' => absurd ⟨hsame'.1.symm, hsame'.2.symm⟩ hsame
        dsimp only
        rw [hother, List.filter_nil, List.append_nil, Nat.add_zero]

lemma releasesOf_cons (year month : ℕ) (e : TagEvent) (rest : List TagEvent) :
    releasesOf year month (e :: rest) = releasesOf year month [e] + releasesOf year month rest := by
  unfold releasesOf
  rw [← List.countP_append]
  rfl

lemma numbered_run {tags tags' : List String} {n : ℕ → ℕ → ℕ} {events : List TagEvent} (h : Numbered tags n)
    (hplain : ∀ e ∈ events, e.Plain) (hrun : Machine.run tagStep tags events = some tags') :
    Numbered tags' (fun year month => n year month + releasesOf year month events) := by
  induction events generalizing tags n with
  | nil =>
    obtain rfl := Option.some.inj hrun
    exact h
  | cons e rest ih =>
    obtain ⟨tags₁, hstep, hrest⟩ := Option.bind_eq_some_iff.mp hrun
    have hlater := ih (numbered_step h (hplain e List.mem_cons_self) hstep)
      (fun e' he' => hplain e' (List.mem_cons_of_mem _ he')) hrest
    intro year month
    rw [hlater year month]
    dsimp only
    rw [releasesOf_cons year month e rest, Nat.add_assoc]

/-! ### The script's commands -/

/-- The loop of the script makes those tags. -/
lemma tagging_run {B C : Type} [DecidableEq C] (cfg : Settings) (objects : Objects B C) {o : Outcome B}
    (hok : o.ok = true) {names : List String} {s : Script B C} (hat : s.pc = .tagging names) :
    ∃ count s', Machine.run (Script.step cfg objects) s (List.replicate count (.command o)) = some s' ∧
      s'.tags.keys = makeTags s.tags.keys names ∧ (s'.pc = .push ∨ s'.pc = .exiting 1) := by
  induction names generalizing s with
  | nil =>
    refine ⟨1, { s with pc := .push }, ?_, rfl, .inl rfl⟩
    have hstep : s.step cfg objects (.command o) = some { s with pc := .push } := by
      unfold Script.step Script.command
      simp only [hat]
    exact Machine.run_cons hstep []
  | cons tag rest ih =>
    have hstep : s.step cfg objects (.command o) =
        if (s.tags.get tag).isNone then some { s with tags := s.tags.set tag s.repo.head, pc := .tagging rest }
        else some { s with pc := .exiting 1 } := by
      unfold Script.step Script.command
      simp only [hat, hok, Bool.true_and]
    unfold makeTags
    cases hget : s.tags.get tag with
    | none =>
      have hnew : tag ∉ s.tags.keys := Dict.get_eq_none.mp hget
      rw [hget, Option.isNone_none, if_pos rfl] at hstep
      obtain ⟨count, s', hrun, hkeys, hpc⟩ :=
        ih (s := { s with tags := s.tags.set tag s.repo.head, pc := .tagging rest }) rfl
      refine ⟨count + 1, s', (Machine.run_cons hstep _).trans hrun, ?_, hpc⟩
      rw [hkeys, if_neg hnew, Dict.set_of_not_mem hnew]
      simp only [Dict.keys, List.map_append, List.map_cons, List.map_nil]
    | some c =>
      have hthere : tag ∈ s.tags.keys := List.mem_map.mpr ⟨(tag, c), Dict.mem_of_get hget, rfl⟩
      rw [hget, Option.isNone_some, if_neg Bool.false_ne_true] at hstep
      exact ⟨1, _, Machine.run_cons hstep [], (if_pos hthere).symm, .inr rfl⟩

/-- Over any releases and other tags, the patches of each month are 0, 1, 2 and on, and the version a script takes
next is one that no tag has. -/
theorem patches_numbered {tags tags' : List String} {n : ℕ → ℕ → ℕ} {events : List TagEvent} (h : Numbered tags n)
    (hplain : ∀ e ∈ events, e.Plain) (hrun : Machine.run tagStep tags events = some tags') :
    Numbered tags' (fun year month => n year month + releasesOf year month events) ∧
      ∀ (B C : Type) (s : Script B C), s.tags.keys = tags' → ∀ year month,
        s.versionTag (monthText year month) = tagOf year month (n year month + releasesOf year month events) ∧
          s.tags.get (s.versionTag (monthText year month)) = none := by
  have hnumbered := numbered_run h hplain hrun
  refine ⟨hnumbered, fun B C s hkeys year month => ⟨?_, ?_⟩⟩
  · rw [versionTag_eq, hkeys, hnumbered year month, List.length_map, List.length_range]
  · rw [versionTag_eq, Dict.get_eq_none, hkeys]
    exact tagOf_not_mem hnumbered year month

/-- Two releases of July and one of August, with a tag of another kind. -/
def summer : List TagEvent := [.release 2026 7 ["tools"], .release 2026 8 [], .elsewhere "nightly", .release 2026 7 []]

theorem patches_numbered_summer :
    Machine.run tagStep [] summer = some ["v2026.7.0", "tools", "v2026.8.0", "nightly", "v2026.7.1"] ∧
      Numbered ["v2026.7.0", "tools", "v2026.8.0", "nightly", "v2026.7.1"]
        (fun year month => 0 + releasesOf year month summer) := by
  have hforeign : ∀ name : String, name.toList.head? ≠ some 'v' → Foreign name := by
    intro name hname year month
    rw [Bool.eq_false_iff]
    unfold hasPrefix
    rw [Ne, List.isPrefixOf_iff_prefix, toList_monthStart]
    rintro ⟨rest, hrest⟩
    rw [← hrest] at hname
    exact hname rfl
  have hplain : ∀ e ∈ summer, e.Plain := by
    simp only [summer, List.forall_mem_cons, TagEvent.Plain, List.not_mem_nil, false_imp_iff, implies_true, and_true,
      true_and]
    exact ⟨hforeign "tools" (by decide), hforeign "nightly" (by decide)⟩
  have hrun : Machine.run tagStep [] summer = some ["v2026.7.0", "tools", "v2026.8.0", "nightly", "v2026.7.1"] := by
    decide
  exact ⟨hrun, (patches_numbered (n := fun _ _ => 0) (fun _ _ => rfl) hplain hrun).1⟩

end SciForge.Tools.Release
