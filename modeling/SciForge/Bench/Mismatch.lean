import SciForge.Bench.Exact

/-!
# Wrong answers in the verdict

A case whose gate failed, added anywhere to a list of cases.
-/

namespace SciForge.Bench

variable {F W α β ρ : Type}

/-- The case a failed gate gives. -/
def mismatchCase (label : String) (fields : Fields F) : Case F :=
  ⟨label, "s", [], .none, Dict.update [("reference_samples", .list []), ("ratios", .list []), ("mismatch", .bool true)]
    fields.items⟩

/-- The call of both callables and of `equal`. -/
def gate (subject : Prog W String α) (reference : Prog W String β) (equal : α → β → Prog W String Bool) :
    Prog W String Bool := do
  let subjectResult ← subject
  let referenceResult ← reference
  equal subjectResult referenceResult

lemma compare_of_mismatch (A : Arithmetic F) (timing : Timing W F) (label : String) {subject : Prog W String α}
    {reference : Prog W String β} {equal : α → β → Prog W String Bool} (samples : ℕ) (fields : Fields F) {w w' : W}
    (hgate : gate subject reference equal w = (.ok false, w')) :
    compare A timing label subject reference equal samples fields w = (.ok (mismatchCase label fields), w') := by
  unfold gate at hgate
  unfold compare
  rcases hsubject : subject w with ⟨e | a, w₁⟩
  · rw [Prog.run_bind_error hsubject] at hgate
    cases hgate
  · rw [Prog.run_bind_ok hsubject] at hgate ⊢
    rcases hreference : reference w₁ with ⟨e | b, w₂⟩
    · rw [Prog.run_bind_error hreference] at hgate
      cases hgate
    · rw [Prog.run_bind_ok hreference] at hgate ⊢
      rw [Prog.run_bind_ok hgate]
      rfl

/-! ### What the verdict reads of it -/

lemma flagged_mismatchCase (A : Arithmetic F) (label : String) (fields : Fields F) :
    flagged A "mismatch" (mismatchCase label fields) = true ↔
      ∀ value, fields.items.get "mismatch" = some value → truthy A value = true := by
  unfold flagged mismatchCase
  rw [Dict.get_update fields.nodup]
  cases fields.items.get "mismatch" with
  | none => simp [Dict.get, truthy]
  | some value => simp

lemma defaultKey_mismatchCase (A : Arithmetic F) (label : String) {fields : Fields F}
    (hkey : fields.items.get "key" = none) : defaultKey A (mismatchCase label fields) = true := by
  unfold defaultKey mismatchCase
  rw [Dict.get_update fields.nodup, hkey]
  rfl

variable {A : Arithmetic F} {key : Case F → Bool} {case : Case F}

lemma mismatchedNames_insert (hkey : key case = true) (hflag : flagged A "mismatch" case = true)
    (before after : List (Case F)) :
    mismatchedNames A key (before ++ case :: after) =
      mismatchedNames A key before ++ case.name :: mismatchedNames A key after := by
  unfold mismatchedNames
  simp [hkey, hflag]

lemma ratioGroups_insert (hflag : flagged A "mismatch" case = true) (before after : List (Case F)) :
    ratioGroups A key (before ++ case :: after) = ratioGroups A key (before ++ after) := by
  unfold ratioGroups
  by_cases hkey : key case = true
  · simp [hkey, hflag]
  · simp [hkey]

/-! ### Never a win -/

/-- What a verdict with the case says, beside the one without it: raised alike, the case listed, the verdict failed,
the speed unchanged. -/
structure NeverAWin (A : Arithmetic F) (fmt : Format F) (rng : Rng ρ) (case : Case F) (before after : List (Case F))
    (subjectLabel : String) (bootstrap : ℕ) (margin : F) (s : ρ) : Prop where
  raises : ∀ e, verdict A fmt rng (before ++ after) none subjectLabel bootstrap margin s = .error e →
    verdict A fmt rng (before ++ case :: after) none subjectLabel bootstrap margin s = .error e
  counted : ∀ without, verdict A fmt rng (before ++ after) none subjectLabel bootstrap margin s = .ok without →
    ∃ v, verdict A fmt rng (before ++ case :: after) none subjectLabel bootstrap margin s = .ok v ∧
      v.passed = false ∧
      v.mismatched = mismatchedNames A (defaultKey A) before ++ case.name :: mismatchedNames A (defaultKey A) after ∧
      v.geomean = without.geomean ∧ v.ciLow = without.ciLow ∧ v.ciHigh = without.ciHigh ∧
      v.classification = without.classification

lemma neverAWin_of_flagged (fmt : Format F) (rng : Rng ρ) (hkey : defaultKey A case = true)
    (hflag : flagged A "mismatch" case = true) (before after : List (Case F)) (subjectLabel : String)
    (bootstrap : ℕ) (margin : F) (s : ρ) :
    NeverAWin A fmt rng case before after subjectLabel bootstrap margin s := by
  constructor
  · intro e he
    unfold verdict at he ⊢
    dsimp only [Option.getD_none] at he ⊢
    rw [ratioGroups_insert hflag]
    cases hspeed : speedOf A fmt rng (ratioGroups A (defaultKey A) (before ++ after)) subjectLabel bootstrap margin s with
    | error e' =>
      rw [hspeed] at he
      exact he
    | ok speed =>
      rw [hspeed] at he
      cases he
  · intro without hwithout
    unfold verdict at hwithout ⊢
    dsimp only [Option.getD_none] at hwithout ⊢
    rw [ratioGroups_insert hflag, mismatchedNames_insert hkey hflag]
    obtain ⟨speed, hspeed, rfl⟩ := map_eq_ok.mp hwithout
    rw [hspeed]
    refine ⟨_, rfl, ?_, rfl, rfl, rfl, rfl, rfl⟩
    simp

lemma flagged_of_neverAWin (fmt : Format F) (rng : Rng ρ) {subjectLabel : String} {bootstrap : ℕ} {margin : F} {s : ρ}
    (h : NeverAWin A fmt rng case [] [] subjectLabel bootstrap margin s) : flagged A "mismatch" case = true := by
  obtain ⟨v, hv, -, hmismatched, -⟩ := h.counted _ rfl
  unfold verdict at hv
  obtain ⟨speed, -, rfl⟩ := map_eq_ok.mp hv
  by_contra hflag
  have hnames : mismatchedNames A (defaultKey A) [case] = [] := by
    unfold mismatchedNames
    cases hkey : defaultKey A case with
    | true => simp [hkey, hflag]
    | false => simp [hkey]
  have hlength := congrArg List.length hmismatched
  change (mismatchedNames A (defaultKey A) [case]).length = _ at hlength
  rw [hnames] at hlength
  cases hlength

/-- A mismatch is never a win, in whatever list of cases, exactly when the caller's fields do not hold a false
`mismatch`. -/
theorem compare_never_a_win_iff (A : Arithmetic F) (fmt : Format F) (rng : Rng ρ) (timing : Timing W F)
    (label : String) (subject : Prog W String α) (reference : Prog W String β)
    (equal : α → β → Prog W String Bool) (samples : ℕ) (fields : Fields F) (w w' : W)
    (hgate : gate subject reference equal w = (.ok false, w')) (hkey : fields.items.get "key" = none)
    (subjectLabel : String) (bootstrap : ℕ) (margin : F) (s : ρ) :
    ∃ case, compare A timing label subject reference equal samples fields w = (.ok case, w') ∧ case.name = label ∧
      ((∀ before after, NeverAWin A fmt rng case before after subjectLabel bootstrap margin s) ↔
        ∀ value, fields.items.get "mismatch" = some value → truthy A value = true) := by
  apply Exists.intro (mismatchCase label fields)
  refine ⟨compare_of_mismatch A timing label samples fields hgate, rfl, ?_⟩
  rw [← flagged_mismatchCase A label fields]
  constructor
  · intro h
    exact flagged_of_neverAWin fmt rng (h [] [])
  · intro hflag before after
    exact neverAWin_of_flagged fmt rng (defaultKey_mismatchCase A label hkey) hflag before after _ _ _ _

/-! ### A caller's own `mismatch` -/

def stillClock : Timing Unit ℝ where
  calibrate _ := pure 1
  batchTime _ _ := pure 1
  gcEnabled _ := true
  gcSwitch _ w := w

def firstDraw : Rng Unit where
  randrange _ _ h := (⟨0, h⟩, ())

def blankFormat : Format ℝ := ⟨fun _ => "", fun _ => ""⟩

def oneField (name : String) (value : Value ℝ) : Fields ℝ := ⟨[(name, value)], List.nodup_singleton name⟩

/-- The call of `test_compare.py`: 1 against 2, compared by equality. -/
noncomputable def badCompare (fields : Fields ℝ) : Prog Unit String (Case ℝ) :=
  compare realArithmetic stillClock "bad" (pure 1) (pure 2) (fun a b => pure (decide ((a : ℕ) = b))) 4 fields

/-- `compare("bad", .., mismatch=False)`: the wrong answer passes the verdict and is not listed. -/
theorem own_mismatch_passes :
    gate (pure 1) (pure 2) (fun a b => pure (decide ((a : ℕ) = b))) () = (.ok false, ()) ∧
      ∃ case v, badCompare (oneField "mismatch" (.bool false)) () = (.ok case, ()) ∧
        verdict realArithmetic blankFormat firstDraw [case] none "subject" 1000 0 () = .ok v ∧
        v.passed = true ∧ v.mismatched = [] :=
  ⟨rfl, _, _, rfl, rfl, rfl, rfl⟩

/-- Another field leaves the mismatch alone. -/
theorem other_field_never_wins :
    ∃ case, badCompare (oneField "family" (.str "x")) () = (.ok case, ()) ∧
      ∀ before after, NeverAWin realArithmetic blankFormat firstDraw case before after "subject" 1000 0 () := by
  obtain ⟨case, hcase, -, hiff⟩ := compare_never_a_win_iff realArithmetic blankFormat firstDraw stillClock "bad"
    (pure 1) (pure 2) (fun a b => pure (decide ((a : ℕ) = b))) 4 (oneField "family" (.str "x")) () () rfl rfl
    "subject" 1000 0 ()
  apply Exists.intro case
  apply And.intro hcase
  apply hiff.mpr
  intro value hvalue
  cases hvalue

end SciForge.Bench
