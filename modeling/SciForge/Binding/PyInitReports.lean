import SciForge.Binding.Attempts

/-!
# What PyInit reports

Every step that fails leaves a Python error pending or throws, and the guards of `PyInit` turn each into a
null return with an error set. Two routes escape them: the terminator of the method table, pushed outside
the `try`, and an `error_already_set` thrown with no error set.
-/

namespace SciForge.Binding

variable {T F : Type}

/-- A step has failed exactly when an error is pending. -/
def ErrTracks (w : World T F) : Prop := w.failed = true ↔ w.pyErr.isSome = true

def Failed (w : World T F) : Prop := w.failed = true

/-- While it returns an error is pending exactly when a step failed, and it throws only on a failure. -/
def Reports {α : Type} (p : Import T F α) : Prop := Triple ErrTracks p (fun _ => ErrTracks) (fun _ => Failed)

/-! ### The steps -/

lemma setErr_reports {P : World T F → Prop} {R : CxxExn → World T F → Prop} (err : PyErr) :
    Triple P (setErr err) (fun _ w => ErrTracks w ∧ Failed w) R :=
  Triple.modify (fun _ _ => ⟨Iff.rfl, rfl⟩)

lemma throwCxx_reports {α : Type} {P : World T F → Prop} {Q : α → World T F → Prop} (exn : CxxExn) :
    Triple P (throwCxx exn) Q (fun _ => Failed) := by
  unfold throwCxx
  refine Triple.bind (M := fun _ => Failed) (Triple.modify (fun _ _ => rfl)) (fun _ => ?_)
  exact Triple.raise (fun _ h => h)

lemma consumerCode_reports (throws : Option Throw) : Reports (consumerCode throws : Import T F Unit) := by
  unfold consumerCode
  cases throws with
  | none => exact Triple.pure (fun _ h => h)
  | some t =>
    apply Triple.bind (M := fun _ _ => True) (Triple.modify (fun _ _ => trivial))
    intro _
    exact throwCxx_reports t.exn

/-- An update that leaves the error flags alone. -/
def SameErr (g : World T F → World T F) : Prop := ∀ w, (g w).failed = w.failed ∧ (g w).pyErr = w.pyErr

lemma ErrTracks.update {g : World T F → World T F} (hg : SameErr g) {w : World T F} (h : ErrTracks w) :
    ErrTracks (g w) := by
  unfold ErrTracks
  rw [(hg w).1, (hg w).2]
  exact h

lemma Failed.update {g : World T F → World T F} (hg : SameErr g) {w : World T F} (h : Failed w) : Failed (g w) :=
  (hg w).1.trans h

lemma grow_reports (fails : Bool) {g : World T F → World T F} (hg : SameErr g) : Reports (grow fails g) := by
  unfold grow Reports
  refine Triple.ite (fun _ => ?_) (fun _ => ?_)
  · exact throwCxx_reports .badAlloc
  · exact Triple.modify (fun _ h => h.update hg)

lemma fillKwSpec_reports [DecidableEq F] (f : F) (name : String) (env : KwEnv) (specs : ArgSpecs) :
    Reports (fillKwSpec f name env specs : Import T F Unit) := by
  intro w hw
  refine (fillKwSpec_spec w f name env specs).weaken (fun s hs => hs) ?_ ?_ w rfl
  · rintro _ s (⟨-, rfl⟩ | ⟨-, hfill⟩)
    · exact Iff.rfl
    · rw [hfill]
      cases hfails : someAllocFails env.arg specs.specs
      · rw [Bool.or_false]
        exact hw
      · rw [Bool.or_true]
        exact Iff.rfl
  · rintro e s ⟨-, -, k, err, -, -, rfl⟩
    rfl

/-! ### Chains -/

section Chains

variable [DecidableEq T]

lemma sameErr_setClass (t : T) (g : ClassStatics F → ClassStatics F) : SameErr (setClass t g) :=
  fun _ => ⟨rfl, rfl⟩

/-- The same for a part of a chain. -/
def ChainReports {α : Type} (p : Chain T F α) : Prop :=
  Triple (fun s => ErrTracks s.1) p (fun _ s => ErrTracks s.1) (fun _ s => Failed s.1)

omit [DecidableEq T] in
lemma Reports.lift {p : Import T F Unit} (h : Reports p) : ChainReports (Prog.lift p) :=
  Triple.lift (fun _ => h)

omit [DecidableEq T] in
lemma setBuilder_reports (g : Builder F → Builder F) : ChainReports (setBuilder g : Chain T F Unit) :=
  Triple.modify (fun _ h => h)

omit [DecidableEq T] in
lemma unlessCreated_reports (t : T) {p : World T F → Chain T F Unit} (h : ∀ w, ChainReports (p w)) :
    ChainReports (unlessCreated t p) := by
  unfold unlessCreated
  apply Triple.get
  intro s₀
  apply Triple.ite (fun _ => Triple.pure (fun _ h => h.2))
  intro _
  exact (h s₀.1).strengthen (fun _ h => h.2)

variable [DecidableEq F]

lemma runOp_reports (t : T) (env : OpEnv) (op : ClassOp F) : ChainReports (runOp t env op) := by
  unfold runOp
  apply Triple.bind (consumerCode_reports env.throws).lift
  intro _
  cases op with
  | defMethod f name doc =>
    exact unlessCreated_reports t (fun _ => (grow_reports _ (sameErr_setClass t _)).lift)
  | defPropRo f name doc =>
    exact unlessCreated_reports t (fun _ => (grow_reports _ (sameErr_setClass t _)).lift)
  | defRepr f => exact unlessCreated_reports t (fun _ => setBuilder_reports _)
  | defRichcompare f => exact unlessCreated_reports t (fun _ => setBuilder_reports _)
  | defHash f => exact unlessCreated_reports t (fun _ => setBuilder_reports _)
  | raw name f flags doc =>
    exact unlessCreated_reports t (fun _ => (grow_reports _ (sameErr_setClass t _)).lift)
  | initOnce => exact Triple.pure (fun _ h => h)
  | defInit f specs =>
    apply unlessCreated_reports t
    intro w
    exact Triple.bind (fillKwSpec_reports f _ env.kw specs).lift (fun _ => setBuilder_reports _)

lemma runChain_reports (t : T) (env : ℕ → OpEnv) (chain : List (ClassOp F)) :
    ChainReports (runChain t env chain) := by
  induction chain generalizing env with
  | nil => exact Triple.pure (fun _ h => h)
  | cons op rest ih => exact Triple.bind (runOp_reports t (env 0) op) (fun _ => ih _)

/-! ### The destructor -/

omit [DecidableEq F] in
lemma errTracks_stableFinish (t : T) : StableFinish t (ErrTracks : World T F → Prop) :=
  ⟨fun _ _ _ => Iff.rfl, fun _ g h => h.update (sameErr_setClass t g), fun _ _ _ h => h⟩

omit [DecidableEq F] in
lemma failed_stableFinish (t : T) : StableFinish t (Failed : World T F → Prop) :=
  ⟨fun _ _ _ => rfl, fun _ g h => h.update (sameErr_setClass t g), fun _ _ _ h => h⟩

lemma typeChain_reports (t : T) (qualifiedName : String) (chain : List (ClassOp F)) (op : ℕ → OpEnv)
    (last : FinishEnv) : Reports (typeChain t qualifiedName chain op last) := by
  have hctor : SameErr (classCtor t qualifiedName : World T F → World T F) := by
    intro w
    unfold classCtor
    split
    · exact ⟨rfl, rfl⟩
    · exact ⟨rfl, rfl⟩
  unfold typeChain
  apply Triple.bind (M := fun _ => ErrTracks) (Triple.modify (fun _ h => h.update hctor))
  intro _
  refine Triple.within (Triple.cleanup (Q := fun _ s => ErrTracks s.1) (R := fun _ s => Failed s.1) ?_ ?_ ?_)
  · exact (runChain_reports t op chain).strengthen (fun _ h => h.1)
  · exact fun _ _ hs => (errTracks_stableFinish t).finish_run last hs
  · exact fun _ _ hs => (failed_stableFinish t).finish_run last hs

end Chains

/-! ### The body -/

lemma pushTable_reports (spare : Option ℕ) (entry : MethodDef F) :
    Reports (pushTable spare entry : Import T F Unit) := by
  unfold pushTable
  apply Triple.get
  intro w
  cases w.table.pushBack entry w.nextId spare with
  | none => exact throwCxx_reports .badAlloc
  | some table => exact Triple.modify (fun _ h => h.2)

lemma runStmt_reports [DecidableEq T] [DecidableEq F] (env : StmtEnv) (stmt : Stmt T F) :
    Reports (runStmt env stmt) := by
  unfold runStmt
  apply Triple.bind (consumerCode_reports env.throws)
  intro _
  cases stmt with
  | defFunction f name doc => exact pushTable_reports _ _
  | defKw f name doc specs =>
    exact Triple.bind (fillKwSpec_reports f name env.kw specs) (fun _ => pushTable_reports _ _)
  | raw name f flags doc => exact pushTable_reports _ _
  | type t qualifiedName chain => exact typeChain_reports t qualifiedName chain env.op env.finish

/-- Registration: an error is pending at its end exactly when a step failed. -/
lemma register_reports [DecidableEq T] [DecidableEq F] (last : Option Throw) (env : ℕ → StmtEnv) (body : List (Stmt T F)) :
    Reports (register last env body) := by
  induction body generalizing env with
  | nil => exact consumerCode_reports last
  | cons stmt rest ih => exact Triple.bind (runStmt_reports (env 0) stmt) (fun _ => ih _)

/-! ### PyInit -/

/-- What `PyInit` promises: a module exactly when no step failed, else null with an error, and no exception. -/
def ReportsFailures (out : Except CxxExn (Option (Dict String (Attribute F))) × World T F) : Prop :=
  ∃ result, out.1 = .ok result ∧ (result.isSome ↔ out.2.failed = false) ∧
    (result = none → out.2.pyErr.isSome)

/-- The table has room for its terminator, or can grow. -/
def TerminatorFits (env : AttemptEnv) (s : World T F) : Prop :=
  s.table.pushBack .terminator s.nextId env.terminator ≠ none

lemma addFunctions_reports (fails : ℕ → Bool) (buffer index : ℕ) (entries : List (MethodDef F)) :
    Triple (fun w : World T F => ErrTracks w ∧ w.failed = false) (addFunctions fails buffer index entries)
      (fun added w => ErrTracks w ∧ (added = true ↔ w.failed = false)) (fun _ _ => False) := by
  induction entries generalizing index with
  | nil => exact Triple.pure (fun w h => ⟨h.1, iff_of_true rfl h.2⟩)
  | cons entry rest ih =>
    unfold addFunctions
    cases entry.mlName with
    | none => exact Triple.pure (fun w h => ⟨h.1, iff_of_true rfl h.2⟩)
    | some name =>
      refine Triple.ite (fun _ => ?_) (fun _ => ?_)
      · refine Triple.bind (setErr_reports .foreign) (fun _ => Triple.pure (fun w h => ⟨h.1, ?_⟩))
        apply iff_of_false Bool.false_ne_true
        rw [show w.failed = true from h.2]
        exact Bool.false_ne_true.symm
      · exact Triple.bind (M := fun _ w => ErrTracks w ∧ w.failed = false) (Triple.modify (fun w h => h))
          (fun _ => ih (index + 1))

/-- With no error pending, or room for the terminator, the end of `PyInit` reports its failures. -/
lemma addTable_reports (env : AttemptEnv) :
    Triple (fun s : World T F => ErrTracks s ∧ (s.pyErr = none → TerminatorFits env s)) (addTable env)
      (fun result s => (result.isSome ↔ s.failed = false) ∧ (result = none → s.pyErr.isSome))
      (fun _ _ => False) := by
  unfold addTable
  refine Triple.get (fun s₀ => Triple.ite (fun hpending => ?_) (fun hpending => ?_))
  · apply Triple.pure
    intro s hs
    obtain ⟨rfl, htracks, -⟩ := hs
    refine ⟨iff_of_false (by simp) ?_, fun _ => hpending⟩
    rw [htracks.mpr hpending]
    exact Bool.false_ne_true.symm
  · have hnone : s₀.pyErr = none := by simpa using hpending
    refine Triple.bind (M := fun _ s => ErrTracks s ∧ s.failed = false) ?_ (fun _ => ?_)
    · unfold pushTable
      refine Triple.get (fun s₁ => Triple.assume (c := s₁ = s₀ ∧ TerminatorFits env s₀) ?_ (fun hc => ?_))
      · rintro s ⟨rfl, rfl, -, hfits⟩
        exact ⟨rfl, hfits hnone⟩
      · obtain ⟨rfl, hfits⟩ := hc
        obtain ⟨table, htable⟩ := Option.ne_none_iff_exists'.mp hfits
        rw [htable]
        refine Triple.modify (fun s hs => ⟨hs.2.2.1, ?_⟩)
        obtain ⟨rfl, -, htracks, -⟩ := hs
        exact Bool.eq_false_iff.mpr (fun h => hpending (htracks.mp h))
    · apply Triple.get
      intro s₁
      refine Triple.bind (M := fun added w => ErrTracks w ∧ (added = true ↔ w.failed = false)) ?_ (fun added => ?_)
      · exact (addFunctions_reports _ _ _ _).strengthen (fun _ h => h.2)
      · refine Triple.get (fun s₂ => Triple.pure (fun s hs => ?_))
        obtain ⟨rfl, htracks, hadded⟩ := hs
        cases added with
        | true => exact ⟨iff_of_true rfl (hadded.mp rfl), fun h => by cases h⟩
        | false =>
          have hfailed : s.failed = true := by
            rw [← Bool.not_eq_false]
            exact fun h => Bool.false_ne_true (hadded.mpr h)
          refine ⟨iff_of_false (by simp) ?_, fun _ => htracks.mp hfailed⟩
          rw [hfailed]
          exact Bool.false_ne_true.symm

/-- With no error pending and no room for the terminator, `std::bad_alloc` leaves `PyInit`. -/
lemma addTable_escapes {env : AttemptEnv} {s : World T F} (hnone : s.pyErr = none) (h : ¬TerminatorFits env s) :
    (addTable env s).1 = .error .badAlloc := by
  have hpush : s.table.pushBack .terminator s.nextId env.terminator = none := by
    unfold TerminatorFits at h
    simpa using h
  have hthrow : pushTable env.terminator .terminator s = (.error .badAlloc, { s with failed := true }) := by
    unfold pushTable
    rw [Prog.run_get_bind, hpush]
    rfl
  unfold addTable
  rw [Prog.run_get_bind, if_neg (by simp [hnone]), Prog.run_bind_error hthrow]

lemma prepared_tracks (ext : Extension T F) (w : World T F) : ErrTracks (prepared ext w) :=
  iff_of_false Bool.false_ne_true Bool.false_ne_true

variable [DecidableEq T] [DecidableEq F]

/-- Registration stays clear of the two routes past the guards: when it ends with no error pending the
terminator fits, and no `error_already_set` leaves it with no error set. -/
def Guarded (ext : Extension T F) (env : AttemptEnv) (w : World T F) : Prop :=
  Outcome (fun _ s => s.pyErr = none → TerminatorFits env s)
    (fun e s => e = .errorAlreadySet → s.pyErr.isSome) (registration ext env w)

lemma thrown_reports_iff {ext : Extension T F} {env : AttemptEnv} {w s : World T F} {e : CxxExn}
    (henv : env.prepares = true) (hrun : registration ext env w = (.error e, s)) :
    ReportsFailures (importOnce ext env w) ↔ (e = .errorAlreadySet → s.pyErr.isSome) := by
  have hreports := register_reports env.throwsLast env.stmt ext.body (prepared ext w) (prepared_tracks ext w)
  have hkeys := registration_keys ext env w
  unfold registration at hrun hkeys
  rw [hrun] at hreports hkeys
  have hfailed : s.failed = true := hreports
  rw [importOnce_of_thrown henv hrun]
  unfold ReportsFailures
  constructor
  · rintro ⟨result, hresult, -, hnull⟩ rfl
    exact hnull (Except.ok.inj hresult).symm
  · intro h
    refine ⟨none, rfl, iff_of_false Bool.false_ne_true ?_, fun _ => ?_⟩
    · rw [hfailed]
      exact Bool.false_ne_true.symm
    · change (setCppError s.errorStorage e s.pyErr).isSome
      rw [hkeys.2]
      exact setCppError_isSome h

lemma registered_reports_iff {ext : Extension T F} {env : AttemptEnv} {w s : World T F}
    (henv : env.prepares = true) (hrun : registration ext env w = (.ok (), s)) :
    ReportsFailures (importOnce ext env w) ↔ (s.pyErr = none → TerminatorFits env s) := by
  have hreports := register_reports env.throwsLast env.stmt ext.body (prepared ext w) (prepared_tracks ext w)
  unfold registration at hrun
  rw [hrun] at hreports
  rw [importOnce_of_registered henv hrun]
  constructor
  · rintro ⟨result, hresult, -⟩ hnone
    by_contra hfits
    rw [addTable_escapes hnone hfits] at hresult
    cases hresult
  · intro hfits
    exact (addTable_reports env).returns ⟨hreports, hfits⟩

/-- `PyInit` reports every failure and lets none escape exactly when registration stays clear of the two
routes past its guards. -/
theorem importOnce_reports_iff (ext : Extension T F) (env : AttemptEnv) (w : World T F) :
    ReportsFailures (importOnce ext env w) ↔ (env.prepares = true → Guarded ext env w) := by
  by_cases henv : env.prepares = true
  · simp only [henv, true_imp_iff]
    unfold Guarded
    rcases hrun : registration ext env w with ⟨e | u, s⟩
    · exact thrown_reports_iff henv hrun
    · exact registered_reports_iff henv hrun
  · obtain ⟨hnull, hfailed, herr⟩ := importOnce_early ext w (Bool.eq_false_iff.mpr henv)
    refine iff_of_true ⟨none, hnull, iff_of_false Bool.false_ne_true ?_, fun _ => herr⟩ (fun h => absurd h henv)
    rw [hfailed]
    exact Bool.false_ne_true.symm

/-! ### The terminator -/

/-- Nothing throws and nothing fails but the growth of the method table for its terminator. -/
def terminatorEnv : AttemptEnv where
  createModule := false
  newException := false
  addError := false
  stmt _ := ⟨none, ⟨fun _ => ⟨false, false, false, false, false⟩, false, false, false⟩, some 0,
    fun _ => ⟨none, false, ⟨fun _ => ⟨false, false, false, false, false⟩, false, false, false⟩⟩,
    ⟨false, false, false, false⟩⟩
  throwsLast := none
  terminator := none
  addFunctions _ := false

def oneFunction : Extension Unit Unit := ⟨"demo.error", [.defFunction () "f" none]⟩

/-- A module of one function whose table cannot grow once more: `std::bad_alloc` leaves `PyInit`. -/
theorem importOnce_escapes :
    (importOnce oneFunction terminatorEnv .initial).1 = .error .badAlloc ∧
      ¬ReportsFailures (importOnce oneFunction terminatorEnv .initial) := by
  have hrun : (importOnce oneFunction terminatorEnv .initial).1 = .error .badAlloc := rfl
  refine ⟨hrun, ?_⟩
  rintro ⟨result, hresult, -⟩
  rw [hrun] at hresult
  cases hresult

end SciForge.Binding
