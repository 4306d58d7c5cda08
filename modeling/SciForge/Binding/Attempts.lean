import SciForge.Binding.Frames

/-!
# An import attempt, stage by stage

`PyInit` prepares the module and its error type, runs the registration, and ends with the method table.
-/

namespace SciForge.Binding

variable {T F : Type}

/-- The state in which registration starts. -/
def prepared (ext : Extension T F) (w : World T F) : World T F :=
  { w.start with
    module := Dict.set [] (attrName ext.errorname) (.exception w.nextId)
    errorStorage := some w.nextId
    nextId := w.nextId + 1
    table := w.table.clear
    epoch := nextEpoch w.epoch }

/-- The attempt gets past the module and its error type. -/
def AttemptEnv.prepares (env : AttemptEnv) : Bool := !env.createModule && !env.newException && !env.addError

section

variable [DecidableEq T] [DecidableEq F] (ext : Extension T F) (env : AttemptEnv) (w : World T F)

def registration : Except CxxExn Unit × World T F := register env.throwsLast env.stmt ext.body (prepared ext w)

variable {ext env w}

variable (ext env w) in
lemma registration_keys :
    Outcome (fun _ s => s.epoch = nextEpoch w.epoch ∧ s.errorStorage = some w.nextId)
      (fun _ s => s.epoch = nextEpoch w.epoch ∧ s.errorStorage = some w.nextId) (registration ext env w) := by
  have hkeys : StableTable (fun _ => True) (fun _ => True)
      (fun s : World T F => s.epoch = nextEpoch w.epoch ∧ s.errorStorage = some w.nextId) :=
    ⟨⟨⟨fun _ _ h => h, fun _ _ _ h => h, fun _ _ _ h => h⟩, fun _ _ _ h => h⟩, fun _ _ _ _ h => h⟩
  exact register_stable hkeys env.throwsLast env.stmt ext.body (fun _ _ => trivial) (fun _ _ _ _ => trivial)
    (prepared ext w) ⟨rfl, rfl⟩

variable (ext w) in
lemma importOnce_early (h : env.prepares = false) :
    (importOnce ext env w).1 = .ok none ∧ (importOnce ext env w).2.failed = true ∧
      (importOnce ext env w).2.pyErr.isSome := by
  unfold importOnce pyInit registerError addObjectRef
  unfold AttemptEnv.prepares at h
  cases hc : env.createModule with
  | true => exact ⟨rfl, rfl, rfl⟩
  | false =>
    cases hn : env.newException with
    | true => exact ⟨rfl, rfl, rfl⟩
    | false =>
      have ha : env.addError = true := by
        rw [hc, hn] at h
        simpa using h
      rw [ha]
      exact ⟨rfl, rfl, rfl⟩

lemma importOnce_prepared (h : env.prepares = true) :
    importOnce ext env w = (do
      let registered ← guardedRegister ext env
      if registered then addTable env else pure none : Import T F _) (prepared ext w) := by
  unfold AttemptEnv.prepares at h
  simp only [Bool.and_eq_true, Bool.not_eq_true'] at h
  obtain ⟨⟨hc, hn⟩, ha⟩ := h
  unfold importOnce pyInit registerError addObjectRef
  rw [hc, hn, ha]
  rfl

lemma importOnce_of_registered {s : World T F} (henv : env.prepares = true)
    (h : registration ext env w = (.ok (), s)) : importOnce ext env w = addTable env s := by
  have hguarded : guardedRegister ext env (prepared ext w) = (.ok true, s) := by
    unfold registration at h
    unfold guardedRegister
    apply Prog.run_attempt_ok
    rw [Prog.run_bind_ok h]
    rfl
  rw [importOnce_prepared henv, Prog.run_bind_ok hguarded, if_pos rfl]

lemma importOnce_of_thrown {e : CxxExn} {s : World T F} (henv : env.prepares = true)
    (h : registration ext env w = (.error e, s)) :
    importOnce ext env w = (.ok none, { s with pyErr := setCppError s.errorStorage e s.pyErr }) := by
  have hguarded : guardedRegister ext env (prepared ext w) =
      (.ok false, { s with pyErr := setCppError s.errorStorage e s.pyErr }) := by
    unfold registration at h
    unfold guardedRegister
    rw [Prog.run_attempt_error (Prog.run_bind_error h)]
    rfl
  rw [importOnce_prepared henv, Prog.run_bind_ok hguarded, if_neg Bool.false_ne_true]
  rfl

variable (ext w) in
lemma importOnce_early_state (h : env.prepares = false) :
    (importOnce ext env w).2.epoch = w.epoch ∧ (importOnce ext env w).2.specs = w.specs ∧
      (importOnce ext env w).2.classes = w.classes ∧ (importOnce ext env w).2.table = w.table ∧
      (importOnce ext env w).2.module = [] := by
  unfold importOnce pyInit registerError addObjectRef
  unfold AttemptEnv.prepares at h
  cases hc : env.createModule with
  | true => exact ⟨rfl, rfl, rfl, rfl, rfl⟩
  | false =>
    cases hn : env.newException with
    | true => exact ⟨rfl, rfl, rfl, rfl, rfl⟩
    | false =>
      have ha : env.addError = true := by
        rw [hc, hn] at h
        simpa using h
      rw [ha]
      exact ⟨rfl, rfl, rfl, rfl, rfl⟩

end

/-! ### Conditions kept by the end of an attempt -/

/-- `I` survives failures and new functions in the module. -/
structure StableFunctions (I : World T F → Prop) : Prop where
  fail : ∀ (w : World T F) err, I w → I { w with pyErr := err, failed := true }
  function : ∀ (w : World T F) name f, I w → I (w.setAttr name (.function f))

/-- `I` survives all that follows the registration: also the error of an exception and the terminator. -/
structure StableEnd (I : World T F → Prop) : Prop extends StableFunctions I where
  pyErr : ∀ (w : World T F) err, I w → I { w with pyErr := err }
  table : ∀ (w : World T F) table nextId, w.nextId ≤ nextId → I w → I { w with table := table, nextId := nextId }

lemma addFunctions_keeps {I : World T F → Prop} (hI : StableFunctions I) (fails : ℕ → Bool) (buffer index : ℕ)
    (entries : List (MethodDef F)) : Keeps I (addFunctions fails buffer index entries) := by
  induction entries generalizing index with
  | nil => exact Triple.pure (fun _ h => h)
  | cons entry rest ih =>
    unfold addFunctions
    cases entry.mlName with
    | none => exact Triple.pure (fun _ h => h)
    | some name =>
      refine Triple.ite (fun _ => ?_) (fun _ => ?_)
      · exact Triple.bind (M := fun _ => I) (Triple.modify (fun w h => hI.fail w _ h))
          (fun _ => Triple.pure (fun _ h => h))
      · exact Triple.bind (M := fun _ => I) (Triple.modify (fun w h => hI.function w name _ h)) (fun _ => ih _)

lemma addTable_keeps {I : World T F → Prop} (hI : StableEnd I) (env : AttemptEnv) :
    Triple I (addTable env) (fun result s => I s ∧ ∀ m ∈ result, m = s.module) (fun _ => I) := by
  unfold addTable
  refine Triple.get (fun s₀ => Triple.ite (fun _ => ?_) (fun _ => ?_))
  · exact Triple.pure (fun _ h => ⟨h.2, fun _ hm => by cases hm⟩)
  · refine Triple.bind (M := fun _ => I) ?_ (fun _ => Triple.get (fun s₁ => ?_))
    · unfold pushTable
      apply Triple.get
      intro s₁
      cases s₁.table.pushBack .terminator s₁.nextId env.terminator with
      | none => exact fun w h => hI.fail w w.pyErr h.2.2
      | some table => exact Triple.modify (fun w h => hI.table w table _ (Nat.le_succ _) h.2.2)
    · refine Triple.bind (M := fun _ => I) ?_ (fun added => Triple.get (fun s₂ => Triple.pure (fun s hs => ?_)))
      · exact (addFunctions_keeps hI.toStableFunctions _ _ _ _).strengthen (fun _ h => h.2)
      · obtain ⟨rfl, h⟩ := hs
        refine ⟨h, fun m hm => ?_⟩
        cases added with
        | true => exact (Option.some.inj hm).symm
        | false => cases hm

section

variable [DecidableEq T] [DecidableEq F] {ext : Extension T F} {env : AttemptEnv} {w : World T F}

/-- A condition that holds when an attempt fails early, and after its registration, holds after it. -/
lemma importOnce_keeps {I : World T F → Prop} (hI : StableEnd I)
    (hearly : env.prepares = false → I (importOnce ext env w).2)
    (hreg : env.prepares = true → Outcome (fun _ => I) (fun _ => I) (registration ext env w)) :
    I (importOnce ext env w).2 := by
  cases henv : env.prepares with
  | false => exact hearly henv
  | true =>
    have hout := hreg henv
    rcases hrun : registration ext env w with ⟨e | u, s⟩
    · rw [hrun] at hout
      rw [importOnce_of_thrown henv hrun]
      exact hI.pyErr s _ hout
    · rw [hrun] at hout
      have hend := addTable_keeps hI env s hout
      rw [importOnce_of_registered henv hrun]
      generalize addTable env s = r at hend ⊢
      rcases r with ⟨e | a, s'⟩
      · exact hend
      · exact hend.1

lemma importOnce_some {m : Dict String (Attribute F)} (h : (importOnce ext env w).1 = .ok (some m)) :
    env.prepares = true ∧ m = (importOnce ext env w).2.module ∧
      ∃ s, registration ext env w = (.ok (), s) ∧ importOnce ext env w = addTable env s ∧ s.pyErr = none := by
  cases henv : env.prepares with
  | false =>
    rw [(importOnce_early ext w henv).1] at h
    cases h
  | true =>
    rcases hrun : registration ext env w with ⟨e | u, s⟩
    · rw [importOnce_of_thrown henv hrun] at h
      cases h
    · have htrue : StableEnd (fun _ : World T F => True) :=
        ⟨⟨fun _ _ h => h, fun _ _ _ h => h⟩, fun _ _ h => h, fun _ _ _ _ h => h⟩
      have hend := addTable_keeps htrue env s trivial
      rw [importOnce_of_registered henv hrun] at h ⊢
      refine ⟨rfl, ?_, s, rfl, rfl, ?_⟩
      · generalize addTable env s = r at hend h ⊢
        rcases r with ⟨e | a, s'⟩
        · cases h
        · obtain rfl := Except.ok.inj h
          exact hend.2 m rfl
      · by_contra herr
        unfold addTable at h
        rw [Prog.run_get_bind, if_pos (Option.isSome_iff_ne_none.mpr herr)] at h
        cases h

end

/-! ### Conditions along a run -/

section Along

variable [DecidableEq T] [DecidableEq F]

/-- Every statement that is executed meets `C`, in the state in which it starts. -/
def EveryStmt (C : StmtEnv → Stmt T F → World T F → Prop) (env : ℕ → StmtEnv) : List (Stmt T F) → World T F → Prop
  | [], _ => True
  | stmt :: rest, w =>
    C (env 0) stmt w ∧
      ∀ s, runStmt (env 0) stmt w = (.ok (), s) → EveryStmt C (fun i => env (i + 1)) rest s

/-- Every statement executed in a sequence of attempts meets `C`. -/
def EveryAttempt (C : StmtEnv → Stmt T F → World T F → Prop) (ext : Extension T F) :
    List AttemptEnv → World T F → Prop
  | [], _ => True
  | env :: rest, w =>
    (env.prepares = true → EveryStmt C env.stmt ext.body (prepared ext w)) ∧
      EveryAttempt C ext rest (importOnce ext env w).2

/-- What each statement that meets `C` carries from the statements before it to those up to it, the whole
registration carries; `E` holds where a statement throws. -/
lemma register_of_everyStmt {C : StmtEnv → Stmt T F → World T F → Prop} {I : List (Stmt T F) → World T F → Prop}
    {E : World T F → Prop} (body : List (Stmt T F))
    (hstmt : ∀ env done stmt rest, body = done ++ stmt :: rest → ∀ w, C env stmt w → I done w →
      Outcome (fun _ => I (done ++ [stmt])) (fun _ => E) (runStmt env stmt w))
    (hlast : ∀ throws, Triple (I body) (consumerCode throws : Import T F Unit) (fun _ => I body) (fun _ => E))
    (last : Option Throw) (env : ℕ → StmtEnv) {w : World T F} (hevery : EveryStmt C env body w) (hw : I [] w) :
    Outcome (fun _ => I body) (fun _ => E) (register last env body w) := by
  have hrest : ∀ rest done env w, body = done ++ rest → EveryStmt C env rest w → I done w →
      Outcome (fun _ => I body) (fun _ => E) (register last env rest w) := by
    intro rest
    induction rest with
    | nil =>
      intro done env w hbody _ h
      rw [List.append_nil] at hbody
      exact hlast last w (hbody ▸ h)
    | cons stmt rest ih =>
      intro done env w hbody hevery h
      have hfirst := hstmt (env 0) done stmt rest hbody w hevery.1 h
      unfold register
      rcases hrun : runStmt (env 0) stmt w with ⟨e | u, s⟩
      · rw [hrun] at hfirst
        rw [Prog.run_bind_error hrun]
        exact hfirst
      · rw [hrun] at hfirst
        rw [Prog.run_bind_ok hrun]
        exact ih (done ++ [stmt]) _ s (by rw [hbody, List.append_assoc]; rfl) (hevery.2 s hrun) hfirst
  exact hrest body [] env w rfl hevery hw

lemma register_keeps_of_everyStmt {C : StmtEnv → Stmt T F → World T F → Prop} {I : World T F → Prop}
    {body : List (Stmt T F)}
    (hstmt : ∀ env, ∀ stmt ∈ body, ∀ w, C env stmt w → I w → Outcome (fun _ => I) (fun _ => I) (runStmt env stmt w))
    (hlast : ∀ throws, Keeps I (consumerCode throws : Import T F Unit)) (last : Option Throw) (env : ℕ → StmtEnv)
    {w : World T F} (hevery : EveryStmt C env body w) (hw : I w) :
    Outcome (fun _ => I) (fun _ => I) (register last env body w) := by
  refine register_of_everyStmt (I := fun _ => I) body (fun env done stmt rest hbody => ?_) hlast last env hevery hw
  exact hstmt env stmt (hbody ▸ List.mem_append_right done List.mem_cons_self)

end Along

end SciForge.Binding
