import SciForge.Binding.Types

/-!
# Wrapped types are complete

A type is made by the destructor of its chain, also while an exception unwinds through the chain. As long as
that never happens, every wrapped type has all its chain declares.
-/

namespace SciForge.Binding

variable {T F : Type}

/-! ### The invariant -/

/-- The type is all that some chain on `t` declares. -/
def TypeDeclared (body : List (Stmt T F)) (t : T) (type : TypeObject F) : Prop :=
  ∃ qualifiedName chain, Stmt.type t qualifiedName chain ∈ body ∧ type = declaredType qualifiedName chain

/-- Every type there is, and every type the module exposes, is complete. -/
def Complete (body : List (Stmt T F)) : World T F → Prop := TypesAre (TypeDeclared body)

lemma typeFromSpec_declared (qualifiedName : String) (chain : List (ClassOp F)) :
    typeFromSpec (declaredClass qualifiedName chain).terminated (declaredSlots chain) =
      declaredType qualifiedName chain := by
  obtain ⟨hmethods, hgetsets⟩ := typeFromSpec_tables qualifiedName chain (declaredSlots chain)
  rw [declaredType, ← hmethods, ← hgetsets]
  rfl

/-! ### One chain -/

section Chain

variable [DecidableEq T]

variable [DecidableEq F]

/-- When an exception leaves the calls of a chain whose type does not exist, the destructor cannot make it. -/
def CleanUnwind (env : StmtEnv) (stmt : Stmt T F) (w : World T F) : Prop :=
  match stmt with
  | .type t qualifiedName chain =>
    env.throws = none → (w.classes t).type = none →
      Outcome (fun _ _ => True) (fun _ _ => env.finish.succeeds = false)
        (runChain t env.op chain (classCtor t qualifiedName w, .empty))
  | _ => True

lemma Complete.typeChain {body : List (Stmt T F)} {env : StmtEnv} {t : T} {qualifiedName : String}
    {chain : List (ClassOp F)} (hmem : Stmt.type t qualifiedName chain ∈ body) {w : World T F}
    (hnone : (w.classes t).type = none)
    (hclean : Outcome (fun _ _ => True) (fun _ _ => env.finish.succeeds = false)
      (runChain t env.op chain (classCtor t qualifiedName w, .empty))) (hw : Complete body w) :
    Complete body (typeChain t qualifiedName chain env.op env.finish w).2 := by
  have hlive := runChain_live t qualifiedName [] chain env.op (classCtor t qualifiedName w, .empty)
    (classCtor_liveAt hnone)
  apply TypesAre.typeChain hw hnone env.op env.finish chain rfl
  intro hsucceeds
  generalize runChain t env.op chain (classCtor t qualifiedName w, .empty) = r at hclean hlive ⊢
  rcases r with ⟨e | a, s, b⟩
  · exact absurd (hsucceeds.symm.trans hclean) Bool.false_ne_true.symm
  · obtain ⟨hclass, hslots⟩ : LiveAt t qualifiedName ([] ++ chain) (s, b) := hlive
    rw [List.nil_append] at hclass hslots
    refine ⟨qualifiedName, chain, hmem, ?_⟩
    rw [show s.classes t = _ from hclass, show b = _ from hslots]
    exact typeFromSpec_declared qualifiedName chain

/-! ### Runs -/

lemma runStmt_complete {body : List (Stmt T F)} (env : StmtEnv) {stmt : Stmt T F} (hmem : stmt ∈ body)
    {w : World T F} (hclean : CleanUnwind env stmt w) (hw : Complete body w) :
    Complete body (runStmt env stmt w).2 := by
  have hpush : ∀ spare entry, Keeps (Complete body) (pushTable spare entry) :=
    pushTable_stable (typesAre_stable (TypeDeclared body)) (fun _ _ _ _ h => h.of_eq rfl rfl)
  have hcode := consumerCode_stable (typesAre_stable (TypeDeclared body)) env.throws
  have hplain : ∀ p : Import T F Unit, Keeps (Complete body) p →
      Complete body ((do consumerCode env.throws; p : Import T F Unit) w).2 := fun p hp =>
    outcome_same.mp (Triple.bind hcode (fun _ => hp) w hw)
  cases stmt with
  | defFunction f name doc => exact hplain _ (hpush _ _)
  | defKw f name doc specs =>
    exact hplain _ (Triple.bind (fillKwSpec_stable (typesAre_stable (TypeDeclared body)) trivial name env.kw specs)
      (fun _ => hpush _ _))
  | raw name f flags doc => exact hplain _ (hpush _ _)
  | type t qualifiedName chain =>
    unfold runStmt
    cases hthrows : env.throws with
    | some throws =>
      rw [Prog.run_bind_error (consumerCode_some throws w)]
      have hout := outcome_same.mp (hcode w hw)
      rw [hthrows] at hout
      exact hout
    | none =>
      rw [Prog.run_bind_ok (consumerCode_none w)]
      cases htype : (w.classes t).type with
      | some type => exact (typeChain_inert qualifiedName chain env.op env.finish htype hw).1
      | none => exact hw.typeChain hmem htype (hclean hthrows htype)

lemma importOnce_complete {ext : Extension T F} {env : AttemptEnv} {w : World T F}
    (hclean : env.prepares = true → EveryStmt CleanUnwind env.stmt ext.body (prepared ext w))
    (hw : Complete ext.body w) : Complete ext.body (importOnce ext env w).2 := by
  refine importOnce_keeps (typesAre_stableEnd (TypeDeclared ext.body)) (fun henv => ?_) (fun henv => ?_)
  · exact TypesAre.early henv hw
  · refine register_keeps_of_everyStmt (C := CleanUnwind) ?_ ?_ env.throwsLast env.stmt (hclean henv)
      (TypesAre.prepared hw ext)
    · exact fun env' stmt hmem s hs h => outcome_same.mpr (runStmt_complete env' hmem hs h)
    · exact fun throws => consumerCode_stable (typesAre_stable (TypeDeclared ext.body)) throws

/-- The invariant holds after every sequence of attempts whose statements meet the condition. -/
lemma imports_complete {ext : Extension T F} {envs : List AttemptEnv} {w : World T F}
    (hclean : EveryAttempt CleanUnwind ext envs w) (hw : Complete ext.body w) :
    Complete ext.body (imports ext envs w) := by
  induction envs generalizing w with
  | nil => exact hw
  | cons env rest ih => exact ih hclean.2 (importOnce_complete hclean.1 hw)

omit [DecidableEq T] [DecidableEq F] in
/-- One `class_` chain for each wrapped type. -/
def OneChain (body : List (Stmt T F)) : Prop :=
  ∀ t qualifiedName chain qualifiedName' chain', Stmt.type t qualifiedName chain ∈ body →
    Stmt.type t qualifiedName' chain' ∈ body → qualifiedName' = qualifiedName ∧ chain' = chain

lemma everyAttempt_append {C : StmtEnv → Stmt T F → World T F → Prop} {ext : Extension T F}
    {envs envs' : List AttemptEnv} {w : World T F} (h : EveryAttempt C ext (envs ++ envs') w) :
    EveryAttempt C ext envs w ∧ EveryAttempt C ext envs' (imports ext envs w) := by
  induction envs generalizing w with
  | nil => exact ⟨trivial, h⟩
  | cons env rest ih =>
    obtain ⟨hrest, hlast⟩ := ih h.2
    exact ⟨⟨h.1, hrest⟩, hlast⟩

/-- In a run in which no type is made while an exception unwinds through its chain, every type that a
successful attempt exposes is all its chain declares. -/
theorem exposed_types_complete (ext : Extension T F) (hone : OneChain ext.body) (envs : List AttemptEnv)
    (env : AttemptEnv) (hclean : EveryAttempt CleanUnwind ext (envs ++ [env]) .initial)
    (m : Dict String (Attribute F)) (hok : (importOnce ext env (imports ext envs .initial)).1 = .ok (some m)) :
    (∀ attr type, m.get attr = some (.type type) → ∃ t qualifiedName chain,
      Stmt.type t qualifiedName chain ∈ ext.body ∧ attr = attrName qualifiedName ∧
        type = declaredType qualifiedName chain) ∧
    ∀ t qualifiedName chain type, Stmt.type t qualifiedName chain ∈ ext.body →
      ((importOnce ext env (imports ext envs .initial)).2.classes t).type = some type →
      type = declaredType qualifiedName chain := by
  obtain ⟨hbefore, hlast⟩ := everyAttempt_append hclean
  have hcomplete := importOnce_complete hlast.1 (imports_complete hbefore typesAre_initial)
  obtain ⟨-, hm, -⟩ := importOnce_some hok
  refine ⟨fun attr type ha => ?_, fun t qualifiedName chain type hmem ht => ?_⟩
  · obtain ⟨t, ⟨qualifiedName, chain, hmem, rfl⟩, hattr⟩ := hcomplete.exposed (hm ▸ ha)
    exact ⟨t, qualifiedName, chain, hmem, hattr, rfl⟩
  · obtain ⟨⟨qualifiedName', chain', hmem', rfl⟩, -⟩ := hcomplete.types t type ht
    obtain ⟨rfl, rfl⟩ := hone t qualifiedName chain qualifiedName' chain' hmem hmem'
    rfl

end Chain

/-! ### An exception inside a chain -/

/-- A statement in which nothing fails, but for what the consumer's code throws before each call. -/
def throwingStmt (throws : ℕ → Option Throw) : StmtEnv :=
  ⟨none, noKw, some 0, fun i => ⟨throws i, false, noKw⟩, ⟨false, false, false, false⟩⟩

def throwingAttempt (throws : ℕ → Option Throw) : AttemptEnv where
  createModule := false
  newException := false
  addError := false
  stmt _ := throwingStmt throws
  throwsLast := none
  terminator := some 0
  addFunctions _ := false

def widgets : Extension Unit Bool :=
  ⟨"demo.error", [.type () "demo.Widget" [.defMethod true "area" none, .defMethod false "scale" none]]⟩

/-- The consumer's code throws before the second method: the next attempt exposes the type with the first
alone. -/
theorem half_type_exposed :
    ∃ m type, (importOnce widgets (throwingAttempt (fun _ => none))
        (imports widgets [throwingAttempt (fun i => if i = 1 then some ⟨.stdException "no scale", none⟩ else none)]
          .initial)).1 = .ok (some m) ∧
      m.get "Widget" = some (.type type) ∧
      type.methods = [⟨some "area", some (.callMethod true), methVarargs, none⟩] ∧
      type ≠ declaredType "demo.Widget" [.defMethod true "area" none, .defMethod false "scale" none] :=
  ⟨_, _, rfl, rfl, rfl, by decide⟩

/-- Where nothing throws, the type that the module exposes is the one declared. -/
theorem exposed_types_complete_widgets :
    ∃ m, (importOnce widgets (throwingAttempt (fun _ => none)) .initial).1 = .ok (some m) ∧
      ∀ attr type, m.get attr = some (.type type) → ∃ t qualifiedName chain,
        Stmt.type t qualifiedName chain ∈ widgets.body ∧ attr = attrName qualifiedName ∧
          type = declaredType qualifiedName chain := by
  have hone : OneChain widgets.body := by
    intro t qualifiedName chain qualifiedName' chain' h h'
    obtain ⟨-, rfl, rfl⟩ := Stmt.type.inj (List.mem_singleton.mp h)
    obtain ⟨-, rfl, rfl⟩ := Stmt.type.inj (List.mem_singleton.mp h')
    exact ⟨rfl, rfl⟩
  have hclean : EveryAttempt CleanUnwind widgets ([] ++ [throwingAttempt (fun _ => none)]) .initial :=
    ⟨fun _ => ⟨fun _ _ => trivial, fun _ _ => trivial⟩, trivial⟩
  exact ⟨_, rfl, (exposed_types_complete widgets hone [] _ hclean _ rfl).1⟩

end SciForge.Binding
