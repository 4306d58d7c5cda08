import SciForge.Binding.Module

/-!
# What registration leaves alone

A condition on the statics that survives the elementary updates survives whole chains and bodies: the
counter and the error type, the specs of functions that are not registered, the classes that are not named,
a failure once it happened.
-/

namespace SciForge.Binding

variable {T F : Type}

/-! ### What a body registers -/

/-- The function a call registers with keywords. -/
def ClassOp.kwFunction : ClassOp F → Option F
  | .defInit f _ => some f
  | _ => none

def ClassOp.slots (b : Builder F) : ClassOp F → Builder F
  | .defRepr f => { b with repr := some f }
  | .defRichcompare f => { b with richcompare := some f }
  | .defHash f => { b with hash := some f }
  | .defInit f _ => { b with init := some f }
  | _ => b

/-- The functions a statement registers with keywords. -/
def Stmt.kwFunctions : Stmt T F → List F
  | .defKw f _ _ _ => [f]
  | .type _ _ chain => chain.filterMap ClassOp.kwFunction
  | .defFunction _ _ _ => []
  | .raw _ _ _ _ => []

def kwFunctions (body : List (Stmt T F)) : List F := body.flatMap Stmt.kwFunctions

def Stmt.wrapped : Stmt T F → Option T
  | .type t _ _ => some t
  | _ => none

/-! ### Stable conditions -/

/-- The specs may become `specs`: only those in `S` that are not claimed yet change, and they are claimed. -/
def Respecified (S : F → Prop) (w : World T F) (specs : F → KwSpec) : Prop :=
  ∀ f, specs f = w.specs f ∨ (S f ∧ ¬Claimed w f ∧ (specs f).epoch = w.epoch)

/-- `I` survives failures, registrations of the functions in `S` and any change to the classes in `C`. -/
structure Stable (S : F → Prop) (C : T → Prop) (I : World T F → Prop) : Prop where
  fail : ∀ (w : World T F) err, I w → I { w with pyErr := err, failed := true }
  specs : ∀ (w : World T F) (specs : F → KwSpec), Respecified S w specs → I w → I { w with specs := specs }
  classes : ∀ (w : World T F) (classes : T → ClassStatics F), (∀ t, ¬C t → classes t = w.classes t) → I w →
    I { w with classes := classes }

/-- The same, and new types in the module. -/
structure StableAttr (S : F → Prop) (C : T → Prop) (I : World T F → Prop) : Prop extends Stable S C I where
  attr : ∀ (w : World T F) name type, I w → I (w.setAttr name (.type type))

/-- The same, and any change to the method table; identities are never given twice. -/
structure StableTable (S : F → Prop) (C : T → Prop) (I : World T F → Prop) : Prop extends StableAttr S C I where
  table : ∀ (w : World T F) table nextId, w.nextId ≤ nextId → I w → I { w with table := table, nextId := nextId }

variable {S S' : F → Prop} {C C' : T → Prop} {I J : World T F → Prop}

lemma Stable.and (hI : Stable S C I) (hJ : Stable S C J) : Stable S C (fun w => I w ∧ J w) :=
  ⟨fun w err h => ⟨hI.fail w err h.1, hJ.fail w err h.2⟩,
    fun w specs hS h => ⟨hI.specs w specs hS h.1, hJ.specs w specs hS h.2⟩,
    fun w classes hC h => ⟨hI.classes w classes hC h.1, hJ.classes w classes hC h.2⟩⟩

lemma Stable.mono (hI : Stable S C I) (hS : ∀ f, S' f → S f) (hC : ∀ t, C' t → C t) : Stable S' C' I :=
  ⟨hI.fail, fun w specs h => hI.specs w specs (fun f => (h f).imp_right (fun hf => ⟨hS f hf.1, hf.2⟩)),
    fun w classes h => hI.classes w classes (fun t ht => h t (fun ht' => ht (hC t ht')))⟩

lemma ne_of_holds {α : Type} {P : α → Prop} {a b : α} (ha : P a) (hb : ¬P b) : b ≠ a := by
  rintro rfl
  exact hb ha

/-! ### Elementary steps -/

lemma throwCxx_stable (hI : Stable S C I) {α : Type} (exn : CxxExn) : Keeps I (throwCxx exn : Import T F α) := by
  unfold throwCxx
  apply Triple.bind (M := fun _ => I) (Triple.modify (fun w h => hI.fail w w.pyErr h))
  intro _
  exact Triple.raise (fun _ h => h)

lemma consumerCode_stable (hI : Stable S C I) (throws : Option Throw) :
    Keeps I (consumerCode throws : Import T F Unit) := by
  unfold consumerCode
  cases throws with
  | none => exact Triple.pure (fun _ h => h)
  | some t =>
    intro w h
    exact hI.fail w (t.pending.or w.pyErr) h

lemma grow_stable (hI : Stable S C I) (fails : Bool) {g : World T F → World T F} (hg : ∀ w, I w → I (g w)) :
    Keeps I (grow fails g) := by
  unfold grow
  exact Triple.ite (fun _ => throwCxx_stable hI _) (fun _ => Triple.modify hg)

/-! ### Specs -/

lemma respecified_update [DecidableEq F] {w : World T F} {f : F} (hf : S f) (hclaimed : ¬Claimed w f) {k : KwSpec}
    (hk : k.epoch = w.epoch) : Respecified S w (Function.update w.specs f k) := by
  intro f'
  by_cases he : f' = f
  · subst he
    rw [Function.update_self]
    exact .inr ⟨hf, hclaimed, hk⟩
  · exact .inl (Function.update_of_ne he _ _)

lemma fillKwSpec_stable [DecidableEq F] (hI : Stable S C I) {f : F} (hf : S f) (name : String) (env : KwEnv)
    (specs : ArgSpecs) : Keeps I (fillKwSpec f name env specs) := by
  intro w hw
  refine (fillKwSpec_spec w f name env specs).weaken (fun s hs => hs) ?_ ?_ w rfl
  · rintro _ s (⟨-, rfl⟩ | ⟨hclaimed, hfill⟩)
    · exact hI.fail w _ hw
    · have hspecs := hI.specs w _ (respecified_update hf hclaimed (k := registeredSpec w name env specs) rfl) hw
      rw [hfill]
      cases hfails : someAllocFails env.arg specs.specs with
      | true =>
        rw [Bool.or_true]
        exact hI.fail _ _ hspecs
      | false =>
        rw [Bool.or_false]
        exact hspecs
  · rintro e s ⟨hclaimed, -, k, err, hk, -, rfl⟩
    exact hI.fail _ err (hI.specs w _ (respecified_update hf hclaimed hk) hw)

/-! ### Chains -/

section Chains

lemma unlessCreated_keeps {J : World T F × Builder F → Prop} (t : T) {p : World T F → Chain T F Unit}
    (h : ∀ w, Keeps J (p w)) : Keeps J (unlessCreated t p) := by
  unfold unlessCreated
  apply Triple.get
  intro s₀
  apply Triple.ite (fun _ => Triple.pure (fun _ h => h.2))
  intro _
  exact (h s₀.1).strengthen (fun _ h => h.2)

variable [DecidableEq T]

lemma setClass_stable (hI : Stable S C I) {t : T} (ht : C t) (g : ClassStatics F → ClassStatics F)
    (w : World T F) (h : I w) : I (setClass t g w) :=
  hI.classes w _ (fun _ ht' => Function.update_of_ne (ne_of_holds ht ht') _ _) h

/-- `I` survives what the destructor of a builder of `t` does to the statics and the module. -/
structure StableFinish (t : T) (I : World T F → Prop) : Prop where
  err : ∀ (w : World T F) err, I w → I (w.err err)
  setClass : ∀ (w : World T F) g, I w → I (setClass t g w)
  attr : ∀ (w : World T F) name type, I w → I (w.setAttr name (.type type))

lemma StableAttr.stableFinish (hI : StableAttr S C I) {t : T} (ht : C t) : StableFinish t I :=
  ⟨fun w err h => hI.fail w (some err) h, fun w g h => setClass_stable hI.toStable ht g w h, hI.attr⟩

section Finish

variable {t : T} {R : CxxExn → World T F → Prop}

lemma StableFinish.setErr (hI : StableFinish t I) (err : PyErr) : Triple I (setErr err) (fun _ => I) R :=
  Triple.modify (fun w h => hI.err w err h)

lemma StableFinish.addType (hI : StableFinish t I) (fails : Bool) (attr : String) (type : TypeObject F) :
    Triple I (addObjectRef fails attr (.type type)) (fun _ => I) R := by
  unfold addObjectRef
  refine Triple.ite (fun _ => ?_) (fun _ => ?_)
  · exact Triple.bind (hI.setErr _) (fun _ => Triple.pure (fun _ h => h))
  · exact Triple.bind (M := fun _ => I) (Triple.modify (fun w h => hI.attr w attr type h))
      (fun _ => Triple.pure (fun _ h => h))

lemma StableFinish.pushTerminators (hI : StableFinish t I) (env : FinishEnv) :
    Triple I (pushTerminators t env) (fun _ => I) R := by
  -- a table that cannot grow leaves a failure, which the handler turns into an error
  have hgrow : ∀ (fails : Bool) (g : ClassStatics F → ClassStatics F), Triple I (grow fails (Binding.setClass t g))
      (fun _ => I) (fun _ s => ∃ w, I w ∧ s = { w with failed := true }) := by
    intro fails g
    unfold grow
    refine Triple.ite (fun _ w h => ⟨w, h, rfl⟩) (fun _ => ?_)
    exact Triple.modify (fun w h => hI.setClass w g h)
  unfold Binding.pushTerminators
  refine Triple.attempt (Triple.bind (hgrow _ _) (fun _ => Triple.bind (hgrow _ _)
    (fun _ => Triple.pure (fun _ h => h)))) (fun _ => ?_)
  refine Triple.bind (M := fun _ => I) (Triple.modify ?_) (fun _ => Triple.pure (fun _ h => h))
  rintro _ ⟨w, h, rfl⟩
  exact hI.err w .memoryError h

lemma StableFinish.createType (hI : StableFinish t I) (env : FinishEnv) (b : Builder F) :
    Triple I (createType t env b) (fun _ => I) R := by
  unfold Binding.createType
  refine Triple.ite (fun _ => hI.setErr _) (fun _ => Triple.get (fun w => ?_))
  apply Triple.bind (M := fun _ => I) (Triple.modify (fun s h => hI.setClass s _ h.2))
  intro _
  apply Triple.bind (hI.addType _ _ _)
  intro added
  exact Triple.ite (fun _ => Triple.pure (fun _ h => h)) (fun _ => Triple.modify (fun s h => hI.setClass s _ h))

lemma StableFinish.finishType (hI : StableFinish t I) (env : FinishEnv) (b : Builder F) :
    Triple I (finishType t env b) (fun _ => I) R := by
  unfold Binding.finishType
  apply Triple.get
  intro w
  cases (w.classes t).type with
  | some type =>
    refine Triple.bind (M := fun _ => I) ?_ (fun _ => Triple.pure (fun _ h => h))
    exact (hI.addType _ _ _).strengthen (fun _ h => h.2)
  | none =>
    refine Triple.bind (M := fun _ => I) ?_ (fun pushed => ?_)
    · exact (hI.pushTerminators env).strengthen (fun _ h => h.2)
    · exact Triple.ite (fun _ => hI.createType env b) (fun _ => Triple.pure (fun _ h => h))

lemma StableFinish.finish (hI : StableFinish t I) (env : FinishEnv) :
    Triple (fun s => I s.1) (finish t env : Chain T F Unit) (fun _ s => I s.1) (fun _ _ => False) := by
  unfold Binding.finish
  apply Triple.get
  intro s₀
  apply Triple.ite (fun _ => Triple.pure (fun _ h => h.2))
  intro _
  apply Triple.bind (M := fun _ s => I s.1) (Triple.modify (fun _ h => h.2))
  intro _
  exact Triple.lift (fun _ => hI.finishType env s₀.2)

lemma StableFinish.finish_run (hI : StableFinish t I) (env : FinishEnv) {s : World T F × Builder F} (hs : I s.1) :
    I (Binding.finish t env s).2.1 := by
  obtain ⟨_, -, h⟩ := (hI.finish env).returns hs
  exact h

end Finish

variable [DecidableEq F]

/-- A condition on the statics and the builder that survives the updates of the statics, with any builder, and
the slots of a call, survives the call. -/
lemma runOp_keeps {J : World T F × Builder F → Prop} (hJ : ∀ b, Stable S C (fun w => J (w, b))) {t : T} (ht : C t)
    (env : OpEnv) (op : ClassOp F) (hop : ∀ f ∈ op.kwFunction, S f)
    (hslots : ∀ w b, J (w, b) → J (w, op.slots b)) : Keeps J (runOp t env op) := by
  have hset : ∀ g : ClassStatics F → ClassStatics F, ∀ fails, Keeps J (Prog.lift (grow fails (setClass t g))) :=
    fun g fails => Triple.lift (fun b => grow_stable (hJ b) fails (setClass_stable (hJ b) ht g))
  have hbuilder : Keeps J (setBuilder (fun b => op.slots b)) := Triple.modify (fun s h => hslots s.1 s.2 h)
  unfold runOp
  apply Triple.bind (M := fun _ => J) (Triple.lift (fun b => consumerCode_stable (hJ b) env.throws))
  intro _
  cases op with
  | defMethod f name doc => exact unlessCreated_keeps t (fun _ => hset _ _)
  | defPropRo f name doc => exact unlessCreated_keeps t (fun _ => hset _ _)
  | defRepr f => exact unlessCreated_keeps t (fun _ => hbuilder)
  | defRichcompare f => exact unlessCreated_keeps t (fun _ => hbuilder)
  | defHash f => exact unlessCreated_keeps t (fun _ => hbuilder)
  | raw name f flags doc => exact unlessCreated_keeps t (fun _ => hset _ _)
  | initOnce => exact Triple.pure (fun _ h => h)
  | defInit f specs =>
    apply unlessCreated_keeps t
    intro w
    refine Triple.bind (M := fun _ => J) ?_ (fun _ => hbuilder)
    exact Triple.lift (fun b => fillKwSpec_stable (hJ b) (hop f rfl) _ env.kw specs)

lemma runChain_stable (hI : Stable S C I) {t : T} (ht : C t) (env : ℕ → OpEnv) (chain : List (ClassOp F))
    (hchain : ∀ f ∈ chain.filterMap ClassOp.kwFunction, S f) :
    Keeps (fun s => I s.1) (runChain t env chain) := by
  induction chain generalizing env with
  | nil => exact Triple.pure (fun _ h => h)
  | cons op rest ih =>
    refine Triple.bind (M := fun _ (s : World T F × Builder F) => I s.1) ?_ (fun _ => ih _ ?_)
    · refine runOp_keeps (fun _ => hI) ht (env 0) op (fun f hf => ?_) (fun _ _ h => h)
      exact hchain f (List.mem_filterMap.mpr ⟨op, List.mem_cons_self, hf⟩)
    · intro f hf
      obtain ⟨op', hop', hf⟩ := List.mem_filterMap.mp hf
      exact hchain f (List.mem_filterMap.mpr ⟨op', List.mem_cons_of_mem op hop', hf⟩)

lemma typeChain_stable (hI : StableAttr S C I) {t : T} (ht : C t) (qualifiedName : String)
    (chain : List (ClassOp F)) (hchain : ∀ f ∈ chain.filterMap ClassOp.kwFunction, S f) (op : ℕ → OpEnv)
    (last : FinishEnv) : Keeps I (typeChain t qualifiedName chain op last) := by
  have hfinish := hI.stableFinish ht
  unfold typeChain
  refine Triple.bind (M := fun _ => I) (Triple.modify (fun w h => ?_)) (fun _ => ?_)
  · unfold classCtor
    split
    · exact h
    · exact setClass_stable hI.toStable ht _ w h
  · refine Triple.within (Triple.cleanup (Q := fun _ s => I s.1) (R := fun _ s => I s.1) ?_ ?_ ?_)
    · exact (runChain_stable hI.toStable ht op chain hchain).strengthen (fun _ h => h.1)
    · exact fun _ _ hs => hfinish.finish_run last hs
    · exact fun _ _ hs => hfinish.finish_run last hs

end Chains

/-! ### Bodies -/

lemma pushTable_stable (hI : Stable S C I)
    (htable : ∀ (w : World T F) table nextId, w.nextId ≤ nextId → I w →
      I { w with table := table, nextId := nextId })
    (spare : Option ℕ) (entry : MethodDef F) : Keeps I (pushTable spare entry : Import T F Unit) := by
  unfold pushTable
  apply Triple.get
  intro w
  cases w.table.pushBack entry w.nextId spare with
  | none => exact (throwCxx_stable hI _).strengthen (fun _ h => h.2)
  | some table => exact Triple.modify (fun w h => htable w table _ (Nat.le_succ _) h.2)

lemma runStmt_stable [DecidableEq T] [DecidableEq F] (hI : StableTable S C I) (env : StmtEnv) (stmt : Stmt T F)
    (hS : ∀ f ∈ stmt.kwFunctions, S f) (hC : ∀ t ∈ stmt.wrapped, C t) : Keeps I (runStmt env stmt) := by
  unfold runStmt
  apply Triple.bind (consumerCode_stable hI.toStable env.throws)
  intro _
  cases stmt with
  | defFunction f name doc => exact pushTable_stable hI.toStable hI.table _ _
  | defKw f name doc specs =>
    apply Triple.bind (fillKwSpec_stable hI.toStable (hS f List.mem_cons_self) name env.kw specs)
    intro _
    exact pushTable_stable hI.toStable hI.table _ _
  | raw name f flags doc => exact pushTable_stable hI.toStable hI.table _ _
  | type t qualifiedName chain =>
    exact typeChain_stable hI.toStableAttr (hC t rfl) qualifiedName chain hS env.op env.finish

lemma register_stable [DecidableEq T] [DecidableEq F] (hI : StableTable S C I) (last : Option Throw)
    (env : ℕ → StmtEnv) (body : List (Stmt T F)) (hS : ∀ f ∈ kwFunctions body, S f)
    (hC : ∀ stmt ∈ body, ∀ t ∈ stmt.wrapped, C t) : Keeps I (register last env body) := by
  induction body generalizing env with
  | nil => exact consumerCode_stable hI.toStable last
  | cons stmt rest ih =>
    refine Triple.bind (runStmt_stable hI (env 0) stmt ?_ (hC stmt List.mem_cons_self)) (fun _ => ih _ ?_ ?_)
    · exact fun f hf => hS f (List.mem_flatMap.mpr ⟨stmt, List.mem_cons_self, hf⟩)
    · intro f hf
      obtain ⟨stmt', hs, hf⟩ := List.mem_flatMap.mp hf
      exact hS f (List.mem_flatMap.mpr ⟨stmt', List.mem_cons_of_mem stmt hs, hf⟩)
    · exact fun stmt' hs => hC stmt' (List.mem_cons_of_mem stmt hs)

end SciForge.Binding
