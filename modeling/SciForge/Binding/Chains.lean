import SciForge.Binding.Attempts

/-!
# Live and inert chains

While its type does not exist a chain adds to the tables exactly what it declares, and the destructor makes
the type from them or leaves an error. Once the type exists the chain does nothing but hand it to the module.
-/

namespace SciForge.Binding

variable {T F : Type}

/-! ### What a chain declares -/

def ClassOp.method : ClassOp F → Option (MethodDef F)
  | .defMethod f name doc => some ⟨some name, some (.callMethod f), methVarargs, doc⟩
  | .raw name f flags doc => some ⟨some name, some (.raw f), flags, doc⟩
  | _ => none

def ClassOp.getset : ClassOp F → Option (GetSetDef F)
  | .defPropRo f name doc => some ⟨some name, some f, doc⟩
  | _ => none

def declaredMethods (chain : List (ClassOp F)) : List (MethodDef F) := chain.filterMap ClassOp.method

def declaredGetsets (chain : List (ClassOp F)) : List (GetSetDef F) := chain.filterMap ClassOp.getset

/-- The slots of a chain; the last call for a slot stands. -/
def declaredSlots (chain : List (ClassOp F)) : Builder F := chain.foldl ClassOp.slots .empty

def declaredType (qualifiedName : String) (chain : List (ClassOp F)) : TypeObject F where
  name := qualifiedName
  methods := declaredMethods chain
  getsets := declaredGetsets chain
  repr := (declaredSlots chain).repr
  richcompare := (declaredSlots chain).richcompare
  hash := (declaredSlots chain).hash
  init := (declaredSlots chain).init

/-- The tables a chain has filled so far. -/
def declaredClass (qualifiedName : String) (chain : List (ClassOp F)) : ClassStatics F where
  type := none
  name := qualifiedName
  methods := declaredMethods chain
  getsets := declaredGetsets chain

/-- A chain that has run the calls `done` on a type that does not exist yet. -/
def LiveAt (t : T) (qualifiedName : String) (done : List (ClassOp F)) (s : World T F × Builder F) : Prop :=
  s.1.classes t = declaredClass qualifiedName done ∧ s.2 = declaredSlots done

lemma LiveAt.snoc {t : T} {qualifiedName : String} {done : List (ClassOp F)} {op : ClassOp F}
    {s : World T F × Builder F}
    (hclass : s.1.classes t = ⟨none, qualifiedName, declaredMethods done ++ op.method.toList,
      declaredGetsets done ++ op.getset.toList⟩) (hslots : s.2 = op.slots (declaredSlots done)) :
    LiveAt t qualifiedName (done ++ [op]) s := by
  refine ⟨?_, ?_⟩
  · rw [hclass]
    unfold declaredClass declaredMethods declaredGetsets
    rw [List.filterMap_append, List.filterMap_append]
    cases op <;> rfl
  · rw [hslots]
    unfold declaredSlots
    rw [List.foldl_append]
    rfl

/-! ### Live calls -/

lemma unlessCreated_live {t : T} {J : World T F × Builder F → Prop} {p : World T F → Chain T F Unit}
    {Q : Unit → World T F × Builder F → Prop} {R : CxxExn → World T F × Builder F → Prop}
    (hnone : ∀ s, J s → (s.1.classes t).type = none)
    (h : ∀ w, Triple (fun s => J s ∧ s.1 = w) (p w) Q R) : Triple J (unlessCreated t p) Q R := by
  unfold unlessCreated
  apply Triple.get
  intro s₀
  refine Triple.assume (c := (s₀.1.classes t).type = none) ?_ (fun hn => ?_)
  · rintro s ⟨rfl, hs⟩
    exact hnone s hs
  · rw [hn]
    apply (h s₀.1).strengthen
    rintro s ⟨rfl, hs⟩
    exact ⟨hs, rfl⟩

section Live

variable [DecidableEq T]

lemma grow_class {t : T} {c : ClassStatics F} (fails : Bool) (g : ClassStatics F → ClassStatics F) :
    Triple (fun w : World T F => w.classes t = c) (grow fails (setClass t g)) (fun _ w => w.classes t = g c)
      (fun _ w => w.classes t = c) := by
  unfold grow
  refine Triple.ite (fun _ => fun _ hw => hw) (fun _ => ?_)
  apply Triple.modify
  intro w hw
  unfold setClass
  dsimp only
  rw [Function.update_self, hw]

lemma pushMethod_live {t : T} {qualifiedName : String} {done : List (ClassOp F)} {op : ClassOp F} (fails : Bool)
    {entry : MethodDef F} (hmethod : op.method = some entry) (hgetset : op.getset = none)
    (hslots : ∀ b, op.slots b = b) :
    Triple (LiveAt t qualifiedName done) (pushMethod t fails entry)
      (fun _ => LiveAt t qualifiedName (done ++ [op])) (fun _ s => (s.1.classes t).type = none) := by
  refine ((grow_class fails _).lift_beside (fun b => b = declaredSlots done)).weaken (fun _ h => h) ?_ ?_
  · rintro _ s ⟨hclass, hb⟩
    refine LiveAt.snoc ?_ (hb.trans (hslots _).symm)
    rw [hclass, hmethod, hgetset]
    unfold declaredClass
    simp
  · rintro _ s ⟨hclass, -⟩
    rw [hclass]
    rfl

lemma pushGetset_live {t : T} {qualifiedName : String} {done : List (ClassOp F)} {op : ClassOp F} (fails : Bool)
    {entry : GetSetDef F} (hmethod : op.method = none) (hgetset : op.getset = some entry)
    (hslots : ∀ b, op.slots b = b) :
    Triple (LiveAt t qualifiedName done) (pushGetset t fails entry)
      (fun _ => LiveAt t qualifiedName (done ++ [op])) (fun _ s => (s.1.classes t).type = none) := by
  refine ((grow_class fails _).lift_beside (fun b => b = declaredSlots done)).weaken (fun _ h => h) ?_ ?_
  · rintro _ s ⟨hclass, hb⟩
    refine LiveAt.snoc ?_ (hb.trans (hslots _).symm)
    rw [hclass, hmethod, hgetset]
    unfold declaredClass
    simp
  · rintro _ s ⟨hclass, -⟩
    rw [hclass]
    rfl

omit [DecidableEq T] in
lemma setBuilder_live {t : T} {qualifiedName : String} {done : List (ClassOp F)} (op : ClassOp F)
    (hmethod : op.method = none) (hgetset : op.getset = none) {R : CxxExn → World T F × Builder F → Prop} :
    Triple (LiveAt t qualifiedName done) (setBuilder (fun b => op.slots b))
      (fun _ => LiveAt t qualifiedName (done ++ [op])) R := by
  refine Triple.modify (fun s hs => LiveAt.snoc ?_ ?_)
  · rw [hmethod, hgetset, hs.1]
    unfold declaredClass
    simp
  · change op.slots s.2 = _
    rw [hs.2]

variable [DecidableEq F]

/-- A call of a live chain adds what it declares; when it throws the type still does not exist. -/
lemma runOp_live (t : T) (qualifiedName : String) (done : List (ClassOp F)) (env : OpEnv) (op : ClassOp F) :
    Triple (LiveAt t qualifiedName done) (runOp t env op)
      (fun _ => LiveAt t qualifiedName (done ++ [op])) (fun _ s => (s.1.classes t).type = none) := by
  have hnone : ∀ s : World T F × Builder F, LiveAt t qualifiedName done s → (s.1.classes t).type = none := by
    intro s hs
    rw [hs.1]
    rfl
  have hstable : Stable (fun _ : F => True) (fun _ => False)
      (fun w : World T F => w.classes t = declaredClass qualifiedName done) :=
    ⟨fun _ _ h => h, fun _ _ _ h => h, fun w _ hC h => (hC t not_false).trans h⟩
  have hkeep : ∀ {p : Import T F Unit},
      Keeps (fun w : World T F => w.classes t = declaredClass qualifiedName done) p →
      Triple (LiveAt t qualifiedName done) (Prog.lift p) (fun _ => LiveAt t qualifiedName done)
        (fun _ s => (s.1.classes t).type = none) := by
    intro p hp
    apply (Triple.lift_beside hp (fun b => b = declaredSlots done)).weakenThrow
    rintro _ s ⟨hclass, -⟩
    rw [hclass]
    rfl
  have hlive : ∀ {p : Chain T F Unit},
      Triple (LiveAt t qualifiedName done) p (fun _ => LiveAt t qualifiedName (done ++ [op]))
        (fun _ s => (s.1.classes t).type = none) →
      Triple (LiveAt t qualifiedName done) (unlessCreated t (fun _ => p))
        (fun _ => LiveAt t qualifiedName (done ++ [op])) (fun _ s => (s.1.classes t).type = none) := fun hp =>
    unlessCreated_live hnone (fun _ => hp.strengthen (fun _ h => h.1))
  unfold runOp
  apply Triple.bind (hkeep (consumerCode_stable hstable env.throws))
  intro _
  cases op with
  | defMethod f name doc => exact hlive (pushMethod_live env.grow rfl rfl (fun _ => rfl))
  | defPropRo f name doc => exact hlive (pushGetset_live env.grow rfl rfl (fun _ => rfl))
  | defRepr f => exact hlive (setBuilder_live (.defRepr f) rfl rfl)
  | defRichcompare f => exact hlive (setBuilder_live (.defRichcompare f) rfl rfl)
  | defHash f => exact hlive (setBuilder_live (.defHash f) rfl rfl)
  | raw name f flags doc => exact hlive (pushMethod_live env.grow rfl rfl (fun _ => rfl))
  | initOnce =>
    refine Triple.pure (fun s hs => LiveAt.snoc ?_ hs.2)
    rw [hs.1]
    unfold declaredClass
    simp [ClassOp.method, ClassOp.getset]
  | defInit f specs =>
    apply unlessCreated_live hnone
    intro w
    refine Triple.bind ?_ (fun _ => setBuilder_live (.defInit f specs) rfl rfl)
    exact (hkeep (fillKwSpec_stable hstable trivial _ env.kw specs)).strengthen (fun _ h => h.1)

lemma runOp_defInit {J K E : World T F × Builder F → Prop} {t : T} {qualifiedName : String}
    {done : List (ClassOp F)} {env : OpEnv} {f : F} {specs : ArgSpecs}
    (hJ : ∀ b, Stable (fun _ => False) (fun _ => False) (fun w => J (w, b))) (hE : ∀ s, J s → E s)
    (hfill : ∀ b, Triple (fun w => J (w, b)) (fillKwSpec f qualifiedName env.kw specs)
      (fun _ w => K (w, { b with init := some f })) (fun _ w => E (w, b))) :
    Triple (fun s => LiveAt t qualifiedName done s ∧ J s) (runOp t env (.defInit f specs)) (fun _ => K)
      (fun _ => E) := by
  have hclass : Stable (fun _ : F => False) (fun _ => False)
      (fun w : World T F => w.classes t = declaredClass qualifiedName done) :=
    ⟨fun _ _ h => h, fun _ _ _ h => h, fun w _ hC h => (hC t not_false).trans h⟩
  unfold runOp
  refine Triple.bind (M := fun _ (s : World T F × Builder F) =>
    s.1.classes t = declaredClass qualifiedName done ∧ J s) ?_ (fun _ => ?_)
  · apply Triple.lift
    intro b
    exact (consumerCode_stable (hclass.and (hJ b)) _).weaken (fun _ h => ⟨h.1.1, h.2⟩) (fun _ _ h => h)
      (fun _ _ h => hE _ h.2)
  · apply unlessCreated_live (fun s hs => by rw [hs.1]; rfl)
    intro w
    refine Triple.assume (c := (w.classes t).name = qualifiedName) ?_ (fun hname => ?_)
    · rintro s ⟨hs, rfl⟩
      rw [hs.1]
      rfl
    · rw [hname]
      refine Triple.bind (M := fun _ (s : World T F × Builder F) => K (s.1, { s.2 with init := some f })) ?_
        (fun _ => Triple.modify (fun _ h => h))
      exact Triple.lift (fun b => (hfill b).strengthen (fun _ h => h.1.2))

lemma runChain_live (t : T) (qualifiedName : String) (done chain : List (ClassOp F)) (env : ℕ → OpEnv) :
    Triple (LiveAt t qualifiedName done) (runChain t env chain)
      (fun _ => LiveAt t qualifiedName (done ++ chain)) (fun _ s => (s.1.classes t).type = none) := by
  induction chain generalizing done env with
  | nil =>
    rw [List.append_nil]
    exact Triple.pure (fun _ h => h)
  | cons op rest ih =>
    have hrest := ih (done ++ [op]) (fun i => env (i + 1))
    rw [List.append_assoc, List.singleton_append] at hrest
    exact Triple.bind (runOp_live t qualifiedName done (env 0) op) (fun _ => hrest)

/-- What each call of a live chain carries on, the whole chain carries on; `E` holds where a call throws. -/
lemma runChain_live_with {X : List (ClassOp F) → World T F × Builder F → Prop} {E : World T F × Builder F → Prop}
    (t : T) (qualifiedName : String) (env : ℕ → OpEnv) (chain : List (ClassOp F))
    (hop : ∀ done op rest, chain = done ++ op :: rest →
      Triple (fun s => LiveAt t qualifiedName done s ∧ X done s) (runOp t (env done.length) op)
        (fun _ => X (done ++ [op])) (fun _ => E)) :
    Triple (fun s => LiveAt t qualifiedName [] s ∧ X [] s) (runChain t env chain) (fun _ => X chain)
      (fun _ => E) := by
  have hrest : ∀ rest done, chain = done ++ rest → ∀ env', (env' = fun i => env (done.length + i)) →
      Triple (fun s => LiveAt t qualifiedName done s ∧ X done s) (runChain t env' rest) (fun _ => X chain)
        (fun _ => E) := by
    intro rest
    induction rest with
    | nil =>
      intro done hchain env' _
      rw [List.append_nil] at hchain
      rw [hchain]
      exact Triple.pure (fun _ h => h.2)
    | cons op rest ih =>
      intro done hchain env' henv
      subst henv
      have hstep := (runOp_live t qualifiedName done (env done.length) op).both (hop done op rest hchain)
      unfold runChain
      refine Triple.bind (M := fun _ s => LiveAt t qualifiedName (done ++ [op]) s ∧ X (done ++ [op]) s) ?_ (fun _ => ?_)
      · exact hstep.weaken (fun _ h => ⟨h.1, h⟩) (fun _ _ h => h) (fun _ _ h => h.2)
      · refine ih (done ++ [op]) (by rw [hchain, List.append_assoc]; rfl) _ (funext (fun i => ?_))
        rw [List.length_append, List.length_singleton, Nat.add_assoc, Nat.add_comm 1 i]
  exact hrest chain [] rfl env (funext (fun i => by rw [List.length_nil, Nat.zero_add]))

/-! ### Inert chains -/

lemma runOp_inert {I : World T F → Prop} (hI : Stable (fun _ => False) (fun _ => False) I) (t : T)
    (hexists : ∀ w, I w → (w.classes t).type.isSome) (env : OpEnv) (op : ClassOp F) :
    Keeps (fun s => I s.1) (runOp t env op) := by
  have hinert : ∀ p : World T F → Chain T F Unit, Keeps (fun s => I s.1) (unlessCreated t p) := by
    intro p
    unfold unlessCreated
    apply Triple.get
    intro s₀
    refine Triple.assume (c := (s₀.1.classes t).type.isSome) ?_ (fun hsome => ?_)
    · rintro s ⟨rfl, hs⟩
      exact hexists _ hs
    · rw [if_pos hsome]
      exact Triple.pure (fun _ h => h.2)
  unfold runOp
  apply Triple.bind (consumerCode_stable hI env.throws).lift
  intro _
  cases op with
  | defMethod f name doc => exact hinert _
  | defPropRo f name doc => exact hinert _
  | defRepr f => exact hinert _
  | defRichcompare f => exact hinert _
  | defHash f => exact hinert _
  | raw name f flags doc => exact hinert _
  | initOnce => exact Triple.pure (fun _ h => h)
  | defInit f specs => exact hinert _

lemma runChain_inert {I : World T F → Prop} (hI : Stable (fun _ => False) (fun _ => False) I) (t : T)
    (hexists : ∀ w, I w → (w.classes t).type.isSome) (env : ℕ → OpEnv) (chain : List (ClassOp F)) :
    Keeps (fun s => I s.1) (runChain t env chain) := by
  induction chain generalizing env with
  | nil => exact Triple.pure (fun _ h => h)
  | cons op rest ih =>
    exact Triple.bind (M := fun _ (s : World T F × Builder F) => I s.1) (runOp_inert hI t hexists (env 0) op)
      (fun _ => ih _)

end Live

/-! ### The destructor -/

def World.withClass [DecidableEq T] (w : World T F) (t : T) (c : ClassStatics F) : World T F :=
  { w with classes := Function.update w.classes t c }

/-- Every step by which the destructor makes the type succeeds. -/
def FinishEnv.succeeds (env : FinishEnv) : Bool :=
  !env.methods && !env.getsets && !env.typeFromSpec && !env.addObject

def ClassStatics.terminated (c : ClassStatics F) : ClassStatics F :=
  { c with methods := c.methods ++ [.terminator], getsets := c.getsets ++ [.terminator] }

lemma declaredMethods_named (chain : List (ClassOp F)) :
    ∀ entry ∈ declaredMethods chain, entry.mlName.isSome := by
  intro entry hentry
  obtain ⟨op, -, hop⟩ := List.mem_filterMap.mp hentry
  cases op <;> simp only [ClassOp.method, reduceCtorEq, Option.some.injEq] at hop
  · rw [← hop]
    rfl
  · rw [← hop]
    rfl

lemma declaredGetsets_named (chain : List (ClassOp F)) : ∀ entry ∈ declaredGetsets chain, entry.name.isSome := by
  intro entry hentry
  obtain ⟨op, -, hop⟩ := List.mem_filterMap.mp hentry
  cases op <;> simp only [ClassOp.getset, reduceCtorEq, Option.some.injEq] at hop
  rw [← hop]
  rfl

lemma typeFromSpec_tables (qualifiedName : String) (chain : List (ClassOp F)) (b : Builder F) :
    (typeFromSpec (declaredClass qualifiedName chain).terminated b).methods = declaredMethods chain ∧
      (typeFromSpec (declaredClass qualifiedName chain).terminated b).getsets = declaredGetsets chain := by
  have hmethods : (declaredMethods chain ++ [MethodDef.terminator]).takeWhile (fun entry => entry.mlName.isSome) =
      declaredMethods chain ++ [MethodDef.terminator].takeWhile (fun entry => entry.mlName.isSome) :=
    List.takeWhile_append_of_pos (declaredMethods_named chain)
  have hgetsets : (declaredGetsets chain ++ [GetSetDef.terminator]).takeWhile (fun entry => entry.name.isSome) =
      declaredGetsets chain ++ [GetSetDef.terminator].takeWhile (fun entry => entry.name.isSome) :=
    List.takeWhile_append_of_pos (declaredGetsets_named chain)
  exact ⟨hmethods.trans (List.append_nil _), hgetsets.trans (List.append_nil _)⟩

section Finish

variable [DecidableEq T]

@[simp] lemma withClass_self (w : World T F) (t : T) (c : ClassStatics F) : (w.withClass t c).classes t = c :=
  Function.update_self _ _ _

lemma withClass_of_ne (w : World T F) {t t' : T} (h : t' ≠ t) (c : ClassStatics F) :
    (w.withClass t c).classes t' = w.classes t' := Function.update_of_ne h _ _

lemma setClass_withClass (w : World T F) (t : T) (c : ClassStatics F) (g : ClassStatics F → ClassStatics F) :
    setClass t g (w.withClass t c) = w.withClass t (g c) := by
  unfold setClass World.withClass
  dsimp only
  rw [Function.update_self, Function.update_idem]

lemma setClass_eq (w : World T F) (t : T) (g : ClassStatics F → ClassStatics F) :
    setClass t g w = w.withClass t (g (w.classes t)) := rfl

lemma setClass_err (w : World T F) (t : T) (g : ClassStatics F → ClassStatics F) (err : PyErr) :
    setClass t g (w.err err) = (setClass t g w).err err := rfl

lemma pushTerminators_ok {env : FinishEnv} (hm : env.methods = false) (hg : env.getsets = false) (t : T)
    (w : World T F) : pushTerminators t env w = (.ok true, w.withClass t (w.classes t).terminated) := by
  unfold pushTerminators
  rw [hm, hg]
  apply Prog.run_attempt_ok
  rw [Prog.run_bind_ok (grow_ok _ w), Prog.run_bind_ok (grow_ok _ _), setClass_eq w, setClass_withClass]
  rfl

/-- A destructor that cannot make the type leaves an error, and no type. -/
def NotMade (t : T) (w s : World T F) : Prop :=
  ∃ c err, c.type = none ∧ s = (w.withClass t c).err err

lemma pushTerminators_fails {env : FinishEnv} (h : env.methods = true ∨ env.getsets = true) {t : T} {w : World T F}
    (hnone : (w.classes t).type = none) :
    ∃ s, pushTerminators t env w = (.ok false, s) ∧ NotMade t w s := by
  unfold pushTerminators
  cases hm : env.methods with
  | true =>
    rw [Prog.run_attempt_error (Prog.run_bind_error (grow_fails _ w))]
    refine ⟨_, rfl, w.classes t, .memoryError, hnone, ?_⟩
    unfold World.withClass
    rw [Function.update_eq_self]
    rfl
  | false =>
    have hg : env.getsets = true := by simpa [hm] using h
    have hrun : ∀ q : Unit → Import T F Bool, (grow false (setClass t fun c => { c with
        methods := c.methods ++ [.terminator] }) >>= fun _ => grow true (setClass t fun c => { c with
        getsets := c.getsets ++ [.terminator] }) >>= q) w = (.error .badAlloc, { w.withClass t { w.classes t with
        methods := (w.classes t).methods ++ [.terminator] } with failed := true }) := by
      intro q
      rw [Prog.run_bind_ok (grow_ok _ w), Prog.run_bind_error (grow_fails _ _)]
      rfl
    rw [hg, Prog.run_attempt_error (hrun _)]
    exact ⟨_, rfl, { w.classes t with methods := (w.classes t).methods ++ [.terminator] }, .memoryError, hnone, rfl⟩

/-- The statics and the module after the type has been made. -/
def World.made (w : World T F) (t : T) (b : Builder F) : World T F :=
  (w.withClass t { (w.classes t).terminated with type := some (typeFromSpec (w.classes t).terminated b) }).setAttr
    (attrName (w.classes t).name) (.type (typeFromSpec (w.classes t).terminated b))

lemma createType_spec (env : FinishEnv) (b : Builder F) {t : T} {w : World T F} {c : ClassStatics F}
    (hnone : c.type = none) :
    ∃ s, createType t env b (w.withClass t c) = (.ok (), s) ∧
      ((env.typeFromSpec = false ∧ env.addObject = false ∧
        s = (w.withClass t { c with type := some (typeFromSpec c b) }).setAttr (attrName c.name)
          (.type (typeFromSpec c b))) ∨
        ((env.typeFromSpec = true ∨ env.addObject = true) ∧ NotMade t w s)) := by
  unfold createType
  cases htype : env.typeFromSpec with
  | true => exact ⟨_, rfl, .inr ⟨.inl rfl, c, .foreign, hnone, rfl⟩⟩
  | false =>
    rw [if_neg Bool.false_ne_true, Prog.run_get_bind, withClass_self, Prog.run_modify_bind, setClass_withClass]
    unfold addObjectRef
    cases hadd : env.addObject with
    | false => exact ⟨_, rfl, .inl ⟨rfl, rfl, rfl⟩⟩
    | true =>
      refine ⟨(w.withClass t c).err .foreign, ?_, .inr ⟨.inr rfl, c, .foreign, hnone, rfl⟩⟩
      have hclear : setClass t (fun c => { c with type := none })
          ((w.withClass t { c with type := some (typeFromSpec c b) }).err .foreign) =
            (w.withClass t c).err .foreign := by
        rw [setClass_err, setClass_withClass, ← hnone]
      exact congrArg (Prod.mk (Except.ok ())) hclear

/-- The destructor of a live chain makes the type, or leaves an error and no type. -/
lemma finishType_live (env : FinishEnv) (b : Builder F) {t : T} {w : World T F} (hnone : (w.classes t).type = none) :
    ∃ s, finishType t env b w = (.ok (), s) ∧
      ((env.succeeds = true ∧ s = w.made t b) ∨ (env.succeeds = false ∧ NotMade t w s)) := by
  unfold finishType FinishEnv.succeeds
  rw [Prog.run_get_bind, hnone]
  dsimp only
  by_cases hpush : env.methods = true ∨ env.getsets = true
  · obtain ⟨s, hrun, hs⟩ := pushTerminators_fails hpush hnone
    rw [Prog.run_bind_ok hrun]
    refine ⟨s, rfl, .inr ⟨?_, hs⟩⟩
    rcases hpush with h | h
    · simp [h]
    · simp [h]
  · obtain ⟨hm, hg⟩ := not_or.mp hpush
    rw [Prog.run_bind_ok (pushTerminators_ok (Bool.eq_false_iff.mpr hm) (Bool.eq_false_iff.mpr hg) t w), if_pos rfl]
    obtain ⟨s, hrun, hs⟩ := createType_spec (t := t) (w := w) (c := (w.classes t).terminated) env b hnone
    refine ⟨s, hrun, ?_⟩
    rcases hs with ⟨htype, hadd, hs⟩ | ⟨hfail, hs⟩
    · exact .inl ⟨by simp [hm, hg, htype, hadd], hs⟩
    · refine .inr ⟨?_, hs⟩
      rcases hfail with h | h
      · simp [h]
      · simp [h]

lemma finish_unfinished {env : FinishEnv} {t : T} {s : World T F × Builder F} (h : s.2.finished = false) :
    (finish t env s).2.1 = (finishType t env s.2 s.1).2 := by
  unfold finish
  rw [Prog.run_get_bind, h]
  rfl

variable [DecidableEq F]

lemma runChain_unfinished (t : T) (env : ℕ → OpEnv) (chain : List (ClassOp F)) :
    Keeps (fun s : World T F × Builder F => s.2.finished = false) (runChain t env chain) := by
  have hstable : ∀ b : Builder F,
      Stable (fun _ : F => True) (fun _ : T => True) (fun _ : World T F => b.finished = false) :=
    fun _ => ⟨fun _ _ h => h, fun _ _ _ h => h, fun _ _ _ h => h⟩
  induction chain generalizing env with
  | nil => exact Triple.pure (fun _ h => h)
  | cons op rest ih =>
    refine Triple.bind (M := fun _ (s : World T F × Builder F) => s.2.finished = false) ?_ (fun _ => ih _)
    apply runOp_keeps hstable trivial (env 0) op (fun _ _ => trivial)
    intro w b h
    cases op <;> exact h

lemma typeChain_run (t : T) (qualifiedName : String) (chain : List (ClassOp F)) (op : ℕ → OpEnv)
    (last : FinishEnv) (w : World T F) :
    typeChain t qualifiedName chain op last w =
      ((runChain t op chain (classCtor t qualifiedName w, .empty)).1,
        (finishType t last (runChain t op chain (classCtor t qualifiedName w, .empty)).2.2
          (runChain t op chain (classCtor t qualifiedName w, .empty)).2.1).2) := by
  have hunfinished : (runChain t op chain (classCtor t qualifiedName w, .empty)).2.2.finished = false := by
    have hout := runChain_unfinished t op chain (classCtor t qualifiedName w, .empty) rfl
    generalize runChain t op chain (classCtor t qualifiedName w, .empty) = r at hout ⊢
    rcases r with ⟨e | a, s⟩
    · exact hout
    · exact hout
  rw [← finish_unfinished hunfinished]
  rfl

end Finish

end SciForge.Binding
