import SciForge.Binding.Types
import SciForge.Lib.Machine

/-!
# Builders over the life of a process

Any number of builders, constructed, called and finished in any order over any number of imports. The registry of a
type is frozen while the type exists; and a type whose builders never overlap was made from what its own builder
added.
-/

namespace SciForge.Binding

/-- A builder between its construction and its destructor. -/
structure Session (T F : Type) where
  type : T
  builder : Builder F

structure Builders (T F : Type) where
  world : World T F
  sessions : ℕ → Option (Session T F)

/-- What an import, or a call, does to the statics beside the registries of the wrapped types. -/
structure Elsewhere (T F : Type) where
  change : World T F → World T F
  classes : ∀ w, (change w).classes = w.classes

inductive BuilderEvent (T F : Type)
  | construct (id : ℕ) (t : T) (qualifiedName : String)
  | call (id : ℕ) (env : OpEnv) (op : ClassOp F)
  | finish (id : ℕ) (env : FinishEnv)
  | elsewhere (e : Elsewhere T F)

variable {T F : Type}

namespace Builders

def initial : Builders T F := ⟨.initial, fun _ => none⟩

/-- One event. The destructor is the only one to finish a builder, and the last to touch it; an exception that a call
throws leaves the builder to its destructor. -/
def step [DecidableEq T] [DecidableEq F] (p : Builders T F) : BuilderEvent T F → Option (Builders T F)
  | .construct id t qualifiedName =>
    if (p.sessions id).isSome then none
    else some ⟨classCtor t qualifiedName p.world, Function.update p.sessions id (some ⟨t, .empty⟩)⟩
  | .call id env op =>
    (p.sessions id).map (fun session =>
      let after := (runOp session.type env op (p.world, session.builder)).2
      ⟨after.1, Function.update p.sessions id (some ⟨session.type, after.2⟩)⟩)
  | .finish id env =>
    (p.sessions id).map (fun session =>
      ⟨(finish session.type env (p.world, session.builder)).2.1, Function.update p.sessions id none⟩)
  | .elsewhere e => some ⟨e.change p.world, p.sessions⟩

end Builders

open Builders (step)

/-! ### What a builder adds -/

/-- The call reached its table, and the table grew. -/
def OpEnv.adds (env : OpEnv) : Bool := env.throws.isNone && !env.grow

/-- The calls on builder `id` since its construction that added what they add. -/
def ownCalls (id : ℕ) (events : List (BuilderEvent T F)) : List (ClassOp F) :=
  events.foldl (fun calls event =>
    match event with
    | .construct id' _ _ => if id' = id then [] else calls
    | .call id' env op => if id' = id ∧ env.adds then calls ++ [op] else calls
    | _ => calls) []

/-- The name builder `id` was constructed with. -/
def ownName (id : ℕ) (events : List (BuilderEvent T F)) : String :=
  events.foldl (fun name event =>
    match event with
    | .construct id' _ qualifiedName => if id' = id then qualifiedName else name
    | _ => name) ""

/-- No builder of `t` is constructed while another is alive. -/
def NoOverlap (t : T) (p : Builders T F) : BuilderEvent T F → Prop
  | .construct _ t' _ => t' = t → ∀ id session, p.sessions id = some session → session.type ≠ t
  | _ => True

/-- The tables hold the entries that the builder which made the type added, in order, and one terminator. -/
structure MadeBy [DecidableEq T] [DecidableEq F] (t : T) (events : List (BuilderEvent T F)) (c : ClassStatics F)
    (before : List (BuilderEvent T F)) (id : ℕ) (p : Builders T F) : Prop where
  earlier : ∃ env after, events = before ++ .finish id env :: after
  run : Machine.run step .initial before = some p
  absent : (p.world.classes t).type = none
  own : ∃ session, p.sessions id = some session ∧ session.type = t
  name : c.name = ownName id before
  methods : c.methods = declaredMethods (ownCalls id before) ++ [.terminator]
  getsets : c.getsets = declaredGetsets (ownCalls id before) ++ [.terminator]
  type : ∃ type, c.type = some type ∧ type.name = ownName id before ∧
    type.methods = declaredMethods (ownCalls id before) ∧ type.getsets = declaredGetsets (ownCalls id before)

/-! ### The effect of one call on the registry -/

section

variable [DecidableEq T] {t : T}

/-- The registry after a call that adds what its outcome lets it add. -/
def ClassStatics.add (c : ClassStatics F) (env : OpEnv) (op : ClassOp F) : ClassStatics F :=
  { c with
    methods := c.methods ++ if env.adds then op.method.toList else []
    getsets := c.getsets ++ if env.adds then op.getset.toList else [] }

lemma add_none {c : ClassStatics F} {env : OpEnv} {op : ClassOp F} (h : env.adds = false) : c.add env op = c := by
  unfold ClassStatics.add
  rw [h, if_neg Bool.false_ne_true, if_neg Bool.false_ne_true, List.append_nil, List.append_nil]

lemma add_same {c : ClassStatics F} {env : OpEnv} {op : ClassOp F} (hmethod : op.method = none)
    (hgetset : op.getset = none) : c.add env op = c := by
  unfold ClassStatics.add
  simp only [hmethod, hgetset, Option.toList_none, ite_self, List.append_nil]

lemma grow_add {c : ClassStatics F} {env : OpEnv} {op : ClassOp F} (hthrows : env.throws = none)
    {g : ClassStatics F → ClassStatics F} (hg : env.adds = true → g c = c.add env op) :
    Triple (fun s : World T F × Builder F => s.1.classes t = c) (Prog.lift (grow env.grow (setClass t g)))
      (fun _ s => s.1.classes t = c.add env op) (fun _ s => s.1.classes t = c.add env op) := by
  intro s hs
  have hadds : env.adds = !env.grow := by
    unfold OpEnv.adds
    rw [hthrows]
    rfl
  cases hgrow : env.grow with
  | true =>
    rw [hgrow] at hadds
    change s.1.classes t = c.add env op
    rw [hs, add_none hadds]
  | false =>
    rw [hgrow] at hadds
    change (setClass t g s.1).classes t = c.add env op
    rw [setClass_eq, withClass_self, hs, hg hadds]

variable [DecidableEq F]

lemma runOp_class {c : ClassStatics F} (hc : c.type = none) (env : OpEnv) (op : ClassOp F)
    {s : World T F × Builder F} (hs : s.1.classes t = c) : (runOp t env op s).2.1.classes t = c.add env op := by
  have hstable : Stable (fun _ : F => True) (fun _ => False) (fun w : World T F => w.classes t = c) :=
    ⟨fun _ _ h => h, fun _ _ _ h => h, fun w _ hC h => (hC t not_false).trans h⟩
  have hnone : ∀ s : World T F × Builder F, s.1.classes t = c → (s.1.classes t).type = none := by
    intro s hs
    rw [hs]
    exact hc
  have hlive : ∀ {p : World T F → Chain T F Unit},
      (∀ w, Triple (fun s => s.1.classes t = c) (p w) (fun _ s => s.1.classes t = c.add env op)
        (fun _ s => s.1.classes t = c.add env op)) →
      (unlessCreated t p s).2.1.classes t = c.add env op :=
    fun hp => outcome_same.mp (unlessCreated_live hnone (fun w => (hp w).strengthen (fun _ h => h.1)) s hs)
  have hslot : ∀ {g : Builder F → Builder F}, op.method = none → op.getset = none →
      Triple (fun s : World T F × Builder F => s.1.classes t = c) (setBuilder g)
        (fun _ s => s.1.classes t = c.add env op) (fun _ s => s.1.classes t = c.add env op) :=
    fun hmethod hgetset => Triple.modify (fun _ h => h.trans (add_same hmethod hgetset).symm)
  unfold runOp
  cases hthrows : env.throws with
  | some throws =>
    have hadds : env.adds = false := by
      unfold OpEnv.adds
      rw [hthrows]
      rfl
    rw [add_none hadds]
    exact hs
  | none =>
    have hreturns : (Prog.lift (consumerCode none) : Chain T F Unit) s = (.ok (), s) := rfl
    rw [Prog.run_bind_ok hreturns]
    cases op with
    | defMethod f name doc => exact hlive (fun _ => grow_add hthrows (fun hadds => by
        simp [ClassStatics.add, hadds, ClassOp.method, ClassOp.getset]))
    | defPropRo f name doc => exact hlive (fun _ => grow_add hthrows (fun hadds => by
        simp [ClassStatics.add, hadds, ClassOp.method, ClassOp.getset]))
    | defRepr f => exact hlive (fun _ => hslot rfl rfl)
    | defRichcompare f => exact hlive (fun _ => hslot rfl rfl)
    | defHash f => exact hlive (fun _ => hslot rfl rfl)
    | raw name f flags doc => exact hlive (fun _ => grow_add hthrows (fun hadds => by
        simp [ClassStatics.add, hadds, ClassOp.method, ClassOp.getset]))
    | initOnce => exact hs.trans (add_same rfl rfl).symm
    | defInit f specs =>
      refine hlive (fun w => Triple.bind (M := fun _ s => s.1.classes t = c) ?_ (fun _ => hslot rfl rfl))
      refine Triple.lift (fun b => ?_)
      refine (fillKwSpec_stable hstable trivial _ env.kw specs).weaken (fun _ h => h) (fun _ _ h => h) (fun _ _ h => ?_)
      exact h.trans (add_same rfl rfl).symm

/-! ### A registry is frozen while its type exists -/

lemma runOp_other {t' : T} (hne : t ≠ t') (env : OpEnv) (op : ClassOp F) (s : World T F × Builder F) :
    (runOp t' env op s).2.1.classes t = s.1.classes t := by
  have hstable : Stable (fun _ : F => True) (fun u => u = t') (fun w : World T F => w.classes t = s.1.classes t) :=
    ⟨fun _ _ h => h, fun _ _ _ h => h, fun w _ hC h => (hC t hne).trans h⟩
  have hkeeps : Keeps (fun s' : World T F × Builder F => s'.1.classes t = s.1.classes t) (runOp t' env op) :=
    runOp_keeps (C := fun u => u = t') (fun _ => hstable) rfl env op (fun _ _ => trivial) (fun _ _ h => h)
  exact outcome_same.mp (hkeeps s rfl)

omit [DecidableEq F] in
lemma finish_other {t' : T} (hne : t ≠ t') (env : FinishEnv) (s : World T F × Builder F) :
    (finish t' env s).2.1.classes t = s.1.classes t := by
  have hstable : StableFinish t' (fun w : World T F => w.classes t = s.1.classes t) :=
    ⟨fun _ _ h => h, fun w g h => (Function.update_of_ne hne _ _).trans h, fun _ _ _ h => h⟩
  exact hstable.finish_run env rfl

omit [DecidableEq F] in
lemma finish_live {s : World T F × Builder F} (hlive : (s.1.classes t).type.isSome) (env : FinishEnv) :
    (finish t env s).2.1.classes = s.1.classes := by
  obtain ⟨type, htype⟩ := Option.isSome_iff_exists.mp hlive
  unfold finish
  rw [Prog.run_get_bind]
  cases s.2.finished with
  | true => rfl
  | false =>
    change (finishType t env s.2 s.1).2.classes = s.1.classes
    unfold finishType
    rw [Prog.run_get_bind, htype]
    unfold addObjectRef
    cases env.addObject <;> rfl

omit [DecidableEq F] in
lemma finish_makes {env : FinishEnv} {w : World T F} {b : Builder F} (hunfinished : b.finished = false)
    (hnone : (w.classes t).type = none) (hlive : ((finish t env (w, b)).2.1.classes t).type.isSome) :
    (finish t env (w, b)).2.1.classes t =
      { (w.classes t).terminated with type := some (typeFromSpec (w.classes t).terminated b) } := by
  obtain ⟨s, hfinish, hs⟩ := finishType_live env b hnone
  rw [finish_unfinished hunfinished, hfinish] at hlive ⊢
  rcases hs with ⟨-, rfl⟩ | ⟨-, c, err, hcnone, rfl⟩
  · exact withClass_self _ _ _
  · change ((w.withClass t c).classes t).type.isSome at hlive
    rw [withClass_self, hcnone] at hlive
    cases hlive

omit [DecidableEq F] in
lemma classCtor_class (t' : T) (qualifiedName : String) {w : World T F}
    (h : t = t' → (w.classes t).type.isSome) : (classCtor t' qualifiedName w).classes t = w.classes t := by
  unfold classCtor
  split
  · rfl
  · next hnone =>
    refine Function.update_of_ne ?_ _ _
    rintro rfl
    exact hnone (h rfl)

/-- No event changes the registry of a type that exists. -/
lemma step_frozen {p p' : Builders T F} {event : BuilderEvent T F} (hlive : (p.world.classes t).type.isSome)
    (hstep : step p event = some p') : p'.world.classes t = p.world.classes t := by
  cases event with
  | construct id t' qualifiedName =>
    rw [step, Option.ite_none_left_eq_some] at hstep
    obtain ⟨-, hp'⟩ := hstep
    rw [← Option.some.inj hp']
    exact classCtor_class t' qualifiedName (fun _ => hlive)
  | call id env op =>
    obtain ⟨session, -, rfl⟩ := Option.map_eq_some_iff.mp hstep
    by_cases he : t = session.type
    · have hstable : Stable (fun _ : F => False) (fun _ => False)
          (fun w : World T F => w.classes t = p.world.classes t) :=
        ⟨fun _ _ h => h, fun _ _ _ h => h, fun w _ hC h => (hC t not_false).trans h⟩
      have hexists : ∀ w : World T F, w.classes t = p.world.classes t → (w.classes session.type).type.isSome := by
        intro w hw
        rw [← he, hw]
        exact hlive
      exact outcome_same.mp (runOp_inert hstable session.type hexists env op (p.world, session.builder) rfl)
    · exact runOp_other he env op (p.world, session.builder)
  | finish id env =>
    obtain ⟨session, -, rfl⟩ := Option.map_eq_some_iff.mp hstep
    by_cases he : t = session.type
    · rw [he] at hlive
      exact congrFun (finish_live (s := (p.world, session.builder)) hlive env) t
    · exact finish_other he env (p.world, session.builder)
  | elsewhere e =>
    rw [← Option.some.inj hstep]
    exact congrFun (e.classes p.world) t

lemma run_frozen {p p' : Builders T F} {events : List (BuilderEvent T F)} (hlive : (p.world.classes t).type.isSome)
    (hrun : Machine.run step p events = some p') : p'.world.classes t = p.world.classes t := by
  have hkept : ∀ q event q', q.world.classes t = p.world.classes t → True → step q event = some q' →
      q'.world.classes t = p.world.classes t := by
    intro q event q' hq _ hstep
    rw [← hq] at hlive
    exact (step_frozen hlive hstep).trans hq
  exact Machine.run_invariant hkept rfl (Machine.meets_of_forall (fun _ _ => trivial) events p) hrun

/-! ### What a type was made from -/

/-- Along a run without overlap: a builder of `t` is alone, its tables hold what it added while the type does not
exist, and a type that exists was made so. -/
structure Tracked (t : T) (events : List (BuilderEvent T F)) (p : Builders T F) : Prop where
  alone : ∀ id id' session session', p.sessions id = some session → p.sessions id' = some session' →
    session.type = t → session'.type = t → id = id'
  unfinished : ∀ id session, p.sessions id = some session → session.builder.finished = false
  building : ∀ id session, p.sessions id = some session → session.type = t → (p.world.classes t).type = none →
    p.world.classes t = declaredClass (ownName id events) (ownCalls id events)
  made : (p.world.classes t).type.isSome → ∃ before id p₀, MadeBy t events (p.world.classes t) before id p₀

lemma tracked_initial : Tracked t [] (Builders.initial : Builders T F) :=
  ⟨fun _ _ _ _ h => (nomatch h), fun _ _ h => (nomatch h), fun _ _ h => (nomatch h), fun h => (nomatch h)⟩

lemma MadeBy.later {events : List (BuilderEvent T F)} {c : ClassStatics F} {before : List (BuilderEvent T F)} {id : ℕ}
    {p : Builders T F} (h : MadeBy t events c before id p) (event : BuilderEvent T F) :
    MadeBy t (events ++ [event]) c before id p := by
  obtain ⟨env, after, hevents⟩ := h.earlier
  refine ⟨⟨env, after ++ [event], ?_⟩, h.run, h.absent, h.own, h.name, h.methods, h.getsets, h.type⟩
  rw [hevents, List.append_assoc, List.cons_append]

omit [DecidableEq T] [DecidableEq F] in
lemma ownCalls_append (id : ℕ) (events : List (BuilderEvent T F)) (event : BuilderEvent T F) :
    ownCalls id (events ++ [event]) = match event with
      | .construct id' _ _ => if id' = id then [] else ownCalls id events
      | .call id' env op => if id' = id ∧ env.adds then ownCalls id events ++ [op] else ownCalls id events
      | _ => ownCalls id events := by
  unfold ownCalls
  rw [List.foldl_append]
  rfl

omit [DecidableEq T] [DecidableEq F] in
lemma ownName_append (id : ℕ) (events : List (BuilderEvent T F)) (event : BuilderEvent T F) :
    ownName id (events ++ [event]) = match event with
      | .construct id' _ qualifiedName => if id' = id then qualifiedName else ownName id events
      | _ => ownName id events := by
  unfold ownName
  rw [List.foldl_append]
  rfl

omit [DecidableEq T] [DecidableEq F] in
lemma update_cases {sessions : ℕ → Option (Session T F)} {id id' : ℕ} {v : Option (Session T F)} {session : Session T F}
    (h : Function.update sessions id v id' = some session) :
    (id' = id ∧ v = some session) ∨ (id' ≠ id ∧ sessions id' = some session) := by
  by_cases he : id' = id
  · rw [he, Function.update_self] at h
    exact .inl ⟨he, h⟩
  · rw [Function.update_of_ne he] at h
    exact .inr ⟨he, h⟩

omit [DecidableEq T] [DecidableEq F] in
lemma alone_update {sessions : ℕ → Option (Session T F)} {id : ℕ} {v : Option (Session T F)}
    (halone : ∀ id id' session session', sessions id = some session → sessions id' = some session' →
      session.type = t → session'.type = t → id = id')
    (hv : ∀ session, v = some session → session.type = t → ∀ id' session', id' ≠ id → sessions id' = some session' →
      session'.type ≠ t)
    (id₁ id₂ : ℕ) (session₁ session₂ : Session T F) (h₁ : Function.update sessions id v id₁ = some session₁)
    (h₂ : Function.update sessions id v id₂ = some session₂) (ht₁ : session₁.type = t) (ht₂ : session₂.type = t) :
    id₁ = id₂ := by
  rcases update_cases h₁ with ⟨rfl, hnew₁⟩ | ⟨hne₁, hold₁⟩
  · rcases update_cases h₂ with ⟨rfl, -⟩ | ⟨hne₂, hold₂⟩
    · rfl
    · exact absurd ht₂ (hv session₁ hnew₁ ht₁ id₂ session₂ hne₂ hold₂)
  · rcases update_cases h₂ with ⟨rfl, hnew₂⟩ | ⟨-, hold₂⟩
    · exact absurd ht₁ (hv session₂ hnew₂ ht₂ id₁ session₁ hne₁ hold₁)
    · exact halone id₁ id₂ session₁ session₂ hold₁ hold₂ ht₁ ht₂

omit [DecidableEq T] [DecidableEq F] in
lemma add_declared (qualifiedName : String) (calls : List (ClassOp F)) (env : OpEnv) (op : ClassOp F) :
    (declaredClass qualifiedName calls).add env op =
      declaredClass qualifiedName (if env.adds then calls ++ [op] else calls) := by
  cases hadds : env.adds with
  | false =>
    rw [add_none hadds]
    rfl
  | true =>
    unfold ClassStatics.add declaredClass declaredMethods declaredGetsets
    rw [hadds, if_pos rfl, if_pos rfl, if_pos rfl, List.filterMap_append, List.filterMap_append]
    cases op <;> rfl

section Step

variable {events : List (BuilderEvent T F)} {p p' : Builders T F}

lemma Tracked.made_of_none {event : BuilderEvent T F} (h : Tracked t events p) (hstep : step p event = some p')
    (hnone : (p.world.classes t).type = none → (p'.world.classes t).type.isSome →
      ∃ before id p₀, MadeBy t (events ++ [event]) (p'.world.classes t) before id p₀)
    (hlive : (p'.world.classes t).type.isSome) :
    ∃ before id p₀, MadeBy t (events ++ [event]) (p'.world.classes t) before id p₀ := by
  by_cases hbefore : (p.world.classes t).type.isSome
  · rw [step_frozen hbefore hstep]
    obtain ⟨before, id, p₀, hmade⟩ := h.made hbefore
    exact ⟨before, id, p₀, hmade.later event⟩
  · exact hnone (Option.not_isSome_iff_eq_none.mp hbefore) hlive

lemma none_before {event : BuilderEvent T F} (hstep : step p event = some p')
    (hnone : (p'.world.classes t).type = none) : (p.world.classes t).type = none := by
  by_contra hlive
  have hsome := Option.isSome_iff_ne_none.mpr hlive
  rw [step_frozen hsome hstep] at hnone
  exact hlive hnone

lemma Tracked.construct (h : Tracked t events p) {id : ℕ} {t' : T} {qualifiedName : String}
    (hoverlap : NoOverlap t p (.construct id t' qualifiedName))
    (hstep : step p (.construct id t' qualifiedName) = some p') :
    Tracked t (events ++ [.construct id t' qualifiedName]) p' := by
  have hnone := none_before (t := t) hstep
  have hmade := h.made_of_none hstep
  rw [step, Option.ite_none_left_eq_some] at hstep
  obtain ⟨hfree, hp'⟩ := hstep
  obtain rfl := Option.some.inj hp'
  have hctor : (p.world.classes t).type = none → (classCtor t' qualifiedName p.world).classes t =
      if t' = t then declaredClass qualifiedName [] else p.world.classes t := by
    intro hnone
    by_cases he : t' = t
    · subst he
      rw [if_pos rfl, classCtor_live hnone, withClass_self]
    · rw [if_neg he]
      exact classCtor_class t' qualifiedName (fun he' => absurd he'.symm he)
  refine ⟨alone_update h.alone (fun session hnew ht id₁ session₁ _ hold => ?_), fun id₁ session₁ h₁ => ?_,
    fun id₁ session₁ h₁ ht₁ habsent => ?_, hmade (fun hbefore hlive => ?_)⟩
  · obtain rfl := Option.some.inj hnew
    exact hoverlap ht id₁ session₁ hold
  · rcases update_cases h₁ with ⟨-, hnew⟩ | ⟨-, hold⟩
    · obtain rfl := Option.some.inj hnew
      rfl
    · exact h.unfinished id₁ session₁ hold
  · have hbefore := hnone habsent
    change (classCtor t' qualifiedName p.world).classes t = _
    rw [hctor hbefore, ownName_append, ownCalls_append]
    rcases update_cases h₁ with ⟨rfl, hnew⟩ | ⟨hne, hold⟩
    · obtain rfl := Option.some.inj hnew
      rw [if_pos ht₁]
      simp
    · have he : t' ≠ t := fun he => hoverlap he id₁ session₁ hold ht₁
      rw [if_neg he, h.building id₁ session₁ hold ht₁ hbefore]
      simp [Ne.symm hne]
  · change ((classCtor t' qualifiedName p.world).classes t).type.isSome at hlive
    rw [hctor hbefore] at hlive
    split at hlive
    · cases hlive
    · rw [hbefore] at hlive
      cases hlive

lemma Tracked.call (h : Tracked t events p) {id : ℕ} {env : OpEnv} {op : ClassOp F}
    (hstep : step p (.call id env op) = some p') : Tracked t (events ++ [.call id env op]) p' := by
  have hnone := none_before (t := t) hstep
  have hmade := h.made_of_none hstep
  obtain ⟨session, hsession, rfl⟩ := Option.map_eq_some_iff.mp hstep
  have hunfinished : (runOp session.type env op (p.world, session.builder)).2.2.finished = false := by
    have hstable : ∀ b : Builder F,
        Stable (fun _ : F => True) (fun _ : T => True) (fun _ : World T F => b.finished = false) :=
      fun _ => ⟨fun _ _ h => h, fun _ _ _ h => h, fun _ _ _ h => h⟩
    have hkeeps : Keeps (fun s : World T F × Builder F => s.2.finished = false) (runOp session.type env op) :=
      runOp_keeps (C := fun _ => True) hstable trivial env op (fun _ _ => trivial)
        (fun _ b hb => by cases op <;> exact hb)
    exact outcome_same.mp (hkeeps (p.world, session.builder) (h.unfinished id session hsession))
  refine ⟨alone_update h.alone (fun session' hnew ht id₁ session₁ hne hold ht₁ => ?_), fun id₁ session₁ h₁ => ?_,
    fun id₁ session₁ h₁ ht₁ habsent => ?_, hmade (fun hbefore hlive => ?_)⟩
  · obtain rfl := Option.some.inj hnew
    exact hne (h.alone id₁ id session₁ session hold hsession ht₁ ht)
  · rcases update_cases h₁ with ⟨-, hnew⟩ | ⟨-, hold⟩
    · obtain rfl := Option.some.inj hnew
      exact hunfinished
    · exact h.unfinished id₁ session₁ hold
  · have hbefore := hnone habsent
    change (runOp session.type env op (p.world, session.builder)).2.1.classes t = _
    rw [ownName_append, ownCalls_append]
    rcases update_cases h₁ with ⟨rfl, hnew⟩ | ⟨hne, hold⟩
    · obtain rfl := Option.some.inj hnew
      subst ht₁
      have hclass := h.building id₁ session hsession rfl hbefore
      rw [runOp_class rfl env op hclass, add_declared]
      simp
    · have he : t ≠ session.type := fun he => hne (h.alone id₁ id session₁ session hold hsession ht₁ he.symm)
      rw [runOp_other he, h.building id₁ session₁ hold ht₁ hbefore]
      simp [Ne.symm hne]
  · change ((runOp session.type env op (p.world, session.builder)).2.1.classes t).type.isSome at hlive
    by_cases he : t = session.type
    · subst he
      rw [runOp_class hbefore env op rfl] at hlive
      change (p.world.classes session.type).type.isSome at hlive
      rw [hbefore] at hlive
      cases hlive
    · rw [runOp_other he, hbefore] at hlive
      cases hlive

lemma Tracked.finish (h : Tracked t events p) (hrun : Machine.run step .initial events = some p) {id : ℕ}
    {env : FinishEnv} (hstep : step p (.finish id env) = some p') : Tracked t (events ++ [.finish id env]) p' := by
  have hnone := none_before (t := t) hstep
  have hmade := h.made_of_none hstep
  obtain ⟨session, hsession, rfl⟩ := Option.map_eq_some_iff.mp hstep
  have hold : ∀ id₁ session₁, Function.update p.sessions id none id₁ = some session₁ →
      id₁ ≠ id ∧ p.sessions id₁ = some session₁ := by
    intro id₁ session₁ h₁
    rcases update_cases h₁ with ⟨-, hnew⟩ | hold
    · cases hnew
    · exact hold
  refine ⟨alone_update h.alone (fun session' hnew => (nomatch hnew)), fun id₁ session₁ h₁ => ?_,
    fun id₁ session₁ h₁ ht₁ habsent => ?_, hmade (fun hbefore hlive => ?_)⟩
  · exact h.unfinished id₁ session₁ (hold id₁ session₁ h₁).2
  · obtain ⟨hne, hold₁⟩ := hold id₁ session₁ h₁
    have he : t ≠ session.type := fun he => hne (h.alone id₁ id session₁ session hold₁ hsession ht₁ he.symm)
    change (Binding.finish session.type env (p.world, session.builder)).2.1.classes t = _
    rw [finish_other he, h.building id₁ session₁ hold₁ ht₁ (hnone habsent), ownName_append, ownCalls_append]
  · by_cases he : t = session.type
    · subst he
      have hclass := finish_makes (h.unfinished id session hsession) hbefore hlive
      rw [h.building id session hsession rfl hbefore] at hclass
      change ∃ before id p₀, MadeBy session.type _
        ((Binding.finish session.type env (p.world, session.builder)).2.1.classes session.type) before id p₀
      rw [hclass]
      obtain ⟨hmethods, hgetsets⟩ := typeFromSpec_tables (ownName id events) (ownCalls id events) session.builder
      exact ⟨events, id, p, ⟨env, [], rfl⟩, hrun, hbefore, ⟨session, hsession, rfl⟩, rfl, rfl, rfl,
        _, rfl, rfl, hmethods, hgetsets⟩
    · change ((Binding.finish session.type env (p.world, session.builder)).2.1.classes t).type.isSome at hlive
      rw [finish_other he, hbefore] at hlive
      cases hlive

lemma Tracked.elsewhere (h : Tracked t events p) {e : Elsewhere T F} (hstep : step p (.elsewhere e) = some p') :
    Tracked t (events ++ [.elsewhere e]) p' := by
  have hmade := h.made_of_none hstep
  have hclasses : p'.world.classes = p.world.classes := by
    rw [← Option.some.inj hstep]
    exact e.classes p.world
  have hsessions : p'.sessions = p.sessions := by
    rw [← Option.some.inj hstep]
  refine ⟨?_, ?_, fun id session hsession ht habsent => ?_, hmade (fun hbefore hlive => ?_)⟩
  · rw [hsessions]
    exact h.alone
  · rw [hsessions]
    exact h.unfinished
  · rw [hsessions] at hsession
    rw [hclasses] at habsent ⊢
    rw [h.building id session hsession ht habsent, ownName_append, ownCalls_append]
  · rw [hclasses, hbefore] at hlive
    cases hlive

lemma Tracked.step {event : BuilderEvent T F} (h : Tracked t events p)
    (hrun : Machine.run Builders.step .initial events = some p) (hoverlap : NoOverlap t p event)
    (hstep : Builders.step p event = some p') : Tracked t (events ++ [event]) p' := by
  cases event with
  | construct id t' qualifiedName => exact h.construct hoverlap hstep
  | call id env op => exact h.call hstep
  | finish id env => exact h.finish hrun hstep
  | elsewhere e => exact h.elsewhere hstep

end Step

lemma tracked_run {events : List (BuilderEvent T F)} {p : Builders T F}
    (hmeets : Machine.Meets step (NoOverlap t) .initial events) (hrun : Machine.run step .initial events = some p) :
    Tracked t events p :=
  Machine.run_history (fun _ _ _ _ hdone h hoverlap hstep => h.step hdone hoverlap hstep) tracked_initial hmeets hrun

omit [DecidableEq F] in
lemma createType_class (env : FinishEnv) (b : Builder F) (w : World T F) :
    ∃ type, (createType t env b w).2.classes t = { w.classes t with type := type } := by
  have hset : ∀ (w : World T F) (g : ClassStatics F → ClassStatics F), (setClass t g w).classes t = g (w.classes t) :=
    fun w g => withClass_self w t _
  unfold createType
  cases env.typeFromSpec with
  | true => exact ⟨_, rfl⟩
  | false =>
    rw [if_neg Bool.false_ne_true, Prog.run_get_bind, Prog.run_modify_bind]
    have hmade := hset w (fun c => { c with type := some (typeFromSpec (w.classes t) b) })
    unfold addObjectRef
    cases env.addObject with
    | false => exact ⟨_, hmade⟩
    | true =>
      have hdropped := hset
        ((setClass t (fun c => { c with type := some (typeFromSpec (w.classes t) b) }) w).err .foreign)
        (fun c => { c with type := none })
      refine ⟨none, hdropped.trans ?_⟩
      exact congrArg (fun c : ClassStatics F => { c with type := none }) hmade

/-- The registry of a type is frozen while the type exists, whatever the builders and imports do; the destructor
that makes a type leaves the tables it made it from, also when it drops the type again; and a type whose builders
never overlapped was made from the entries of its own builder, in order, and one terminator. -/
theorem tables_frozen (t : T) :
    (∀ (p p' : Builders T F) (events : List (BuilderEvent T F)), (p.world.classes t).type.isSome →
      Machine.run step p events = some p' → p'.world.classes t = p.world.classes t) ∧
    (∀ (env : FinishEnv) (b : Builder F) (w : World T F),
      ∃ type, (createType t env b w).2.classes t = { w.classes t with type := type }) ∧
    ∀ (events : List (BuilderEvent T F)) (p : Builders T F), Machine.Meets step (NoOverlap t) .initial events →
      Machine.run step .initial events = some p → (p.world.classes t).type.isSome →
      ∃ before id p₀, MadeBy t events (p.world.classes t) before id p₀ := by
  exact ⟨fun p p' events hlive hrun => run_frozen hlive hrun, createType_class,
    fun events p hmeets hrun hlive => (tracked_run hmeets hrun).made hlive⟩

/-! ### Imports -/

lemma step_call {w : World T F} {sessions : ℕ → Option (Session T F)} {id : ℕ} {b : Builder F}
    (h : sessions id = some ⟨t, b⟩) (env : OpEnv) (op : ClassOp F) :
    step ⟨w, sessions⟩ (.call id env op) =
      some ⟨(runOp t env op (w, b)).2.1, Function.update sessions id (some ⟨t, (runOp t env op (w, b)).2.2⟩)⟩ :=
  congrArg (Option.map _) h

lemma step_finish {w : World T F} {sessions : ℕ → Option (Session T F)} {id : ℕ} {b : Builder F}
    (h : sessions id = some ⟨t, b⟩) (env : FinishEnv) :
    step ⟨w, sessions⟩ (.finish id env) =
      some ⟨(finish t env (w, b)).2.1, Function.update sessions id none⟩ :=
  congrArg (Option.map _) h

/-- Events without overlap of the builders of any type lead from one state to the other. -/
def Reaches (p p' : Builders T F) : Prop :=
  ∃ events, Machine.run step p events = some p' ∧ ∀ t, Machine.Meets step (NoOverlap t) p events

lemma Reaches.refl (p : Builders T F) : Reaches p p := ⟨[], rfl, fun _ => trivial⟩

lemma Reaches.trans {p p' p'' : Builders T F} (h : Reaches p p') (h' : Reaches p' p'') : Reaches p p'' := by
  obtain ⟨events, hrun, hmeets⟩ := h
  obtain ⟨rest, hrest, hmeets'⟩ := h'
  refine ⟨events ++ rest, ?_, fun t => Machine.meets_append (hmeets t) (fun q hq => ?_)⟩
  · rw [Machine.run_append, hrun, Option.bind_some, hrest]
  · obtain rfl := Option.some.inj (hrun.symm.trans hq)
    exact hmeets' t

lemma Reaches.step {p p' : Builders T F} (event : BuilderEvent T F) (hstep : Builders.step p event = some p')
    (h : ∀ t, NoOverlap t p event) : Reaches p p' :=
  ⟨[event], Machine.run_cons hstep [], fun t => ⟨h t, fun _ _ => trivial⟩⟩

lemma Reaches.elsewhere {p : Builders T F} {w : World T F} (h : w.classes = p.world.classes) :
    Reaches p ⟨w, p.sessions⟩ := by
  refine Reaches.step (.elsewhere ⟨fun v => { w with classes := v.classes }, fun _ => rfl⟩) ?_
    (fun _ => trivial)
  exact congrArg (fun c => some (⟨{ w with classes := c }, p.sessions⟩ : Builders T F)) h.symm

/-- The state of a process with no builder alive. -/
def resting (w : World T F) : Builders T F := ⟨w, fun _ => none⟩

lemma runChain_reaches (env : ℕ → OpEnv) (chain : List (ClassOp F)) {sessions : ℕ → Option (Session T F)} {id : ℕ}
    {w : World T F} {b : Builder F} (h : sessions id = some ⟨t, b⟩) :
    Reaches ⟨w, sessions⟩ ⟨(runChain t env chain (w, b)).2.1,
      Function.update sessions id (some ⟨t, (runChain t env chain (w, b)).2.2⟩)⟩ := by
  induction chain generalizing env sessions w b with
  | nil =>
    change Reaches _ ⟨w, Function.update sessions id (some ⟨t, b⟩)⟩
    rw [← h, Function.update_eq_self]
    exact .refl _
  | cons op rest ih =>
    have hcall := Reaches.step _ (step_call (w := w) h (env 0) op) (fun _ => trivial)
    unfold runChain
    rcases hop : runOp t (env 0) op (w, b) with ⟨exn | _, w', b'⟩
    · rw [Prog.run_bind_error hop]
      rw [hop] at hcall
      exact hcall
    · rw [Prog.run_bind_ok hop]
      rw [hop] at hcall
      have hrest := ih (fun i => env (i + 1)) (w := w') (b := b') (Function.update_self id _ sessions)
      rw [Function.update_idem] at hrest
      exact hcall.trans hrest

/-- A chain in one statement: the constructor, the calls up to the first that throws, and the destructor. -/
theorem typeChain_reaches (qualifiedName : String) (chain : List (ClassOp F)) (env : ℕ → OpEnv) (last : FinishEnv)
    (w : World T F) : Reaches (resting w) (resting (typeChain t qualifiedName chain env last w).2) := by
  have hconstruct : Reaches (resting w)
      ⟨classCtor t qualifiedName w, Function.update (fun _ => none) 0 (some ⟨t, .empty⟩)⟩ :=
    Reaches.step (.construct 0 t qualifiedName) rfl (fun _ _ _ _ h => (nomatch h))
  have hcalls := runChain_reaches (t := t) env chain (w := classCtor t qualifiedName w) (b := .empty)
    (Function.update_self 0 _ (fun _ => none))
  have hlast : (typeChain t qualifiedName chain env last w).2 =
      (finish t last (runChain t env chain (classCtor t qualifiedName w, .empty)).2).2.1 := rfl
  rw [hlast]
  generalize runChain t env chain (classCtor t qualifiedName w, .empty) = r at hcalls ⊢
  rw [Function.update_idem] at hcalls
  have hsession : (Function.update (fun _ => none) 0 (some ⟨t, r.2.2⟩) : ℕ → Option (Session T F)) 0 =
      some ⟨t, r.2.2⟩ := Function.update_self _ _ _
  have hfinish := Reaches.step _ (step_finish (w := r.2.1) hsession last) (fun _ => trivial)
  have hnone : Function.update (fun _ => none) 0 none = (fun _ => none : ℕ → Option (Session T F)) :=
    Function.update_eq_self 0 _
  rw [Function.update_idem, hnone] at hfinish
  exact (hconstruct.trans hcalls).trans hfinish

lemma register_reaches (w : World T F) (last : Option Throw) (env : ℕ → StmtEnv) (body : List (Stmt T F)) :
    Keeps (fun s => Reaches (resting w) (resting s)) (register last env body) := by
  have hsame : ∀ {s s' : World T F}, Reaches (resting w) (resting s) → s'.classes = s.classes →
      Reaches (resting w) (resting s') := fun h hclasses => h.trans (Reaches.elsewhere hclasses)
  have hstable : StableTable (fun _ : F => True) (fun _ => False)
      (fun s : World T F => Reaches (resting w) (resting s)) :=
    ⟨⟨⟨fun _ _ h => hsame h rfl, fun _ _ _ h => hsame h rfl,
      fun _ _ hC h => hsame h (funext (fun t => hC t not_false))⟩, fun _ _ _ h => hsame h rfl⟩,
      fun _ _ _ _ h => hsame h rfl⟩
  induction body generalizing env with
  | nil => exact consumerCode_stable hstable.toStable last
  | cons stmt rest ih =>
    refine Triple.bind (M := fun _ s => Reaches (resting w) (resting s)) ?_ (fun _ => ih _)
    by_cases hwrapped : stmt.wrapped = none
    · refine runStmt_stable hstable (env 0) stmt (fun _ _ => trivial) (fun t ht => ?_)
      rw [hwrapped] at ht
      cases ht
    · cases stmt with
      | type t qualifiedName chain =>
        refine Triple.bind (consumerCode_stable hstable.toStable (env 0).throws) (fun _ s hs => ?_)
        exact outcome_same.mpr (hs.trans (typeChain_reaches qualifiedName chain (env 0).op (env 0).finish s))
      | _ => exact absurd rfl hwrapped

/-- An import is such a sequence of events. -/
theorem importOnce_reaches (ext : Extension T F) (env : AttemptEnv) (w : World T F) :
    Reaches (resting w) (resting (importOnce ext env w).2) := by
  have hsame : ∀ {s s' : World T F}, Reaches (resting w) (resting s) → s'.classes = s.classes →
      Reaches (resting w) (resting s') := fun h hclasses => h.trans (Reaches.elsewhere hclasses)
  refine importOnce_keeps (I := fun s => Reaches (resting w) (resting s)) ⟨⟨?_, ?_⟩, ?_, ?_⟩ (fun hearly => ?_)
    (fun _ => ?_)
  · exact fun _ _ h => hsame h rfl
  · exact fun _ _ _ h => hsame h rfl
  · exact fun _ _ h => hsame h rfl
  · exact fun _ _ _ _ h => hsame h rfl
  · obtain ⟨-, -, hclasses, -⟩ := importOnce_early_state ext w hearly
    exact Reaches.elsewhere hclasses
  · exact register_reaches w env.throwsLast env.stmt ext.body (prepared ext w) (Reaches.elsewhere rfl)

/-- After any imports, the tables of every type there is are those its own builder filled. -/
theorem imports_tables (ext : Extension T F) (attempts : List AttemptEnv)
    (hlive : ((imports ext attempts (.initial : World T F)).classes t).type.isSome) :
    ∃ events before id p₀, MadeBy t events ((imports ext attempts .initial).classes t) before id p₀ := by
  have himports : ∀ (attempts : List AttemptEnv) (w : World T F),
      Reaches (resting w) (resting (imports ext attempts w)) := by
    intro attempts
    induction attempts with
    | nil => exact fun w => .refl _
    | cons env rest ih => exact fun w => (importOnce_reaches ext env w).trans (ih _)
  obtain ⟨events, hrun, hmeets⟩ := himports attempts .initial
  have htracked : Tracked t events (resting (imports ext attempts .initial)) := tracked_run (hmeets t) hrun
  exact ⟨events, htracked.made hlive⟩

end

/-- A call in which nothing fails. -/
def quietOp : OpEnv := ⟨none, false, noKw⟩

def quietFinish : FinishEnv := ⟨false, false, false, false⟩

/-- A type with one method, and a second registration of it, under another name. -/
def firstRegistration : List (BuilderEvent Unit String) :=
  [.construct 0 () "demo.Widget", .call 0 quietOp (.defMethod "area" "area" none), .finish 0 quietFinish]

def secondRegistration : List (BuilderEvent Unit String) :=
  [.construct 1 () "demo.Gadget", .call 1 quietOp (.defMethod "width" "width" none), .finish 1 quietFinish]

theorem tables_frozen_twice : ∃ p p' : Builders Unit String,
    Machine.run step .initial firstRegistration = some p ∧ Machine.run step p secondRegistration = some p' ∧
      p'.world.classes () = p.world.classes () ∧
      ∃ before id p₀, MadeBy () firstRegistration (p.world.classes ()) before id p₀ := by
  obtain ⟨hfrozen, -, hmade⟩ := tables_frozen (T := Unit) (F := String) ()
  refine ⟨_, _, rfl, rfl, hfrozen _ _ secondRegistration rfl rfl, hmade _ _ ?_ rfl rfl⟩
  exact ⟨fun _ _ _ h => (nomatch h), fun _ _ => ⟨trivial, fun _ _ => ⟨trivial, fun _ _ => trivial⟩⟩⟩

end SciForge.Binding
