import SciForge.Binding.Chains

/-!
# Conditions on the wrapped types

A condition on every type there is, and on every type the module exposes, kept by chains and attempts as long
as the types that are made satisfy it.
-/

namespace SciForge.Binding

variable {T F : Type}

structure TypesAre (P : T → TypeObject F → Prop) (w : World T F) : Prop where
  types : ∀ t type, (w.classes t).type = some type → P t type ∧ (w.classes t).name = type.name
  attrs : ∀ attr type, w.module.get attr = some (.type type) →
    ∃ t, (w.classes t).type = some type ∧ attr = attrName type.name

variable {P Q : T → TypeObject F → Prop} {w s s' : World T F} {t : T}

lemma TypesAre.of_eq (h : TypesAre P w) (hclasses : s.classes = w.classes) (hmodule : s.module = w.module) :
    TypesAre P s :=
  ⟨fun t type ht => hclasses ▸ h.types t type (hclasses ▸ ht),
    fun attr type ha => hclasses ▸ h.attrs attr type (hmodule ▸ ha)⟩

lemma TypesAre.mono (h : TypesAre P w) (hPQ : ∀ t type, (w.classes t).type = some type → P t type → Q t type) :
    TypesAre Q w := by
  refine ⟨fun t type ht => ?_, h.attrs⟩
  obtain ⟨hP, hname⟩ := h.types t type ht
  exact ⟨hPQ t type ht hP, hname⟩

lemma TypesAre.exposed (h : TypesAre P w) {attr : String} {type : TypeObject F}
    (ha : w.module.get attr = some (.type type)) : ∃ t, P t type ∧ attr = attrName type.name := by
  obtain ⟨t, ht, hattr⟩ := h.attrs attr type ha
  exact ⟨t, (h.types t type ht).1, hattr⟩

lemma TypesAre.setAttr (h : TypesAre P w) (name : String) {value : Attribute F}
    (hvalue : ∀ type, value ≠ .type type) : TypesAre P (w.setAttr name value) := by
  refine ⟨h.types, fun attr type ha => ?_⟩
  rcases Dict.get_set_cases ha with ⟨-, hv⟩ | ha
  · exact absurd hv.symm (hvalue type)
  · exact h.attrs attr type ha

lemma TypesAre.prepared (h : TypesAre P w) (ext : Extension T F) : TypesAre P (prepared ext w) := by
  refine ⟨h.types, fun attr type ha => ?_⟩
  rcases Dict.get_set_cases ha with ⟨-, hv⟩ | ha
  · cases hv
  · cases ha

lemma typesAre_initial : TypesAre P (World.initial : World T F) :=
  ⟨fun _ _ h => (nomatch h), fun _ _ h => (nomatch h)⟩

lemma typesAre_stable (P : T → TypeObject F → Prop) : Stable (fun _ => True) (fun _ => False) (TypesAre P) :=
  ⟨fun _ _ h => h.of_eq rfl rfl, fun _ _ _ h => h.of_eq rfl rfl,
    fun _ _ hC h => h.of_eq (funext (fun t => hC t not_false)) rfl⟩

lemma typesAre_stableEnd (P : T → TypeObject F → Prop) : StableEnd (TypesAre P) :=
  ⟨⟨fun _ _ h => h.of_eq rfl rfl, fun _ name _ h => h.setAttr name (fun _ hv => by cases hv)⟩,
    fun _ _ h => h.of_eq rfl rfl, fun _ _ _ _ h => h.of_eq rfl rfl⟩

variable [DecidableEq T]

lemma TypesAre.early [DecidableEq F] {ext : Extension T F} {env : AttemptEnv} (henv : env.prepares = false)
    (h : TypesAre P w) : TypesAre P (importOnce ext env w).2 := by
  obtain ⟨-, -, hclasses, -, hmodule⟩ := importOnce_early_state ext w henv
  refine ⟨fun t type ht => ?_, fun attr type ha => ?_⟩
  · rw [hclasses] at ht ⊢
    exact h.types t type ht
  · rw [hmodule] at ha
    cases ha

/-! ### One chain -/

lemma TypesAre.withClass_none (h : TypesAre P w) (hbefore : (w.classes t).type = none)
    (hothers : ∀ t', t' ≠ t → s.classes t' = w.classes t') (hnone : (s.classes t).type = none)
    (hmodule : s.module = w.module) : TypesAre P s := by
  refine ⟨fun t' type ht => ?_, fun attr type ha => ?_⟩
  · by_cases he : t' = t
    · rw [he, hnone] at ht
      cases ht
    · rw [hothers t' he] at ht ⊢
      exact h.types t' type ht
  · obtain ⟨t', ht', hattr⟩ := h.attrs attr type (hmodule ▸ ha)
    have he : t' ≠ t := by
      rintro rfl
      rw [hbefore] at ht'
      cases ht'
    exact ⟨t', by rw [hothers t' he, ht'], hattr⟩

lemma TypesAre.reuse (h : TypesAre P w) {type : TypeObject F} (htype : (w.classes t).type = some type)
    (env : FinishEnv) (b : Builder F) : TypesAre P (finishType t env b w).2 := by
  obtain ⟨hP, hname⟩ := h.types t type htype
  unfold finishType
  rw [Prog.run_get_bind, htype]
  unfold addObjectRef
  cases env.addObject with
  | true => exact h.of_eq rfl rfl
  | false =>
    refine ⟨h.types, fun attr type' ha => ?_⟩
    rcases Dict.get_set_cases ha with ⟨hattr, hv⟩ | ha
    · obtain rfl := Attribute.type.inj hv
      exact ⟨t, htype, by rw [← hattr, hname]⟩
    · exact h.attrs attr type' ha

lemma TypesAre.made (h : TypesAre P w) (hbefore : (w.classes t).type = none) {b : Builder F}
    (hP : P t (typeFromSpec (s.classes t).terminated b)) (hothers : ∀ t', t' ≠ t → s.classes t' = w.classes t')
    (hmodule : s.module = w.module) :
    TypesAre P (s.made t b) := by
  unfold World.made
  refine ⟨fun t' type ht => ?_, fun attr type ha => ?_⟩
  · change ((s.withClass t _).classes t').type = some type at ht
    change P t' type ∧ ((s.withClass t _).classes t').name = type.name
    by_cases he : t' = t
    · subst he
      rw [withClass_self] at ht ⊢
      obtain rfl := Option.some.inj ht
      exact ⟨hP, rfl⟩
    · rw [withClass_of_ne _ he, hothers t' he] at ht ⊢
      exact h.types t' type ht
  · rcases Dict.get_set_cases ha with ⟨hattr, hv⟩ | ha
    · obtain rfl := Attribute.type.inj hv
      refine ⟨t, ?_, hattr.symm⟩
      change ((s.withClass t _).classes t).type = _
      rw [withClass_self]
    · obtain ⟨t', ht', hattr⟩ := h.attrs attr type (hmodule ▸ ha)
      have he : t' ≠ t := by
        rintro rfl
        rw [hbefore] at ht'
        cases ht'
      refine ⟨t', ?_, hattr⟩
      change ((s.withClass t _).classes t').type = _
      rw [withClass_of_ne _ he, hothers t' he, ht']

lemma TypesAre.notMade (h : TypesAre P w) (hbefore : (w.classes t).type = none)
    (hothers : ∀ t', t' ≠ t → s.classes t' = w.classes t')
    (hmodule : s.module = w.module) (hs : NotMade t s s') : TypesAre P s' := by
  obtain ⟨c, err, hnone, rfl⟩ := hs
  refine h.withClass_none (t := t) hbefore (fun t' ht' => ?_) ?_ hmodule
  · exact (withClass_of_ne s ht' c).trans (hothers t' ht')
  · exact (congrArg ClassStatics.type (withClass_self s t c)).trans hnone

lemma finishType_specs (t : T) (env : FinishEnv) (b : Builder F) (w : World T F) :
    (finishType t env b w).2.specs = w.specs := by
  have hkept : StableAttr (fun _ : F => False) (fun _ : T => True) (fun s : World T F => s.specs = w.specs) := by
    refine ⟨⟨fun _ _ h => h, fun s specs hS h => ?_, fun _ _ _ h => h⟩, fun _ _ _ h => h⟩
    exact (funext (fun f => (hS f).resolve_right (fun hf => hf.1))).trans h
  exact outcome_same.mp ((hkept.stableFinish trivial).finishType env b (R := fun _ s => s.specs = w.specs) w rfl)

variable [DecidableEq F]

lemma runChain_others (t : T) (env : ℕ → OpEnv) (chain : List (ClassOp F)) {w : World T F} :
    Keeps (fun s : World T F × Builder F =>
      (∀ t', t' ≠ t → s.1.classes t' = w.classes t') ∧ s.1.module = w.module) (runChain t env chain) := by
  have hstable : Stable (fun _ : F => True) (fun t' => t' = t)
      (fun s : World T F => (∀ t', t' ≠ t → s.classes t' = w.classes t') ∧ s.module = w.module) :=
    ⟨fun _ _ h => h, fun _ _ _ h => h,
      fun s classes hC h => ⟨fun t' ht' => (hC t' ht').trans (h.1 t' ht'), h.2⟩⟩
  exact runChain_stable hstable rfl env chain (fun _ _ => trivial)

lemma typeChain_inert (qualifiedName : String) (chain : List (ClassOp F)) (op : ℕ → OpEnv) (last : FinishEnv)
    {type : TypeObject F} (htype : (w.classes t).type = some type) (hw : TypesAre P w) :
    TypesAre P (typeChain t qualifiedName chain op last w).2 ∧
      (typeChain t qualifiedName chain op last w).2.specs = w.specs := by
  have hctor : classCtor t qualifiedName w = w := by
    unfold classCtor
    rw [htype]
    rfl
  have hstable : Stable (fun _ : F => False) (fun _ => False)
      (fun s : World T F => s.classes = w.classes ∧ s.module = w.module ∧ s.specs = w.specs) := by
    refine ⟨fun _ _ h => h, fun s specs hS h => ⟨h.1, h.2.1, ?_⟩,
      fun s classes hC h => ⟨(funext (fun t => hC t not_false)).trans h.1, h.2⟩⟩
    refine (funext (fun f => ?_)).trans h.2.2
    exact (hS f).resolve_right (fun hf => hf.1)
  have hchain := outcome_same.mp (runChain_inert hstable t (fun s hs => by rw [hs.1, htype]; rfl) op chain
    (w, .empty) ⟨rfl, rfl, rfl⟩)
  have htype' : ((runChain t op chain (w, .empty)).2.1.classes t).type = some type := by
    rw [hchain.1]
    exact htype
  rw [typeChain_run, hctor]
  exact ⟨(hw.of_eq hchain.1 hchain.2.1).reuse htype' last _, (finishType_specs _ _ _ _).trans hchain.2.2⟩

omit [DecidableEq F] in
lemma classCtor_live {qualifiedName : String} (hnone : (w.classes t).type = none) :
    classCtor t qualifiedName w = w.withClass t (declaredClass qualifiedName []) := by
  unfold classCtor
  rw [hnone, setClass_eq]
  change w.withClass t ⟨(w.classes t).type, _, _, _⟩ = _
  rw [hnone]
  rfl

omit [DecidableEq F] in
lemma classCtor_liveAt {qualifiedName : String} (hnone : (w.classes t).type = none) :
    LiveAt t qualifiedName [] (classCtor t qualifiedName w, .empty) :=
  ⟨by rw [classCtor_live hnone]; exact withClass_self _ _ _, rfl⟩

lemma runChain_none (qualifiedName : String) (hnone : (w.classes t).type = none) (op : ℕ → OpEnv)
    (chain : List (ClassOp F)) :
    ((runChain t op chain (classCtor t qualifiedName w, .empty)).2.1.classes t).type = none := by
  have hlive := runChain_live t qualifiedName [] chain op (classCtor t qualifiedName w, .empty)
    (classCtor_liveAt hnone)
  generalize runChain t op chain (classCtor t qualifiedName w, .empty) = r at hlive ⊢
  rcases r with ⟨e | a, s⟩
  · exact hlive
  · rw [hlive.1]
    rfl

/-- A live chain: its calls, then the type from what they left, or an error and no type. -/
lemma typeChain_live {qualifiedName : String} (hnone : (w.classes t).type = none) (op : ℕ → OpEnv)
    (last : FinishEnv) (chain : List (ClassOp F)) {r : Except CxxExn Unit × World T F × Builder F}
    (hr : runChain t op chain (classCtor t qualifiedName w, .empty) = r) :
    ∃ s, typeChain t qualifiedName chain op last w = (r.1, s) ∧
      ((last.succeeds = true ∧ s = r.2.1.made t r.2.2) ∨ (last.succeeds = false ∧ NotMade t r.2.1 s)) := by
  have hleft := runChain_none qualifiedName hnone op chain
  rw [hr] at hleft
  obtain ⟨s, hrun, hs⟩ := finishType_live last r.2.2 hleft
  refine ⟨s, ?_, hs⟩
  rw [typeChain_run, hr, hrun]

lemma TypesAre.typeChain (hw : TypesAre P w) {qualifiedName : String} (hnone : (w.classes t).type = none)
    (op : ℕ → OpEnv) (last : FinishEnv) (chain : List (ClassOp F))
    {r : Except CxxExn Unit × World T F × Builder F}
    (hr : runChain t op chain (classCtor t qualifiedName w, .empty) = r)
    (hmade : last.succeeds = true → P t (typeFromSpec (r.2.1.classes t).terminated r.2.2)) :
    TypesAre P (typeChain t qualifiedName chain op last w).2 := by
  have hothers := outcome_same.mp (runChain_others t op chain (w := w) (classCtor t qualifiedName w, .empty)
    ⟨fun t' ht' => by rw [classCtor_live hnone]; exact withClass_of_ne w ht' _, by rw [classCtor_live hnone]; rfl⟩)
  rw [hr] at hothers
  obtain ⟨s, hrun, hs⟩ := typeChain_live hnone op last chain hr
  rw [hrun]
  rcases hs with ⟨hsucceeds, rfl⟩ | ⟨-, hnot⟩
  · exact hw.made hnone (hmade hsucceeds) hothers.1 hothers.2
  · exact hw.notMade hnone hothers.1 hothers.2 hnot

end SciForge.Binding
