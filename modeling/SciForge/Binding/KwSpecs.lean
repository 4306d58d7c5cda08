import SciForge.Binding.Table
import SciForge.Binding.Types

/-!
# Keyword specs within one import

Once claimed, a spec is frozen until the import ends: a second registration is refused. A statement that
registers a function with keywords leaves its own names and defaults in the spec, or a failure.
-/

namespace SciForge.Binding

variable {T F : Type}

/-! ### One registration -/

/-- The spec of `f` holds `k`, filled in this import. -/
def Frozen (f : F) (k : KwSpec) (w : World T F) : Prop := w.specs f = k ∧ w.epoch = k.epoch

lemma Frozen.claimed {f : F} {k : KwSpec} {w : World T F} (h : Frozen f k w) (hk : k.epoch ≠ 0) : Claimed w f := by
  unfold Claimed
  rw [h.1, h.2]
  exact ⟨hk, rfl⟩

lemma claimed_of_eq {f : F} {w s : World T F} (hspec : s.specs f = w.specs f) (hepoch : s.epoch = w.epoch)
    (h : Claimed w f) : Claimed s f := by
  unfold Claimed
  rw [hspec, hepoch]
  exact h

lemma frozen_stable {f : F} {k : KwSpec} (hk : k.epoch ≠ 0) :
    StableTable (fun _ => True) (fun _ => True) (Frozen f k : World T F → Prop) := by
  refine ⟨⟨⟨fun _ _ h => h, fun w specs hspecs h => ?_, fun _ _ _ h => h⟩, fun _ _ _ h => h⟩, fun _ _ _ _ h => h⟩
  rcases hspecs f with he | ⟨-, hclaimed, -⟩
  · exact ⟨he.trans h.1, h.2⟩
  · exact absurd (h.claimed hk) hclaimed

lemma failedOr_stable {f : F} {k : KwSpec} (hk : k.epoch ≠ 0) :
    StableTable (fun _ => True) (fun _ => True) (fun w : World T F => w.failed = true ∨ Frozen f k w) := by
  have hfrozen := frozen_stable (T := T) (f := f) hk
  exact ⟨⟨⟨fun _ _ _ => .inl rfl, fun w specs hspecs h => h.imp_right (hfrozen.specs w specs hspecs),
    fun _ _ _ h => h⟩, fun _ _ _ h => h⟩, fun _ _ _ _ h => h⟩

lemma storedDefaults_eq {env : ℕ → ArgEnv} {specs : List ArgSpec} (h : someAllocFails env specs = false) :
    storedDefaults env specs = argDefaults specs := by
  induction specs generalizing env with
  | nil => rfl
  | cons a rest ih =>
    unfold someAllocFails at h
    obtain ⟨hfirst, hrest⟩ := Bool.or_eq_false_iff.mp h
    unfold storedDefaults storedDefault
    rw [hfirst, if_neg Bool.false_ne_true, ih hrest]
    rfl

variable [DecidableEq F]

lemma fillKwSpec_stored_of (c : Prop) (f : F) (name : String) (env : KwEnv) (specs : ArgSpecs) (e : ℕ) :
    Triple (fun w : World T F => w.epoch = e ∧ (c → ¬Claimed w f)) (fillKwSpec f name env specs)
      (fun _ w => c → Frozen f (filledSpec e name specs.specs (storedDefaults env.arg specs.specs)) w)
      (fun _ _ => True) := by
  rintro w ⟨rfl, hclaimed⟩
  refine (fillKwSpec_spec w f name env specs).weaken (fun _ h => h) ?_ (fun _ _ _ => trivial) w rfl
  rintro _ s (⟨h, -⟩ | ⟨-, hfill⟩) hc
  · exact absurd h (hclaimed hc)
  · rw [hfill]
    exact ⟨World.put_specs_self _ _ _ _ _, rfl⟩

lemma fillKwSpec_filled (f : F) (name : String) (env : KwEnv) (specs : ArgSpecs) (e : ℕ) :
    Triple (fun w : World T F => w.epoch = e) (fillKwSpec f name env specs)
      (fun _ w => w.failed = true ∨ Frozen f (filledSpec e name specs.specs (argDefaults specs.specs)) w)
      (fun _ _ => True) := by
  rintro w rfl
  refine (fillKwSpec_spec w f name env specs).weaken (fun _ h => h) ?_ (fun _ _ _ => trivial) w rfl
  rintro _ s (⟨-, rfl⟩ | ⟨-, hfill⟩)
  · exact .inl rfl
  · rw [hfill]
    cases hfails : someAllocFails env.arg specs.specs with
    | true => exact .inl (Bool.or_true _)
    | false =>
      rw [← storedDefaults_eq hfails]
      exact .inr ⟨World.put_specs_self _ _ _ _ _, rfl⟩

/-! ### Functions of the body -/

variable [DecidableEq T]

/-- After a registration that did not fail every keyword function has the names and defaults of its `def`. -/
lemma register_fills {f : F} {name : String} {doc : Option String} {specs : ArgSpecs} {body : List (Stmt T F)}
    (hmem : Stmt.defKw f name doc specs ∈ body) {e : ℕ} (he : e ≠ 0) (last : Option Throw) (env : ℕ → StmtEnv) :
    Triple (fun w : World T F => w.epoch = e) (register last env body)
      (fun _ w => w.failed = true ∨ Frozen f (filledSpec e name specs.specs (argDefaults specs.specs)) w)
      (fun _ _ => True) := by
  have hkey : StableTable (fun _ : F => True) (fun _ : T => True) (fun w : World T F => w.epoch = e) :=
    ⟨⟨⟨fun _ _ h => h, fun _ _ _ h => h, fun _ _ _ h => h⟩, fun _ _ _ h => h⟩, fun _ _ _ _ h => h⟩
  have hkept := failedOr_stable (T := T) (f := f)
    (k := filledSpec e name specs.specs (argDefaults specs.specs)) he
  induction body generalizing env with
  | nil => cases hmem
  | cons stmt rest ih =>
    unfold register
    rcases List.mem_cons.mp hmem with rfl | hrest
    · have hafter := register_stable hkept last (fun i => env (i + 1)) rest (fun _ _ => trivial)
        (fun _ _ _ _ => trivial)
      refine Triple.bind ?_ (fun _ => hafter.returning)
      unfold runStmt
      apply Triple.bind (consumerCode_stable hkey.toStable (env 0).throws).returning
      intro _
      apply Triple.bind (fillKwSpec_filled f name (env 0).kw specs e)
      intro _
      exact (pushTable_stable hkept.toStable hkept.table _ _).returning
    · refine Triple.bind (M := fun _ w => w.epoch = e) ?_ (fun _ => ih hrest _)
      exact (runStmt_stable hkey (env 0) stmt (fun _ _ => trivial) (fun _ _ => trivial)).returning

/-! ### Functions registered twice -/

/-- As long as nothing failed `f` has been registered at most once, and once means claimed. -/
def Once (f : F) (n : ℕ) (w : World T F) : Prop := w.epoch ≠ 0 ∧ (w.failed = false → n = 0 ∨ (n = 1 ∧ Claimed w f))

omit [DecidableEq F] [DecidableEq T] in
lemma once_stable (f : F) (n : ℕ) : StableTable (fun g => g ≠ f) (fun _ => True) (Once f n : World T F → Prop) := by
  refine ⟨⟨⟨fun _ _ h => ⟨h.1, fun hf => by cases hf⟩, fun w specs hspecs h => ⟨h.1, fun hf => ?_⟩,
    fun _ _ _ h => h⟩, fun _ _ _ h => h⟩, fun _ _ _ _ h => h⟩
  refine (h.2 hf).imp_right (fun hclaimed => ⟨hclaimed.1, ?_⟩)
  exact claimed_of_eq ((hspecs f).resolve_right (fun hne => hne.1 rfl)) rfl hclaimed.2

omit [DecidableEq T] in
lemma fillKwSpec_once (f : F) (n : ℕ) (name : String) (env : KwEnv) (specs : ArgSpecs) :
    Triple (Once f n : World T F → Prop) (fillKwSpec f name env specs) (fun _ => Once f (n + 1))
      (fun _ _ => True) := by
  intro w hw
  refine (fillKwSpec_spec w f name env specs).weaken (fun _ h => h) ?_ (fun _ _ _ => trivial) w rfl
  rintro _ s (⟨-, rfl⟩ | ⟨hclaimed, hfill⟩)
  · exact ⟨hw.1, fun hf => by cases hf⟩
  · rw [hfill]
    refine ⟨hw.1, fun hf => .inr ⟨?_, ?_⟩⟩
    · obtain ⟨hfailed, -⟩ := Bool.or_eq_false_iff.mp hf
      rcases hw.2 hfailed with h | ⟨-, h⟩
      · rw [h]
      · exact absurd h hclaimed
    · unfold Claimed
      rw [World.put_specs_self]
      exact ⟨hw.1, rfl⟩

lemma runOp_once (f : F) (n : ℕ) {t : T} (qualifiedName : String) (done : List (ClassOp F)) (env : OpEnv)
    (op : ClassOp F) :
    Triple (fun s => LiveAt t qualifiedName done s ∧ Once f n s.1) (runOp t env op)
      (fun _ s => Once f (n + op.kwFunction.toList.count f) s.1) (fun _ _ => True) := by
  by_cases hop : op.kwFunction = some f
  · obtain ⟨specs, rfl⟩ : ∃ specs, op = .defInit f specs := by
      cases op with
      | defInit g specs => exact ⟨specs, by rw [Option.some.inj hop]⟩
      | _ => cases hop
    have hcount : (ClassOp.kwFunction (.defInit f specs)).toList.count f = 1 := List.count_singleton_self
    rw [hcount]
    refine runOp_defInit (E := fun _ => True) (fun b => ?_) (fun _ _ => trivial) (fun b => ?_)
    · exact (once_stable f n).toStable.mono (fun _ h => absurd h id) (fun _ _ => trivial)
    · exact fillKwSpec_once f n qualifiedName env.kw specs
  · have hcount : op.kwFunction.toList.count f = 0 := by
      refine List.count_eq_zero.mpr (fun hf => hop ?_)
      exact Option.mem_toList.mp hf
    rw [hcount, Nat.add_zero]
    have hne : ∀ g ∈ op.kwFunction, g ≠ f := by
      rintro g hg rfl
      exact hop hg
    exact (runOp_keeps (fun _ => (once_stable f n).toStable) trivial env op hne (fun _ _ h => h)).weaken
      (fun _ h => h.2) (fun _ _ h => h) (fun _ _ _ => trivial)

lemma runChain_once (f : F) (n : ℕ) (t : T) (qualifiedName : String) (env : ℕ → OpEnv) (chain : List (ClassOp F)) :
    Triple (fun s => LiveAt t qualifiedName [] s ∧ Once f n s.1) (runChain t env chain)
      (fun _ s => Once f (n + (chain.filterMap ClassOp.kwFunction).count f) s.1) (fun _ _ => True) := by
  have hchain := runChain_live_with (E := fun _ => True)
    (X := fun ops (s : World T F × Builder F) => Once f (n + (ops.filterMap ClassOp.kwFunction).count f) s.1)
    t qualifiedName env chain (fun done op rest _ => ?_)
  · exact hchain.weaken (fun _ h => h) (fun _ _ h => h) (fun _ _ h => h)
  · have hcount : ((done ++ [op]).filterMap ClassOp.kwFunction).count f =
        (done.filterMap ClassOp.kwFunction).count f + op.kwFunction.toList.count f := by
      rw [List.filterMap_append, List.count_append]
      cases op <;> rfl
    rw [hcount, ← Nat.add_assoc]
    exact runOp_once f _ qualifiedName done (env done.length) op

/-- `f` is registered with keywords more than once in the body. -/
def Shared (body : List (Stmt T F)) (f : F) : Prop := 1 < (kwFunctions body).count f

/-- A chain is skipped, its type existing, only when its `def_init` functions are registered nowhere else; and
when a chain makes its type all the defaults of its `def_init` calls have been allocated. -/
def SpecsKept (body : List (Stmt T F)) (env : StmtEnv) (stmt : Stmt T F) (w : World T F) : Prop :=
  match stmt with
  | .type t _ chain =>
    env.throws = none →
      ((w.classes t).type.isSome → ∀ f ∈ chain.filterMap ClassOp.kwFunction, ¬Shared body f) ∧
      ((w.classes t).type = none → env.finish.succeeds = true →
        ∀ i f specs, chain[i]? = some (.defInit f specs) → someAllocFails (env.op i).kw.arg specs.specs = false)
  | _ => True

lemma typeChain_once {f : F} {n : ℕ} {t : T} {w : World T F} (hnone : (w.classes t).type = none) (hw : Once f n w)
    (qualifiedName : String) (chain : List (ClassOp F)) (op : ℕ → OpEnv) (last : FinishEnv) :
    Outcome (fun _ => Once f (n + (chain.filterMap ClassOp.kwFunction).count f)) (fun _ _ => True)
      (typeChain t qualifiedName chain op last w) := by
  have hctor : Once f n (classCtor t qualifiedName w) := by
    rw [classCtor_live hnone]
    exact hw
  have hchain := runChain_once f n t qualifiedName op chain (classCtor t qualifiedName w, .empty)
    ⟨classCtor_liveAt hnone, hctor⟩
  rw [typeChain_run]
  generalize runChain t op chain (classCtor t qualifiedName w, .empty) = r at hchain ⊢
  rcases r with ⟨e | a, s⟩
  · trivial
  · exact outcome_same.mp (((once_stable f _).toStableAttr.stableFinish trivial).finishType last s.2
      (R := fun _ => Once f (n + (chain.filterMap ClassOp.kwFunction).count f)) s.1 hchain)

lemma runStmt_once {body : List (Stmt T F)} {f : F} (hshared : Shared body f) {n : ℕ} {env : StmtEnv}
    {stmt : Stmt T F} {w : World T F} (hkept : SpecsKept body env stmt w) (hw : Once f n w) :
    Outcome (fun _ => Once f (n + stmt.kwFunctions.count f)) (fun _ _ => True) (runStmt env stmt w) := by
  have hstable := once_stable (T := T) f n
  by_cases hf : f ∈ stmt.kwFunctions
  · cases stmt with
    | defFunction g name doc => cases hf
    | raw name g flags doc => cases hf
    | defKw g name doc specs =>
      obtain rfl := List.mem_singleton.mp hf
      have hcount : (Stmt.kwFunctions (.defKw f name doc specs : Stmt T F)).count f = 1 := List.count_singleton_self
      rw [hcount]
      have hafter := once_stable (T := T) f (n + 1)
      unfold runStmt
      refine Triple.bind (consumerCode_stable hstable.toStable env.throws).returning (fun _ => ?_) w hw
      exact Triple.bind (fillKwSpec_once f n name env.kw specs)
        (fun _ => (pushTable_stable hafter.toStable hafter.table _ _).returning)
    | type t qualifiedName chain =>
      unfold runStmt
      cases hthrows : env.throws with
      | some throws =>
        rw [Prog.run_bind_error (consumerCode_some throws w)]
        trivial
      | none =>
        rw [Prog.run_bind_ok (consumerCode_none w)]
        have hnone : (w.classes t).type = none := by
          rw [← Option.not_isSome_iff_eq_none]
          exact fun hsome => (hkept hthrows).1 hsome f hf hshared
        exact typeChain_once hnone hw qualifiedName chain env.op env.finish
  · rw [List.count_eq_zero.mpr hf, Nat.add_zero]
    refine (runStmt_stable hstable env stmt ?_ (fun _ _ => trivial)).returning w hw
    rintro g hg rfl
    exact hf hg

lemma register_unshared {body : List (Stmt T F)} {last : Option Throw} {env : ℕ → StmtEnv} {w s : World T F}
    (hw : w.epoch ≠ 0) (hkept : EveryStmt (SpecsKept body) env body w)
    (hrun : register last env body w = (.ok (), s)) (hs : s.failed = false) (f : F) : ¬Shared body f := by
  intro hshared
  have hout := register_of_everyStmt (C := SpecsKept body) (E := fun _ => True)
    (I := fun done w => Once f ((kwFunctions done).count f) w) body ?_ ?_ last env hkept
    ⟨hw, fun _ => .inl rfl⟩
  · rw [hrun] at hout
    unfold Shared at hshared
    rcases hout.2 hs with h | ⟨h, -⟩
    · omega
    · omega
  · intro env' done stmt rest _ w' hC h
    have hcount : (kwFunctions (done ++ [stmt])).count f = (kwFunctions done).count f + stmt.kwFunctions.count f := by
      unfold kwFunctions
      rw [List.flatMap_append, List.count_append, List.flatMap_singleton]
    rw [hcount]
    exact runStmt_once hshared hC h
  · exact fun throws => (consumerCode_stable (once_stable f _).toStable throws).returning

end SciForge.Binding
