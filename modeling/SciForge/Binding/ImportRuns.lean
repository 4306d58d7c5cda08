import SciForge.Binding.KwSpecs
import SciForge.Binding.ClassComplete
import SciForge.Binding.PyInitReports

/-!
# Keyword specs over runs of imports

A type that exists keeps the spec of its constructor, attempt after attempt, as long as nothing else in the
body registers the constructor's function.
-/

namespace SciForge.Binding

variable {T F : Type} [DecidableEq T] [DecidableEq F]

/-! ### Uniqueness -/

omit [DecidableEq T] in
lemma count_pos_of_mem {body : List (Stmt T F)} {stmt : Stmt T F} {f : F} (hmem : stmt ∈ body)
    (hf : f ∈ stmt.kwFunctions) : 0 < (kwFunctions body).count f :=
  List.count_pos_iff.mpr (List.mem_flatMap.mpr ⟨stmt, hmem, hf⟩)

omit [DecidableEq T] in
lemma unique_stmt {body : List (Stmt T F)} {stmt stmt' : Stmt T F} {f : F} (hunshared : ¬Shared body f)
    (hmem : stmt ∈ body) (hmem' : stmt' ∈ body) (hf : f ∈ stmt.kwFunctions) (hf' : f ∈ stmt'.kwFunctions) :
    stmt = stmt' := by
  induction body with
  | nil => cases hmem
  | cons first rest ih =>
    have hcount : (kwFunctions (first :: rest)).count f = first.kwFunctions.count f + (kwFunctions rest).count f := by
      unfold kwFunctions
      rw [List.flatMap_cons, List.count_append]
    unfold Shared at hunshared
    rw [hcount] at hunshared
    rcases List.mem_cons.mp hmem with rfl | h
    · rcases List.mem_cons.mp hmem' with rfl | h'
      · rfl
      · have hfirst := List.count_pos_iff.mpr hf
        have hrest := count_pos_of_mem h' hf'
        omega
    · rcases List.mem_cons.mp hmem' with rfl | h'
      · have hfirst := List.count_pos_iff.mpr hf'
        have hrest := count_pos_of_mem h hf
        omega
      · refine ih (fun hshared => hunshared ?_) h h'
        unfold Shared at hshared
        omega

omit [DecidableEq T] in
lemma not_mem_before {body pre post : List (Stmt T F)} {t : T} {qualifiedName : String} {done : List (ClassOp F)}
    (rest : List (ClassOp F)) {f : F} (specs : ArgSpecs) (hunshared : ¬Shared body f)
    (hbody : body = pre ++ Stmt.type t qualifiedName (done ++ .defInit f specs :: rest) :: post) :
    f ∉ kwFunctions pre ++ done.filterMap ClassOp.kwFunction := by
  have hcount : (kwFunctions body).count f = (kwFunctions pre).count f +
      ((done.filterMap ClassOp.kwFunction).count f + (1 + (rest.filterMap ClassOp.kwFunction).count f) +
        (kwFunctions post).count f) := by
    have hsplit : (done ++ ClassOp.defInit f specs :: rest).filterMap ClassOp.kwFunction =
        done.filterMap ClassOp.kwFunction ++ ([f] ++ rest.filterMap ClassOp.kwFunction) := by
      rw [List.filterMap_append]
      rfl
    rw [hbody]
    unfold kwFunctions
    rw [List.flatMap_append, List.flatMap_cons, List.count_append, List.count_append]
    change _ + (((done ++ ClassOp.defInit f specs :: rest).filterMap ClassOp.kwFunction).count f + _) = _
    rw [hsplit, List.count_append, List.count_append, List.count_singleton_self]
  intro hf
  unfold Shared at hunshared
  have hpos := List.count_pos_iff.mpr hf
  rw [List.count_append] at hpos
  omega

/-! ### Constructors -/

/-- The constructor of a type comes from a `def_init`, whose names and defaults are in `specs`. -/
def InitFilled (body : List (Stmt T F)) (specs : F → KwSpec) (t : T) (type : TypeObject F) : Prop :=
  ∀ f, type.init = some f → ∃ qualifiedName chain args, Stmt.type t qualifiedName chain ∈ body ∧
    ClassOp.defInit f args ∈ chain ∧
    (¬Shared body f → ∃ e, specs f = filledSpec e qualifiedName args.specs (argDefaults args.specs))

def InitsFilled (body : List (Stmt T F)) (w : World T F) : Prop := TypesAre (InitFilled body w.specs) w

def Unclaimed (fs : List F) (w : World T F) : Prop := ∀ f ∉ fs, ¬Claimed w f

omit [DecidableEq T] [DecidableEq F] in
lemma unclaimed_stable (fs : List F) (e : ℕ) :
    StableTable (· ∈ fs) (fun _ => True) (fun w : World T F => w.epoch = e ∧ Unclaimed fs w) := by
  refine ⟨⟨⟨fun _ _ h => h, fun w specs hspecs h => ⟨h.1, fun f hf hclaimed => ?_⟩, fun _ _ _ h => h⟩,
    fun _ _ _ h => h⟩, fun _ _ _ _ h => h⟩
  apply h.2 f hf
  unfold Claimed at hclaimed ⊢
  rw [← (hspecs f).resolve_right (fun hin => hf hin.1)]
  exact hclaimed

omit [DecidableEq T] in
lemma InitsFilled.respec {body : List (Stmt T F)} {w : World T F} (h : InitsFilled body w) (stmt : Stmt T F)
    (hmem : stmt ∈ body) (hwrapped : ∀ t, stmt.wrapped = some t → (w.classes t).type = none) {specs : F → KwSpec}
    (hspecs : ∀ f ∉ stmt.kwFunctions, specs f = w.specs f) : TypesAre (InitFilled body specs) w := by
  apply TypesAre.mono h
  intro t type htype hinit f hf
  obtain ⟨qualifiedName, chain, args, hstmt, hop, hfilled⟩ := hinit f hf
  refine ⟨qualifiedName, chain, args, hstmt, hop, fun hunshared => ?_⟩
  rw [hspecs f]
  · exact hfilled hunshared
  · intro hin
    have hown : f ∈ (Stmt.type t qualifiedName chain).kwFunctions :=
      List.mem_filterMap.mpr ⟨.defInit f args, hop, rfl⟩
    obtain rfl := unique_stmt hunshared hmem hstmt hin hown
    rw [hwrapped t rfl] at htype
    cases htype

/-- Where a builder's constructor comes from, and what its spec holds. -/
def InitStored (body : List (Stmt T F)) (e : ℕ) (qualifiedName : String) (op : ℕ → OpEnv)
    (chain : List (ClassOp F)) (s : World T F × Builder F) : Prop :=
  ∀ f, s.2.init = some f → ∃ i args, chain[i]? = some (.defInit f args) ∧ (¬Shared body f →
    Frozen f (filledSpec e qualifiedName args.specs (storedDefaults (op i).kw.arg args.specs)) s.1)

omit [DecidableEq T] in
lemma initStored_stable {body : List (Stmt T F)} {e : ℕ} (he : e ≠ 0) (qualifiedName : String) (op : ℕ → OpEnv)
    (chain : List (ClassOp F)) (b : Builder F) :
    Stable (fun _ => True) (fun _ => True)
      (fun w : World T F => InitStored body e qualifiedName op chain (w, b)) := by
  have hkeep : ∀ w s : World T F, (∀ f k, k.epoch ≠ 0 → Frozen f k w → Frozen f k s) →
      InitStored body e qualifiedName op chain (w, b) → InitStored body e qualifiedName op chain (s, b) := by
    intro w s hws h f hf
    obtain ⟨i, args, hop, hfrozen⟩ := h f hf
    exact ⟨i, args, hop, fun hunshared => hws f _ he (hfrozen hunshared)⟩
  refine ⟨fun w err => hkeep w _ (fun f k hk hf => (frozen_stable hk).fail w err hf),
    fun w specs hspecs => hkeep w _ (fun f k hk hf => (frozen_stable hk).specs w specs hspecs hf),
    fun w classes hC => hkeep w _ (fun f k hk hf => (frozen_stable hk).classes w classes hC hf)⟩

lemma runOp_initStored {body pre post : List (Stmt T F)} {e : ℕ} (he : e ≠ 0) {t : T} {qualifiedName : String}
    (env : ℕ → OpEnv) {chain done rest : List (ClassOp F)} {op : ClassOp F} (hchain : chain = done ++ op :: rest)
    (hbody : body = pre ++ Stmt.type t qualifiedName chain :: post) :
    Triple (fun s => LiveAt t qualifiedName done s ∧ InitStored body e qualifiedName env chain s ∧
        s.1.epoch = e ∧ Unclaimed (kwFunctions pre ++ done.filterMap ClassOp.kwFunction) s.1)
      (runOp t (env done.length) op)
      (fun _ s => InitStored body e qualifiedName env chain s ∧ s.1.epoch = e ∧
        Unclaimed (kwFunctions pre ++ (done ++ [op]).filterMap ClassOp.kwFunction) s.1)
      (fun _ => InitStored body e qualifiedName env chain) := by
  have hstable : ∀ fs b, Stable (· ∈ fs) (fun _ => True)
      (fun w : World T F => InitStored body e qualifiedName env chain (w, b) ∧ w.epoch = e ∧ Unclaimed fs w) :=
    fun fs b => ((initStored_stable he qualifiedName env chain b).mono (fun _ _ => trivial) (fun _ h => h)).and
      (unclaimed_stable fs e).toStable
  cases hop : op.kwFunction with
  | none =>
    have hsame : (done ++ [op]).filterMap ClassOp.kwFunction = done.filterMap ClassOp.kwFunction := by
      rw [List.filterMap_append, List.filterMap_cons, hop]
      exact List.append_nil _
    rw [hsame]
    refine (runOp_keeps (hstable _) trivial (env done.length) op (fun f hf => ?_) (fun w b h => ?_)).weaken
      (fun _ h => h.2) (fun _ _ h => h) (fun _ _ h => h.1)
    · rw [hop] at hf
      cases hf
    · refine ⟨fun f hf => h.1 f ?_, h.2⟩
      cases op with
      | defInit g args => cases hop
      | _ => exact hf
  | some g =>
    obtain ⟨args, rfl⟩ : ∃ args, op = .defInit g args := by
      cases op with
      | defInit g' args => exact ⟨args, by rw [Option.some.inj hop]⟩
      | _ => cases hop
    have hget : chain[done.length]? = some (.defInit g args) := by
      rw [hchain, List.getElem?_append_right le_rfl, Nat.sub_self]
      rfl
    have hmore : (done ++ [ClassOp.defInit g args]).filterMap ClassOp.kwFunction =
        done.filterMap ClassOp.kwFunction ++ [g] := by
      rw [List.filterMap_append]
      rfl
    rw [hmore, ← List.append_assoc]
    refine runOp_defInit (fun b => ?_) (fun _ h => h.1) (fun b => ?_)
    · exact (hstable _ b).mono (fun _ h => absurd h id) (fun _ _ => trivial)
    · have hkeep := fillKwSpec_stable (hstable (kwFunctions pre ++ done.filterMap ClassOp.kwFunction ++ [g]) b)
        (List.mem_append_right _ (List.mem_singleton_self g)) qualifiedName (env done.length).kw args
      have hfill := fillKwSpec_stored_of (T := T) (¬Shared body g) g qualifiedName (env done.length).kw args e
      refine (hkeep.both hfill).weaken ?_ ?_ (fun _ _ h => h.1.1)
      · rintro w ⟨hstored, hepoch, hunclaimed⟩
        refine ⟨⟨hstored, hepoch, fun f hf => hunclaimed f (fun hin => hf (List.mem_append_left _ hin))⟩, hepoch,
          fun hunshared => hunclaimed g ?_⟩
        exact not_mem_before rest args hunshared (hchain ▸ hbody)
      · refine fun _ w h => ⟨fun f hf => ?_, h.1.2⟩
        obtain rfl := Option.some.inj hf
        exact ⟨done.length, args, hget, h.2⟩

lemma runChain_initStored {body pre post : List (Stmt T F)} {e : ℕ} (he : e ≠ 0) {t : T} {qualifiedName : String}
    (env : ℕ → OpEnv) {chain : List (ClassOp F)}
    (hbody : body = pre ++ Stmt.type t qualifiedName chain :: post) {w : World T F}
    (hnone : (w.classes t).type = none) (hepoch : w.epoch = e) (hunclaimed : Unclaimed (kwFunctions pre) w) :
    InitStored body e qualifiedName env chain (runChain t env chain (classCtor t qualifiedName w, .empty)).2 := by
  have hrun := runChain_live_with t qualifiedName env chain
    (X := fun ops s => InitStored body e qualifiedName env chain s ∧ s.1.epoch = e ∧
      Unclaimed (kwFunctions pre ++ ops.filterMap ClassOp.kwFunction) s.1)
    (fun _ _ _ hchain => runOp_initStored he env hchain hbody)
  refine outcome_same.mp (hrun.weakenReturn (fun _ _ h => h.1)
    (classCtor t qualifiedName w, .empty) ⟨classCtor_liveAt hnone, ?_⟩)
  rw [classCtor_live hnone]
  refine ⟨fun f hf => (nomatch hf), hepoch, ?_⟩
  rw [List.filterMap_nil, List.append_nil]
  exact hunclaimed

lemma typeChain_specs (t : T) (qualifiedName : String) (chain : List (ClassOp F)) (op : ℕ → OpEnv)
    (last : FinishEnv) (w : World T F) :
    ∀ f ∉ chain.filterMap ClassOp.kwFunction, (typeChain t qualifiedName chain op last w).2.specs f = w.specs f := by
  intro f hf
  have hkept : StableAttr (· ∈ chain.filterMap ClassOp.kwFunction) (fun _ : T => True)
      (fun s : World T F => s.specs f = w.specs f) := by
    refine ⟨⟨fun _ _ h => h, fun s specs hspecs h => ?_, fun _ _ _ h => h⟩, fun _ _ _ h => h⟩
    exact ((hspecs f).resolve_right (fun hin => hf hin.1)).trans h
  exact outcome_same.mp (typeChain_stable hkept trivial qualifiedName chain (fun _ h => h) op last w rfl)

lemma typeChain_initsFilled {body pre post : List (Stmt T F)} {e : ℕ} (he : e ≠ 0) {t : T} {qualifiedName : String}
    {env : StmtEnv} {chain : List (ClassOp F)} (hbody : body = pre ++ Stmt.type t qualifiedName chain :: post)
    {w : World T F} (hkept : SpecsKept body env (.type t qualifiedName chain) w) (hthrows : env.throws = none)
    (hepoch : w.epoch = e) (hunclaimed : Unclaimed (kwFunctions pre) w) (hw : InitsFilled body w) :
    InitsFilled body (typeChain t qualifiedName chain env.op env.finish w).2 := by
  have hmem : Stmt.type t qualifiedName chain ∈ body := hbody ▸ List.mem_append_right pre List.mem_cons_self
  cases htype : (w.classes t).type with
  | some type =>
    obtain ⟨hinert, hspecs⟩ := typeChain_inert qualifiedName chain env.op env.finish
      htype hw
    unfold InitsFilled
    rw [hspecs]
    exact hinert
  | none =>
    have hmono := hw.respec _ hmem (fun t' ht' => by obtain rfl := Option.some.inj ht'; exact htype)
      (typeChain_specs t qualifiedName chain env.op env.finish w)
    apply TypesAre.typeChain hmono htype env.op env.finish chain rfl
    intro hsucceeds f hf
    obtain ⟨i, args, hop, hfrozen⟩ := runChain_initStored he env.op hbody htype hepoch hunclaimed f hf
    refine ⟨qualifiedName, chain, args, hmem, List.mem_of_getElem? hop, fun hunshared => ⟨e, ?_⟩⟩
    rw [typeChain_run, finishType_specs, (hfrozen hunshared).1,
      storedDefaults_eq ((hkept hthrows).2 htype hsucceeds i f args hop)]

/-! ### One attempt -/

omit [DecidableEq T] in
lemma initsFilled_stable (body : List (Stmt T F)) :
    Stable (fun _ => False) (fun _ => False) (InitsFilled body : World T F → Prop) := by
  refine ⟨fun _ _ h => TypesAre.of_eq h rfl rfl, fun w specs hspecs h => ?_,
    fun _ _ hC h => TypesAre.of_eq h (funext (fun t => hC t not_false)) rfl⟩
  have he : specs = w.specs := funext (fun f => (hspecs f).resolve_right (fun hin => hin.1))
  subst he
  exact TypesAre.of_eq h rfl rfl

lemma runStmt_initsFilled {body pre post : List (Stmt T F)} {stmt : Stmt T F} {e : ℕ} (he : e ≠ 0)
    (hbody : body = pre ++ stmt :: post) {env : StmtEnv} {w : World T F} (hkept : SpecsKept body env stmt w)
    (hepoch : w.epoch = e) (hunclaimed : Unclaimed (kwFunctions pre) w) (hw : InitsFilled body w) :
    InitsFilled body (runStmt env stmt w).2 := by
  have hcode := consumerCode_stable (initsFilled_stable body) env.throws
  have hpush : ∀ spare entry, Keeps (InitsFilled body) (pushTable spare entry : Import T F Unit) :=
    pushTable_stable (initsFilled_stable body) (fun _ _ _ _ h => TypesAre.of_eq h rfl rfl)
  cases stmt with
  | defFunction f name doc => exact outcome_same.mp (Triple.bind hcode (fun _ => hpush _ _) w hw)
  | raw name f flags doc => exact outcome_same.mp (Triple.bind hcode (fun _ => hpush _ _) w hw)
  | defKw f name doc specs =>
    refine outcome_same.mp (Triple.bind hcode (fun _ => Triple.bind (M := fun _ => InitsFilled body) ?_
      (fun _ => hpush _ _)) w hw)
    intro w' hw'
    have hothers : Stable (fun g => g = f) (fun _ : T => False) (fun s : World T F =>
        s.classes = w'.classes ∧ s.module = w'.module ∧ ∀ g ≠ f, s.specs g = w'.specs g) := by
      refine ⟨fun _ _ h => h, fun s specs' hspecs h => ⟨h.1, h.2.1, fun g hg => ?_⟩,
        fun s classes hC h => ⟨(funext (fun t => hC t not_false)).trans h.1, h.2⟩⟩
      exact ((hspecs g).resolve_right (fun hin => hg hin.1)).trans (h.2.2 g hg)
    have hfill := outcome_same.mp (fillKwSpec_stable hothers rfl name env.kw specs w' ⟨rfl, rfl, fun _ _ => rfl⟩)
    refine outcome_same.mpr (TypesAre.of_eq (hw'.respec (.defKw f name doc specs) ?_
      (fun _ ht => by cases ht) (fun g hg => ?_)) hfill.1 hfill.2.1)
    · exact hbody ▸ List.mem_append_right pre List.mem_cons_self
    · exact hfill.2.2 g (fun hgf => hg (hgf ▸ List.mem_singleton_self f))
  | type t qualifiedName chain =>
    unfold runStmt
    cases hthrows : env.throws with
    | some throws =>
      rw [Prog.run_bind_error (consumerCode_some throws w)]
      exact (initsFilled_stable body).fail w _ hw
    | none =>
      rw [Prog.run_bind_ok (consumerCode_none w)]
      exact typeChain_initsFilled he hbody hkept hthrows hepoch hunclaimed hw

lemma register_initsFilled {body : List (Stmt T F)} {w : World T F} (he : w.epoch ≠ 0)
    (hunclaimed : ∀ f, ¬Claimed w f) (last : Option Throw) {env : ℕ → StmtEnv}
    (hkept : EveryStmt (SpecsKept body) env body w) (hw : InitsFilled body w) :
    InitsFilled body (register last env body w).2 := by
  have hrun := register_of_everyStmt (C := SpecsKept body) (E := InitsFilled body)
    (I := fun done s => (s.epoch = w.epoch ∧ Unclaimed (kwFunctions done) s) ∧ InitsFilled body s) body ?_ ?_ last env hkept
    ⟨⟨rfl, fun f _ => hunclaimed f⟩, hw⟩
  · generalize register last env body w = r at hrun ⊢
    rcases r with ⟨e | a, s⟩
    · exact hrun
    · exact hrun.2
  · rintro env' done stmt rest hbody s hC ⟨⟨hepoch, hfree⟩, hs⟩
    have hkeep := runStmt_stable (unclaimed_stable (T := T) (kwFunctions (done ++ [stmt])) w.epoch)
      env' stmt (fun f hf => ?_) (fun _ _ => trivial) s ⟨hepoch, fun f hf => hfree f (fun hin => hf ?_)⟩
    · have hinits := runStmt_initsFilled he hbody hC hepoch hfree hs
      generalize runStmt env' stmt s = r at hkeep hinits ⊢
      rcases r with ⟨e | a, s'⟩
      · exact hinits
      · exact ⟨hkeep, hinits⟩
    · exact List.mem_flatMap.mpr ⟨stmt, List.mem_append_right done (List.mem_singleton_self stmt), hf⟩
    · obtain ⟨stmt', hstmt', hf'⟩ := List.mem_flatMap.mp hin
      exact List.mem_flatMap.mpr ⟨stmt', List.mem_append_left _ hstmt', hf'⟩
  · intro throws
    have hstable : Stable (fun _ => False) (fun _ => False)
        (fun s : World T F => s.epoch = w.epoch ∧ Unclaimed (kwFunctions body) s) :=
      (unclaimed_stable (kwFunctions body) w.epoch).toStable.mono (fun _ h => absurd h id) (fun _ _ => trivial)
    exact (consumerCode_stable (hstable.and (initsFilled_stable body)) throws).weakenThrow (fun _ _ h => h.2)

/-! ### Runs -/

/-- After at most `n` attempts: the counter has not wrapped round, no spec is from a later import, and the
constructors are filled. -/
structure RunInv (body : List (Stmt T F)) (n : ℕ) (w : World T F) : Prop where
  epoch_le : w.epoch ≤ n
  specs_le : ∀ f, (w.specs f).epoch ≤ w.epoch
  inits : InitsFilled body w

omit [DecidableEq T] in
lemma runInv_stableEnd (body : List (Stmt T F)) (n : ℕ) : StableEnd (RunInv body n : World T F → Prop) := by
  have hend := fun specs => typesAre_stableEnd (InitFilled (T := T) body specs)
  exact ⟨⟨fun w err h => ⟨h.epoch_le, h.specs_le, (hend w.specs).fail w err h.inits⟩,
    fun w name f h => ⟨h.epoch_le, h.specs_le, (hend w.specs).function w name f h.inits⟩⟩,
    fun w err h => ⟨h.epoch_le, h.specs_le, (hend w.specs).pyErr w err h.inits⟩,
    fun w table nextId hle h => ⟨h.epoch_le, h.specs_le, (hend w.specs).table w table nextId hle h.inits⟩⟩

omit [DecidableEq T] in
lemma RunInv.prepared {ext : Extension T F} {n : ℕ} {w : World T F} (h : RunInv ext.body n w)
    (hn : n + 1 < 2 ^ 64) : (prepared ext w).epoch = w.epoch + 1 ∧ ∀ f, ¬Claimed (prepared ext w) f := by
  have hnext : nextEpoch w.epoch = w.epoch + 1 := by
    unfold nextEpoch
    have hle := h.epoch_le
    omega
  refine ⟨hnext, fun f hclaimed => ?_⟩
  have heq : (w.specs f).epoch = nextEpoch w.epoch := hclaimed.2
  have hle := h.specs_le f
  omega

lemma importOnce_runInv {ext : Extension T F} {env : AttemptEnv} {n : ℕ} {w : World T F} (hn : n + 1 < 2 ^ 64)
    (hkept : env.prepares = true → EveryStmt (SpecsKept ext.body) env.stmt ext.body (prepared ext w))
    (h : RunInv ext.body n w) : RunInv ext.body (n + 1) (importOnce ext env w).2 := by
  refine importOnce_keeps (runInv_stableEnd ext.body (n + 1)) (fun henv => ?_) (fun henv => outcome_same.mpr ?_)
  · obtain ⟨hepoch, hspecs, -, -, -⟩ := importOnce_early_state ext w henv
    have hle := h.epoch_le
    refine ⟨by omega, fun f => ?_, ?_⟩
    · rw [hspecs, hepoch]
      exact h.specs_le f
    · unfold InitsFilled
      rw [hspecs]
      exact TypesAre.early henv h.inits
  · obtain ⟨hepoch, hunclaimed⟩ := h.prepared hn
    have hbound : StableTable (fun _ : F => True) (fun _ : T => True)
        (fun s : World T F => s.epoch = w.epoch + 1 ∧ ∀ f, (s.specs f).epoch ≤ w.epoch + 1) := by
      refine ⟨⟨⟨fun _ _ h => h, fun s specs hspecs hs => ⟨hs.1, fun f => ?_⟩, fun _ _ _ h => h⟩, fun _ _ _ h => h⟩,
        fun _ _ _ _ h => h⟩
      rcases hspecs f with he | ⟨-, -, he⟩
      · exact (congrArg KwSpec.epoch he).le.trans (hs.2 f)
      · exact (he.trans hs.1).le
    have hspecs : ∀ f, ((prepared ext w).specs f).epoch ≤ w.epoch + 1 := fun f =>
      (h.specs_le f).trans (Nat.le_succ _)
    have hkeys := outcome_same.mp (register_stable hbound env.throwsLast env.stmt ext.body (fun _ _ => trivial)
      (fun _ _ _ _ => trivial) (prepared ext w) ⟨hepoch, hspecs⟩)
    have hinits := register_initsFilled (by omega) hunclaimed env.throwsLast (hkept henv)
      (TypesAre.prepared h.inits ext)
    refine ⟨?_, fun f => ?_, hinits⟩
    · have hle := h.epoch_le
      exact hkeys.1.le.trans (by omega)
    · exact (hkeys.2 f).trans hkeys.1.ge

lemma imports_runInv {ext : Extension T F} {envs : List AttemptEnv} {n : ℕ} {w : World T F}
    (hn : n + envs.length < 2 ^ 64) (hkept : EveryAttempt (SpecsKept ext.body) ext envs w)
    (h : RunInv ext.body n w) : RunInv ext.body (n + envs.length) (imports ext envs w) := by
  induction envs generalizing n w with
  | nil => exact h
  | cons env rest ih =>
    have hlength : n + (env :: rest).length = n + 1 + rest.length := by
      rw [List.length_cons]
      omega
    rw [hlength] at hn ⊢
    exact ih hn hkept.2 (importOnce_runInv (by omega) hkept.1 h)

omit [DecidableEq T] [DecidableEq F] in
lemma stmt_of_callWrapperKw {stmt : Stmt T F} {entry : MethodDef F} {name : String} {f : F}
    (hentry : stmt.entry = some entry) (hname : entry.mlName = some name)
    (hmeth : entry.mlMeth = some (.callWrapperKw f)) : ∃ doc specs, stmt = .defKw f name doc specs := by
  cases stmt with
  | defFunction g name' doc =>
    obtain rfl := Option.some.inj hentry
    cases hmeth
  | raw name' g flags doc =>
    obtain rfl := Option.some.inj hentry
    cases hmeth
  | type t qualifiedName chain => cases hentry
  | defKw g name' doc specs =>
    obtain rfl := Option.some.inj hentry
    cases hname
    cases hmeth
    exact ⟨doc, specs, rfl⟩

/-- In a run of fewer than `2 ^ 64` attempts in which every skipped chain has its constructors' functions for
itself and every type is made with its constructors' defaults allocated, an attempt that gives a module
registers no function with keywords twice, and each keyword function and each constructor of the module is
parsed with the names and the defaults of the statement that registered it. -/
theorem exposed_specs_exclusive (ext : Extension T F) (envs : List AttemptEnv) (env : AttemptEnv)
    (hfew : envs.length + 1 < 2 ^ 64) (hkept : EveryAttempt (SpecsKept ext.body) ext (envs ++ [env]) .initial)
    (m : Dict String (Attribute F)) (s : World T F)
    (hok : importOnce ext env (imports ext envs .initial) = (.ok (some m), s)) :
    (kwFunctions ext.body).Nodup ∧
    (∀ name object, m.get name = some (.function object) → ∃ entry, s.entry object = some entry ∧
      entry.mlName = some name ∧ ∀ f, entry.mlMeth = some (.callWrapperKw f) → ∃ doc specs,
        Stmt.defKw f name doc specs ∈ ext.body ∧
        s.specs f = filledSpec s.epoch name specs.specs (argDefaults specs.specs)) ∧
    ∀ attr type f, m.get attr = some (.type type) → type.init = some f →
      ∃ t qualifiedName chain specs, Stmt.type t qualifiedName chain ∈ ext.body ∧
        ClassOp.defInit f specs ∈ chain ∧ attr = attrName type.name ∧
        ∃ e, s.specs f = filledSpec e qualifiedName specs.specs (argDefaults specs.specs) := by
  obtain ⟨hbefore, hlast⟩ := everyAttempt_append hkept
  have hinitial : RunInv ext.body 0 (World.initial : World T F) :=
    ⟨le_rfl, fun _ => le_rfl, typesAre_initial⟩
  have hinv := imports_runInv (by omega) hbefore hinitial
  rw [Nat.zero_add] at hinv
  have hafter := importOnce_runInv hfew hlast.1 hinv
  have hsome : (importOnce ext env (imports ext envs .initial)).1 = .ok (some m) := by rw [hok]
  have hserved := importOnce_served hsome
  obtain ⟨henv, hm, s₀, hreg, himport, hpyErr⟩ := importOnce_some hsome
  rw [hok] at hafter hserved hm
  obtain ⟨hepoch, hunclaimed⟩ := hinv.prepared hfew
  have hne : (prepared ext (imports ext envs .initial)).epoch ≠ 0 := by omega
  -- an attempt that gives a module has not failed anywhere
  have htracks := register_reports env.throwsLast env.stmt ext.body _ (prepared_tracks ext (imports ext envs .initial))
  unfold registration at hreg
  rw [hreg] at htracks
  have hfailed : s₀.failed = false := by
    rw [← Bool.not_eq_true]
    intro hfail
    exact Option.isSome_iff_ne_none.mp (htracks.mp hfail) hpyErr
  have hunshared := register_unshared hne (hlast.1 henv) hreg hfailed
  have hkeys : s.specs = s₀.specs ∧ s.epoch = s₀.epoch := by
    have hend : StableEnd (fun w : World T F => w.specs = s₀.specs ∧ w.epoch = s₀.epoch) :=
      ⟨⟨fun _ _ h => h, fun _ _ _ h => h⟩, fun _ _ h => h, fun _ _ _ _ h => h⟩
    have hout := addTable_keeps hend env s₀ ⟨rfl, rfl⟩
    rw [← himport, hok] at hout
    exact hout.1
  refine ⟨List.nodup_iff_count_le_one.mpr (fun f => not_lt.mp (hunshared f)), fun name object hobject => ?_,
    fun attr type f hattr hinit => ?_⟩
  · obtain ⟨stmt, hstmt, entry, hentry, hcell, hname⟩ := hserved.entry hobject
    refine ⟨entry, hcell, hname, fun f hmeth => ?_⟩
    obtain ⟨doc, specs, rfl⟩ := stmt_of_callWrapperKw hentry hname hmeth
    have hfills := register_fills hstmt hne env.throwsLast env.stmt _ rfl
    rw [hreg] at hfills
    obtain ⟨hspec, hspecEpoch⟩ := hfills.resolve_left (by rw [hfailed]; exact Bool.false_ne_true)
    refine ⟨doc, specs, hstmt, ?_⟩
    rw [hkeys.1, hkeys.2, hspec, hspecEpoch]
    rfl
  · obtain ⟨t, hfilled, hname⟩ := hafter.inits.exposed (hm ▸ hattr)
    obtain ⟨qualifiedName, chain, specs, hstmt, hop, hspec⟩ := hfilled f hinit
    exact ⟨t, qualifiedName, chain, specs, hstmt, hop, hname, hspec (hunshared f)⟩

/-! ### A retry -/

/-- `arg("x") = 1`. -/
def xDefaultsOne : ArgSpecs := ⟨[⟨"x", some (.signed 1)⟩], List.cons_ne_nil _ _, rfl⟩

/-- `arg("y") = 2`. -/
def yDefaultsTwo : ArgSpecs := ⟨[⟨"y", some (.signed 2)⟩], List.cons_ne_nil _ _, rfl⟩

/-- A constructor and a function of one C++ function. -/
def sharedFactory : Extension Unit Bool :=
  ⟨"demo.error", [.type () "demo.Widget" [.defInit true xDefaultsOne], .defKw true "make" none yDefaultsTwo]⟩

/-- Nothing fails: the first attempt refuses the second registration, but leaves the type, so that the next one
skips the first registration and gives a module whose constructor has the names of the function. -/
theorem retried_constructor_renamed :
    ∃ m s type, (importOnce sharedFactory (throwingAttempt (fun _ => none)) .initial).1 = .ok none ∧
      importOnce sharedFactory (throwingAttempt (fun _ => none))
        (imports sharedFactory [throwingAttempt (fun _ => none)] .initial) = (.ok (some m), s) ∧
      ¬(kwFunctions sharedFactory.body).Nodup ∧
      m.get "Widget" = some (.type type) ∧ type.init = some true ∧
      ∀ e, s.specs true ≠ filledSpec e "demo.Widget" xDefaultsOne.specs (argDefaults xDefaultsOne.specs) := by
  refine ⟨_, _, _, rfl, rfl, by decide, rfl, rfl, fun e h => ?_⟩
  have hnames : [some "y", none] = [some "x", none] := congrArg KwSpec.kwlist h
  exact absurd hnames (by decide)

def ownFactory : Extension Unit Bool :=
  ⟨"demo.error", [.type () "demo.Widget" [.defInit true xDefaultsOne], .defKw false "make" none yDefaultsTwo]⟩

/-- Where each has its own C++ function, an import gives each its own names and defaults. -/
theorem exposed_specs_exclusive_ownFactory :
    ∃ m s, importOnce ownFactory (throwingAttempt (fun _ => none)) .initial = (.ok (some m), s) ∧
      (kwFunctions ownFactory.body).Nodup ∧
      (∀ name object, m.get name = some (.function object) → ∃ entry, s.entry object = some entry ∧
        entry.mlName = some name ∧ ∀ f, entry.mlMeth = some (.callWrapperKw f) → ∃ doc specs,
          Stmt.defKw f name doc specs ∈ ownFactory.body ∧
          s.specs f = filledSpec s.epoch name specs.specs (argDefaults specs.specs)) := by
  have hkept : EveryAttempt (SpecsKept ownFactory.body) ownFactory ([] ++ [throwingAttempt (fun _ => none)])
      .initial := by
    refine ⟨fun _ => ⟨fun _ => ⟨fun h => (nomatch h), fun _ _ i f specs hop => ?_⟩,
      fun _ _ => ⟨trivial, fun _ _ => trivial⟩⟩, trivial⟩
    cases i with
    | zero =>
      cases hop
      rfl
    | succ i => cases hop
  obtain ⟨hnodup, hfunctions, -⟩ := exposed_specs_exclusive ownFactory [] _ (by decide) hkept _ _ rfl
  exact ⟨_, _, rfl, hnodup, hfunctions⟩

end SciForge.Binding
