import SciForge.Binding.KwSpecs
import SciForge.Binding.ClassComplete

/-!
# What later attempts do to a module in use

The method table is rebuilt in place, entry for entry, so that the functions of an earlier module keep their
wrappers. The error type is replaced by every attempt that creates a module.
-/

namespace SciForge.Binding

variable {T F : Type}

/-! ### The table -/

/-- The buffer at `data` holds the entries, with room for a terminator. -/
def Holds (data : ℕ) (es : List (MethodDef F)) (w : World T F) : Prop :=
  w.table.data = data ∧ es.length < w.table.capacity ∧ ∀ i < es.length, w.table.cells i = es[i]?

/-- The same, and the first `k` are in the vector. -/
def Rebuilt (data : ℕ) (es : List (MethodDef F)) (k : ℕ) (w : World T F) : Prop :=
  Holds data es w ∧ w.table.size = k

lemma pushTable_rebuilt (data : ℕ) (es : List (MethodDef F)) {k : ℕ} (hk : k ≤ es.length) (spare : Option ℕ)
    (entry : MethodDef F) (hentry : k < es.length → es[k]? = some entry) {R : CxxExn → World T F → Prop} :
    Triple (Rebuilt data es k) (pushTable spare entry) (fun _ => Rebuilt data es (k + 1)) R := by
  unfold pushTable
  refine Triple.get (fun w => Triple.assume (c := Rebuilt data es k w) (fun s hs => hs.1 ▸ hs.2) (fun hw => ?_))
  obtain ⟨⟨hdata, hroom, hcells⟩, hsize⟩ := hw
  have hlt : w.table.size < w.table.capacity := by omega
  obtain ⟨table, hpush⟩ := Option.ne_none_iff_exists'.mp (StdVector.pushBack_ne_none hlt entry w.nextId spare)
  obtain ⟨hdata', hcapacity, hothers⟩ := StdVector.pushBack_of_lt hlt hpush
  obtain ⟨hsize', hcell, -⟩ := StdVector.pushBack_cells hpush
  rw [hpush]
  refine Triple.modify (fun s _ => ⟨⟨hdata'.trans hdata, hcapacity ▸ hroom, fun i hi => ?_⟩, ?_⟩)
  · change table.cells i = es[i]?
    by_cases he : i = w.table.size
    · subst he
      rw [hcell, hsize, hentry (by omega)]
    · rw [hothers i he]
      exact hcells i hi
  · change table.size = k + 1
    rw [hsize', hsize]

lemma rebuilt_stable (data : ℕ) (es : List (MethodDef F)) (k : ℕ) :
    StableAttr (fun _ => True) (fun _ => True) (Rebuilt data es k : World T F → Prop) :=
  ⟨⟨fun _ _ h => h, fun _ _ _ h => h, fun _ _ _ h => h⟩, fun _ _ _ h => h⟩

variable [DecidableEq T] [DecidableEq F]

lemma runStmt_rebuilt {data : ℕ} {body pre post : List (Stmt T F)} {stmt : Stmt T F}
    (hbody : body = pre ++ stmt :: post) (env : StmtEnv) :
    Triple (Rebuilt data (entries body) (entries pre).length) (runStmt env stmt)
      (fun _ => Rebuilt data (entries body) (entries (pre ++ [stmt])).length)
      (fun _ => Holds data (entries body)) := by
  have hentries : entries body = entries pre ++ (stmt.entry.toList ++ entries post) := by
    rw [hbody]
    unfold entries
    rw [List.filterMap_append, List.filterMap_cons]
    cases stmt.entry <;> rfl
  have hmore : (entries (pre ++ [stmt])).length = (entries pre).length + stmt.entry.toList.length := by
    unfold entries
    rw [List.filterMap_append, List.length_append, List.filterMap_cons]
    cases stmt.entry <;> rfl
  have hkeep : ∀ {p : Import T F Unit}, Keeps (Rebuilt data (entries body) (entries pre).length) p →
      Triple (Rebuilt data (entries body) (entries pre).length) p
        (fun _ => Rebuilt data (entries body) (entries pre).length) (fun _ => Holds data (entries body)) :=
    fun hp => hp.weakenThrow (fun _ _ h => h.1)
  have hstable := rebuilt_stable (T := T) data (entries body) (entries pre).length
  have hpush : ∀ entry spare, stmt.entry = some entry →
      Triple (Rebuilt data (entries body) (entries pre).length) (pushTable spare entry : Import T F Unit)
        (fun _ => Rebuilt data (entries body) (entries (pre ++ [stmt])).length)
        (fun _ => Holds data (entries body)) := by
    intro entry spare hentry
    rw [hmore, hentry]
    refine pushTable_rebuilt data _ ?_ spare entry (fun _ => ?_)
    · rw [hentries, List.length_append]
      omega
    · rw [hentries, hentry, List.getElem?_append_right le_rfl, Nat.sub_self]
      rfl
  unfold runStmt
  apply Triple.bind (hkeep (consumerCode_stable hstable.toStable env.throws))
  intro _
  cases stmt with
  | defFunction f name doc => exact hpush _ _ rfl
  | defKw f name doc specs =>
    exact Triple.bind (hkeep (fillKwSpec_stable hstable.toStable trivial name env.kw specs)) (fun _ => hpush _ _ rfl)
  | raw name f flags doc => exact hpush _ _ rfl
  | type t qualifiedName chain =>
    rw [hmore]
    exact hkeep (typeChain_stable hstable trivial qualifiedName chain (fun _ _ => trivial) env.op env.finish)

lemma register_rebuilt (data : ℕ) (body : List (Stmt T F)) (last : Option Throw) (env : ℕ → StmtEnv) :
    Triple (Rebuilt data (entries body) 0) (register last env body)
      (fun _ => Rebuilt data (entries body) (entries body).length) (fun _ => Holds data (entries body)) := by
  have hrest : ∀ rest pre env, body = pre ++ rest →
      Triple (Rebuilt data (entries body) (entries pre).length) (register last env rest)
        (fun _ => Rebuilt data (entries body) (entries body).length) (fun _ => Holds data (entries body)) := by
    intro rest
    induction rest with
    | nil =>
      intro pre env hbody
      rw [List.append_nil] at hbody
      rw [← hbody]
      exact (consumerCode_stable (rebuilt_stable data (entries body) _).toStable last).weakenThrow (fun _ _ h => h.1)
    | cons stmt rest ih =>
      intro pre env hbody
      refine Triple.bind (runStmt_rebuilt hbody (env 0)) (fun _ => ih (pre ++ [stmt]) _ ?_)
      rw [hbody, List.append_assoc]
      rfl
  exact hrest body [] env rfl

omit [DecidableEq T] [DecidableEq F] in
lemma addTable_holds (data : ℕ) (es : List (MethodDef F)) (env : AttemptEnv) :
    Triple (Rebuilt data es es.length : World T F → Prop) (addTable env) (fun _ => Holds data es)
      (fun _ => Holds data es) := by
  have hfunctions : StableFunctions (Holds data es : World T F → Prop) := ⟨fun _ _ h => h, fun _ _ _ h => h⟩
  unfold addTable
  refine Triple.get (fun s₀ => Triple.ite (fun _ => Triple.pure (fun _ h => h.2.1)) (fun _ => ?_))
  have hpush := pushTable_rebuilt (T := T) data es le_rfl env.terminator .terminator
    (R := fun _ => Holds data es) (fun h => absurd h (lt_irrefl _))
  apply Triple.bind (hpush.weaken (fun _ h => h.2) (fun _ _ h => h.1) (fun _ _ h => h))
  intro _
  apply Triple.get
  intro s₁
  refine Triple.bind (M := fun _ => Holds data es) ?_ (fun _ => Triple.get (fun _ => Triple.pure (fun _ h => h.2)))
  exact (addFunctions_keeps hfunctions _ _ _ _).strengthen (fun _ h => h.2)

lemma importOnce_holds {data : ℕ} {ext : Extension T F} {env : AttemptEnv} {w : World T F}
    (hw : Holds data (entries ext.body) w) : Holds data (entries ext.body) (importOnce ext env w).2 := by
  cases henv : env.prepares with
  | false =>
    obtain ⟨-, -, -, htable, -⟩ := importOnce_early_state ext w henv
    unfold Holds
    rw [htable]
    exact hw
  | true =>
    have hreg := register_rebuilt data ext.body env.throwsLast env.stmt (prepared ext w) ⟨hw, rfl⟩
    rcases hrun : registration ext env w with ⟨e | u, s⟩
    · rw [importOnce_of_thrown henv hrun]
      unfold registration at hrun
      rw [hrun] at hreg
      exact hreg
    · rw [importOnce_of_registered henv hrun]
      unfold registration at hrun
      rw [hrun] at hreg
      exact outcome_same.mp (addTable_holds data (entries ext.body) env s hreg)

lemma imports_holds {data : ℕ} {ext : Extension T F} (later : List AttemptEnv) {w : World T F}
    (hw : Holds data (entries ext.body) w) : Holds data (entries ext.body) (imports ext later w) := by
  induction later generalizing w with
  | nil => exact hw
  | cons env rest ih => exact ih (importOnce_holds hw)

omit [DecidableEq T] [DecidableEq F] in
lemma Served.holds {body : List (Stmt T F)} {m : Dict String (Attribute F)} {w : World T F} (h : Served body m w) :
    Holds w.table.data (entries body) w := by
  have hsize : w.table.size = (entries body).length + 1 := by
    rw [← w.table.length_toList, h.table, List.length_append]
    rfl
  refine ⟨rfl, ?_, fun i hi => ?_⟩
  · have hle := w.table.size_le
    omega
  · rw [← w.table.toList_getElem? (by omega), h.table, List.getElem?_append_left hi]

/-- Whatever later attempts do, every function of the module runs the entry it had. -/
theorem later_entries (ext : Extension T F) {m : Dict String (Attribute F)} {s : World T F}
    (hserved : Served ext.body m s) (later : List AttemptEnv) (name : String) (object : FunctionObject)
    (hobject : m.get name = some (.function object)) :
    (imports ext later s).entry object = s.entry object ∧ (s.entry object).isSome := by
  obtain ⟨hbuffer, entry, hentry, -⟩ := hserved.functions name object hobject
  obtain ⟨hlt, -⟩ := List.getElem?_eq_some_iff.mp hentry
  have hcell : ∀ w : World T F, Holds s.table.data (entries ext.body) w → w.entry object = some entry := by
    intro w hw
    unfold World.entry
    rw [if_pos (hbuffer.trans hw.1.symm), hw.2.2 _ hlt, hentry]
  rw [hcell _ (imports_holds later hserved.holds), hcell s hserved.holds]
  exact ⟨rfl, rfl⟩

/-! ### The error type -/

omit [DecidableEq T] [DecidableEq F] in
/-- The identity was given before, and the error type is another one, or null. -/
def Replaced (type : ℕ) (w : World T F) : Prop := type < w.nextId ∧ w.errorStorage ≠ some type

lemma importOnce_blocked {ext : Extension T F} {env : AttemptEnv} (h : env.createModule = true) (w : World T F) :
    (importOnce ext env w).2 = { w.start with pyErr := some .foreign, failed := true } := by
  unfold importOnce pyInit
  rw [h]
  rfl

omit [DecidableEq T] [DecidableEq F] in
lemma replaced_stableEnd (type : ℕ) : StableEnd (Replaced type : World T F → Prop) :=
  ⟨⟨fun _ _ h => h, fun _ _ _ h => h⟩, fun _ _ h => h, fun _ _ _ hle h => ⟨h.1.trans_le hle, h.2⟩⟩

lemma importOnce_replaces {ext : Extension T F} {env : AttemptEnv} {type : ℕ} {w : World T F} (hw : type < w.nextId)
    (h : env.createModule = true → w.errorStorage ≠ some type) : Replaced type (importOnce ext env w).2 := by
  refine importOnce_keeps (replaced_stableEnd type) (fun henv => ?_) (fun _ => ?_)
  · unfold importOnce pyInit registerError addObjectRef
    unfold AttemptEnv.prepares at henv
    cases hc : env.createModule with
    | true => exact ⟨hw, h hc⟩
    | false =>
      cases hn : env.newException with
      | true => exact ⟨hw, fun he => by cases he⟩
      | false =>
        have ha : env.addError = true := by
          rw [hc, hn] at henv
          simpa using henv
        rw [ha]
        exact ⟨hw.trans (Nat.lt_succ_self _), fun he => by cases he⟩
  · have hstable : StableTable (fun _ => True) (fun _ => True) (Replaced type : World T F → Prop) :=
      ⟨⟨⟨fun _ _ h => h, fun _ _ _ h => h, fun _ _ _ h => h⟩, fun _ _ _ h => h⟩,
        fun _ _ _ hle h => ⟨h.1.trans_le hle, h.2⟩⟩
    refine register_stable hstable env.throwsLast env.stmt ext.body (fun _ _ => trivial) (fun _ _ _ _ => trivial)
      (prepared ext w) ⟨hw.trans (Nat.lt_succ_self _), fun he => ?_⟩
    exact hw.ne (Option.some.inj he).symm

lemma imports_replaced {ext : Extension T F} {type : ℕ} (later : List AttemptEnv) {w : World T F}
    (hw : Replaced type w) : Replaced type (imports ext later w) := by
  induction later generalizing w with
  | nil => exact hw
  | cons env rest ih => exact ih (importOnce_replaces hw.1 (fun _ => hw.2))

lemma imports_replaces (ext : Extension T F) {type : ℕ} {later : List AttemptEnv} {w : World T F}
    (hw : type < w.nextId) {env : AttemptEnv} (hmem : env ∈ later) (hcreate : env.createModule = false) :
    Replaced type (imports ext later w) := by
  induction later generalizing w with
  | nil => cases hmem
  | cons first rest ih =>
    cases hfirst : first.createModule with
    | false => exact imports_replaced rest (importOnce_replaces hw (fun h => by rw [hfirst] at h; cases h))
    | true =>
      rcases List.mem_cons.mp hmem with rfl | hrest
      · rw [hcreate] at hfirst
        cases hfirst
      · refine ih ?_ hrest
        rw [importOnce_blocked hfirst]
        exact hw

lemma imports_blocked {ext : Extension T F} {later : List AttemptEnv} (h : ∀ env ∈ later, env.createModule = true)
    (w : World T F) :
    (imports ext later w).errorStorage = w.errorStorage ∧ (imports ext later w).specs = w.specs := by
  induction later generalizing w with
  | nil => exact ⟨rfl, rfl⟩
  | cons env rest ih =>
    obtain ⟨herror, hspecs⟩ := ih (fun env' henv => h env' (List.mem_cons_of_mem env henv)) (importOnce ext env w).2
    unfold imports
    rw [herror, hspecs, importOnce_blocked (h env List.mem_cons_self)]
    exact ⟨rfl, rfl⟩

/-- The module's exception attributes are its error type. -/
def ExposesError (type : ℕ) (w : World T F) : Prop :=
  w.errorStorage = some type ∧ type < w.nextId ∧ ∀ attr error, w.module.get attr = some (.exception error) → error = type

omit [DecidableEq T] [DecidableEq F] in
lemma ExposesError.setAttr {type : ℕ} {w : World T F} (h : ExposesError type w) (name : String) {value : Attribute F}
    (hvalue : ∀ error, value ≠ .exception error) : ExposesError type (w.setAttr name value) := by
  refine ⟨h.1, h.2.1, fun attr error ha => ?_⟩
  rcases Dict.get_set_cases ha with ⟨-, hv⟩ | ha
  · exact absurd hv.symm (hvalue error)
  · exact h.2.2 attr error ha

lemma importOnce_exposesError {ext : Extension T F} {env : AttemptEnv} {w : World T F}
    {m : Dict String (Attribute F)} (h : (importOnce ext env w).1 = .ok (some m)) :
    ExposesError w.nextId (importOnce ext env w).2 := by
  obtain ⟨henv, -⟩ := importOnce_some h
  have hend : StableEnd (ExposesError w.nextId : World T F → Prop) :=
    ⟨⟨fun _ _ h => h, fun _ name f h => h.setAttr name (fun _ hv => by cases hv)⟩, fun _ _ h => h,
      fun _ _ _ hle h => ⟨h.1, h.2.1.trans_le hle, h.2.2⟩⟩
  refine importOnce_keeps hend (fun hearly => ?_) (fun _ => ?_)
  · rw [henv] at hearly
    cases hearly
  · have hstable : StableTable (fun _ => True) (fun _ => True) (ExposesError w.nextId : World T F → Prop) :=
      ⟨⟨⟨fun _ _ h => h, fun _ _ _ h => h, fun _ _ _ h => h⟩, fun _ name _ h => h.setAttr name (fun _ hv => by cases hv)⟩,
        fun _ _ _ hle h => ⟨h.1, h.2.1.trans_le hle, h.2.2⟩⟩
    refine register_stable hstable env.throwsLast env.stmt ext.body (fun _ _ => trivial) (fun _ _ _ _ => trivial)
      (prepared ext w) ⟨rfl, Nat.lt_succ_self _, fun attr error ha => ?_⟩
    rcases Dict.get_set_cases ha with ⟨-, hv⟩ | ha
    · exact Attribute.exception.inj hv
    · cases ha

/-! ### An earlier module -/

/-- The generated wrappers translate C++ exceptions; raw functions do not. -/
def Method.translates : Method F → Bool
  | .raw _ => false
  | _ => true

/-- The error that a `std::exception` becomes in a wrapper. -/
def World.raises (w : World T F) (what : String) : Option PyErr := setCppError w.errorStorage (.stdException what) none

/-- The functions of a module obtained in `s` do in `s'` what they did: they run their own entries, resolve
their keywords with the same names and defaults, and raise the same error type. -/
structure Undisturbed (m : Dict String (Attribute F)) (s s' : World T F) : Prop where
  entry : ∀ name object, m.get name = some (.function object) → s'.entry object = s.entry object
  keywords : ∀ name object entry f, m.get name = some (.function object) → s.entry object = some entry →
    entry.mlMeth = some (.callWrapperKw f) → (s'.specs f).kwlist = (s.specs f).kwlist ∧
      (s'.specs f).format = (s.specs f).format ∧ (s'.specs f).defaults = (s.specs f).defaults
  error : ∀ name object entry method, m.get name = some (.function object) → s.entry object = some entry →
    entry.mlMeth = some method → method.translates → ∀ what, s'.raises what = s.raises what

/-- Later attempts leave an earlier module undisturbed exactly when it has raw functions only, or when every
later attempt fails at the creation of its module: any other one replaces the error type that wrappers raise. -/
theorem later_imports_iff (ext : Extension T F) (env : AttemptEnv) (w s : World T F)
    (m : Dict String (Attribute F)) (hok : importOnce ext env w = (.ok (some m), s)) (later : List AttemptEnv) :
    (∀ attr error, m.get attr = some (.exception error) → ∀ what, s.raises what = some (.ofType error what)) ∧
    (Undisturbed m s (imports ext later s) ↔
      (∀ name object entry method, m.get name = some (.function object) → s.entry object = some entry →
        entry.mlMeth = some method → method.translates = false) ∨
      ∀ env' ∈ later, env'.createModule = true) := by
  have hsome : (importOnce ext env w).1 = .ok (some m) := by rw [hok]
  have hserved := importOnce_served hsome
  have hexposes := importOnce_exposesError hsome
  obtain ⟨-, hm, -⟩ := importOnce_some hsome
  rw [hok] at hserved hexposes hm
  obtain ⟨herror, hgiven, hattr⟩ := hexposes
  refine ⟨fun attr error ha what => ?_, fun h => ?_, fun h => ?_⟩
  · rw [hattr attr error (hm ▸ ha)]
    unfold World.raises
    rw [herror]
    rfl
  · by_contra hnot
    obtain ⟨hwrapped, hcreated⟩ := not_or.mp hnot
    push Not at hwrapped hcreated
    obtain ⟨name, object, entry, method, hobject, hentry, hmethod, htranslates⟩ := hwrapped
    obtain ⟨env', hmem, hcreate⟩ := hcreated
    have hreplaced := imports_replaces ext hgiven hmem (Bool.eq_false_iff.mpr hcreate)
    have hsame := h.error name object entry method hobject hentry hmethod (by simpa using htranslates) ""
    unfold World.raises at hsame
    rw [herror] at hsame
    apply hreplaced.2
    cases hlater : (imports ext later s).errorStorage with
    | none =>
      rw [hlater] at hsame
      cases hsame
    | some type =>
      rw [hlater] at hsame
      exact congrArg some (PyErr.ofType.inj (Option.some.inj hsame)).1
  · refine ⟨fun name object hobject => (later_entries ext hserved later name object hobject).1, ?_, ?_⟩
    · intro name object entry f hobject hentry hmeth
      rcases h with hraw | hblocked
      · exact absurd (hraw name object entry _ hobject hentry hmeth) Bool.false_ne_true.symm
      · rw [(imports_blocked hblocked s).2]
        exact ⟨rfl, rfl, rfl⟩
    · intro name object entry method hobject hentry hmeth htranslates what
      rcases h with hraw | hblocked
      · rw [hraw name object entry method hobject hentry hmeth] at htranslates
        cases htranslates
      · unfold World.raises
        rw [(imports_blocked hblocked s).1]

/-! ### A second import -/

def answering : Extension Unit Unit := ⟨"demo.error", [.defFunction () "answer" none]⟩

/-- After a second import, in which nothing fails, the function of the first module raises the error type of
the second. -/
theorem answering_raises_other_error :
    ∃ m s object type, importOnce answering (throwingAttempt (fun _ => none)) .initial = (.ok (some m), s) ∧
      m.get "answer" = some (.function object) ∧ m.get "error" = some (.exception type) ∧
      ∀ what, (imports answering [throwingAttempt (fun _ => none)] s).raises what ≠ some (.ofType type what) := by
  refine ⟨[("error", .exception 0), ("answer", .function ⟨2, 0⟩)],
    (importOnce answering (throwingAttempt (fun _ => none)) .initial).2, _, _, Prod.ext rfl rfl, rfl, rfl, fun what h => ?_⟩
  have htype := (PyErr.ofType.inj (Option.some.inj h)).1
  exact absurd htype (by decide)

/-- An attempt that fails to create its module leaves the first one as it was. -/
theorem answering_undisturbed :
    ∃ m s, importOnce answering (throwingAttempt (fun _ => none)) .initial = (.ok (some m), s) ∧
      Undisturbed m s (imports answering [{ throwingAttempt (fun _ => none) with createModule := true }] s) := by
  obtain ⟨m, s, hrun⟩ : ∃ m s, importOnce answering (throwingAttempt (fun _ => none)) .initial =
    (.ok (some m), s) := ⟨_, _, rfl⟩
  refine ⟨m, s, hrun, (later_imports_iff answering _ .initial s m hrun _).2.mpr (.inr ?_)⟩
  intro env henv
  rw [List.mem_singleton.mp henv]

end SciForge.Binding
