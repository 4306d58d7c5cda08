import SciForge.Binding.Attempts

/-!
# The method table and its functions

A registration that returns leaves the entries of its body in the table, in order, and the module's function
objects point to them.
-/

namespace SciForge.Binding

variable {T F : Type}

/-- The table entry a statement adds. -/
def Stmt.entry : Stmt T F → Option (MethodDef F)
  | .defFunction f name doc => some ⟨some name, some (.callWrapper f), methVarargs, doc⟩
  | .defKw f name doc _ => some ⟨some name, some (.callWrapperKw f), methVarargs ||| methKeywords, doc⟩
  | .raw name f flags doc => some ⟨some name, some (.raw f), flags, doc⟩
  | .type _ _ _ => none

def entries (body : List (Stmt T F)) : List (MethodDef F) := body.filterMap Stmt.entry

/-! ### Registration -/

lemma pushTable_toList (spare : Option ℕ) (entry : MethodDef F) (done : List (MethodDef F)) :
    Triple (fun w : World T F => w.table.toList = done) (pushTable spare entry)
      (fun _ w => w.table.toList = done ++ [entry]) (fun _ _ => True) := by
  unfold pushTable
  apply Triple.get
  intro w
  refine Triple.assume (c := w.table.toList = done) (fun s hs => hs.1 ▸ hs.2) (fun hdone => ?_)
  cases hpush : w.table.pushBack entry w.nextId spare with
  | none => exact fun _ _ => trivial
  | some table =>
    apply Triple.modify
    intro s _
    change table.toList = _
    rw [StdVector.toList_pushBack hpush, hdone]

variable [DecidableEq T] [DecidableEq F]

lemma runStmt_toList (env : StmtEnv) (stmt : Stmt T F) (done : List (MethodDef F)) :
    Triple (fun w : World T F => w.table.toList = done) (runStmt env stmt)
      (fun _ w => w.table.toList = done ++ stmt.entry.toList) (fun _ _ => True) := by
  have hstable : StableAttr (fun _ => True) (fun _ => True) (fun w : World T F => w.table.toList = done) :=
    ⟨⟨fun _ _ h => h, fun _ _ _ h => h, fun _ _ _ h => h⟩, fun _ _ _ h => h⟩
  have htrue : ∀ {α : Type} {p : Import T F α}, Keeps (fun w => w.table.toList = done) p →
      Triple (fun w : World T F => w.table.toList = done) p (fun _ w => w.table.toList = done) (fun _ _ => True) :=
    fun hp => hp.weakenThrow (fun _ _ _ => trivial)
  unfold runStmt
  apply Triple.bind (htrue (consumerCode_stable hstable.toStable env.throws))
  intro _
  cases stmt with
  | defFunction f name doc => exact pushTable_toList _ _ done
  | defKw f name doc specs =>
    apply Triple.bind (htrue (fillKwSpec_stable hstable.toStable trivial name env.kw specs))
    intro _
    exact pushTable_toList _ _ done
  | raw name f flags doc => exact pushTable_toList _ _ done
  | type t qualifiedName chain =>
    have hchain := htrue (typeChain_stable hstable (t := t) trivial qualifiedName chain (fun _ _ => trivial)
      env.op env.finish)
    apply hchain.weakenReturn
    intro _ w h
    rw [h]
    exact (List.append_nil done).symm

lemma register_toList (last : Option Throw) (env : ℕ → StmtEnv) (body : List (Stmt T F))
    (done : List (MethodDef F)) :
    Triple (fun w : World T F => w.table.toList = done) (register last env body)
      (fun _ w => w.table.toList = done ++ entries body) (fun _ _ => True) := by
  induction body generalizing env done with
  | nil =>
    have hstable : Stable (fun _ : F => True) (fun _ : T => True) (fun w : World T F => w.table.toList = done) :=
      ⟨fun _ _ h => h, fun _ _ _ h => h, fun _ _ _ h => h⟩
    refine (consumerCode_stable hstable last).weaken (fun _ h => h) (fun _ w h => ?_) (fun _ _ _ => trivial)
    rw [h]
    exact (List.append_nil done).symm
  | cons stmt rest ih =>
    apply Triple.bind (runStmt_toList (env 0) stmt done)
    intro _
    apply (ih (fun i => env (i + 1)) (done ++ stmt.entry.toList)).weakenReturn
    intro _ w h
    rw [h, List.append_assoc]
    unfold entries
    rw [List.filterMap_cons]
    cases stmt.entry <;> rfl

/-! ### Function objects -/

/-- The table is `v`, and every function of the module points into it, at an entry of its name. -/
def FunctionsAt (v : StdVector (MethodDef F)) (w : World T F) : Prop :=
  w.table = v ∧ ∀ name f, w.module.get name = some (.function f) → f.buffer = v.data ∧
    ∃ entry, v.toList[f.index]? = some entry ∧ entry.mlName = some name

omit [DecidableEq T] [DecidableEq F] in
lemma addFunctions_functionsAt (fails : ℕ → Bool) (v : StdVector (MethodDef F)) (index : ℕ) :
    Keeps (FunctionsAt v) (addFunctions fails v.data index (v.toList.drop index) : Import T F Bool) := by
  generalize hrest : v.toList.drop index = rest
  induction rest generalizing index with
  | nil => exact Triple.pure (fun _ h => h)
  | cons entry rest ih =>
    have hentry : v.toList[index]? = some entry := by
      rw [← List.head?_drop, hrest]
      rfl
    have hdrop : v.toList.drop (index + 1) = rest := by
      rw [← List.tail_drop, hrest]
      rfl
    unfold addFunctions
    cases hname : entry.mlName with
    | none => exact Triple.pure (fun _ h => h)
    | some name =>
      refine Triple.ite (fun _ => ?_) (fun _ => ?_)
      · exact Triple.bind (M := fun _ => FunctionsAt v) (Triple.modify (fun _ h => h))
          (fun _ => Triple.pure (fun _ h => h))
      · refine Triple.bind (M := fun _ => FunctionsAt v) (Triple.modify (fun w h => ⟨h.1, fun name' f hf => ?_⟩))
          (fun _ => ih (index + 1) hdrop)
        rcases Dict.get_set_cases hf with ⟨rfl, hv⟩ | hf
        · obtain rfl := Attribute.function.inj hv
          exact ⟨rfl, entry, hentry, hname⟩
        · exact h.2 name' f hf

/-- No function is in the module yet. -/
def Functionless (w : World T F) : Prop := ∀ name f, w.module.get name ≠ some (.function f)

lemma registration_functionless (ext : Extension T F) (env : AttemptEnv) (w : World T F) :
    Outcome (fun _ => Functionless) (fun _ => Functionless) (registration ext env w) := by
  have hset : ∀ (d : Dict String (Attribute F)) attr value, (∀ f, value ≠ Attribute.function f) →
      (∀ name f, d.get name ≠ some (.function f)) → ∀ name f, (d.set attr value).get name ≠ some (.function f) := by
    intro d attr value hvalue hd name f hf
    rcases Dict.get_set_cases hf with ⟨-, hv⟩ | hf
    · exact hvalue f hv.symm
    · exact hd name f hf
  have hstable : StableTable (fun _ : F => True) (fun _ : T => True) (Functionless : World T F → Prop) :=
    ⟨⟨⟨fun _ _ h => h, fun _ _ _ h => h, fun _ _ _ h => h⟩,
      fun s attr type h => hset s.module attr (.type type) (fun _ hv => by cases hv) h⟩, fun _ _ _ _ h => h⟩
  refine register_stable hstable env.throwsLast env.stmt ext.body (fun _ _ => trivial) (fun _ _ _ _ => trivial)
    (prepared ext w) ?_
  exact hset [] (attrName ext.errorname) (.exception w.nextId) (fun _ hv => by cases hv) (fun _ _ hf => by cases hf)

omit [DecidableEq T] [DecidableEq F] in
lemma addTable_served (env : AttemptEnv) (done : List (MethodDef F)) :
    Triple (fun w : World T F => w.table.toList = done ∧ Functionless w) (addTable env)
      (fun result w => result.isSome → w.table.toList = done ++ [.terminator] ∧ FunctionsAt w.table w)
      (fun _ _ => True) := by
  have hstable : Stable (fun _ : F => True) (fun _ : T => True) (Functionless : World T F → Prop) :=
    ⟨fun _ _ h => h, fun _ _ _ h => h, fun _ _ _ h => h⟩
  have hless := pushTable_stable hstable (fun _ _ _ _ h => h) env.terminator .terminator
  unfold addTable
  refine Triple.get (fun s₀ => Triple.ite (fun _ => ?_) (fun _ => ?_))
  · exact Triple.pure (fun _ _ h => by cases h)
  · have hpush := (pushTable_toList env.terminator .terminator done).both hless
    apply Triple.bind (hpush.weaken (fun _ h => h.2) (fun _ _ h => h) (fun _ _ _ => trivial))
    intro _
    refine Triple.get (fun s₁ => Triple.assume (c := s₁.table.toList = done ++ [.terminator])
      (fun s hs => hs.1 ▸ hs.2.1) (fun hlist => ?_))
    have hfunctions := addFunctions_functionsAt (T := T) env.addFunctions s₁.table 0
    rw [List.drop_zero] at hfunctions
    refine Triple.bind (hfunctions.weaken ?_ (fun _ _ h => h) (fun _ _ _ => trivial)) (fun added => ?_)
    · rintro s ⟨rfl, -, hfree⟩
      exact ⟨rfl, fun name f hf => absurd hf (hfree name f)⟩
    · refine Triple.get (fun s₂ => Triple.pure (fun s hs _ => ?_))
      obtain ⟨-, htable, hfunctions⟩ := hs
      rw [htable]
      exact ⟨hlist, htable, hfunctions⟩

/-- The entry a function object runs: what its cell holds, while its buffer is the table's. -/
def World.entry (w : World T F) (f : FunctionObject) : Option (MethodDef F) :=
  if f.buffer = w.table.data then w.table.cells f.index else none

/-- After an attempt that gives a module: its functions run the entries of the body, under their names. -/
structure Served (body : List (Stmt T F)) (m : Dict String (Attribute F)) (w : World T F) : Prop where
  table : w.table.toList = entries body ++ [.terminator]
  functions : ∀ name f, m.get name = some (.function f) → f.buffer = w.table.data ∧
    ∃ entry, (entries body)[f.index]? = some entry ∧ entry.mlName = some name

omit [DecidableEq T] [DecidableEq F] in
lemma Served.entry {body : List (Stmt T F)} {m : Dict String (Attribute F)} {w : World T F} (h : Served body m w)
    {name : String} {f : FunctionObject} (hf : m.get name = some (.function f)) :
    ∃ stmt ∈ body, ∃ entry, stmt.entry = some entry ∧ w.entry f = some entry ∧ entry.mlName = some name := by
  obtain ⟨hbuffer, entry, hentry, hname⟩ := h.functions name f hf
  obtain ⟨stmt, hstmt, hs⟩ := List.mem_filterMap.mp (List.mem_of_getElem? hentry)
  obtain ⟨hlt, -⟩ := List.getElem?_eq_some_iff.mp hentry
  have hsize : f.index < w.table.size := by
    rw [← w.table.length_toList, h.table, List.length_append]
    omega
  refine ⟨stmt, hstmt, entry, hs, ?_, hname⟩
  unfold World.entry
  rw [if_pos hbuffer, ← w.table.toList_getElem? hsize, h.table, List.getElem?_append_left hlt]
  exact hentry

lemma importOnce_served {ext : Extension T F} {env : AttemptEnv} {w : World T F} {m : Dict String (Attribute F)}
    (h : (importOnce ext env w).1 = .ok (some m)) : Served ext.body m (importOnce ext env w).2 := by
  obtain ⟨-, hm, s, hreg, himport, -⟩ := importOnce_some h
  have hlist := register_toList env.throwsLast env.stmt ext.body [] (prepared ext w) rfl
  have hfree := registration_functionless ext env w
  unfold registration at hreg hfree
  rw [hreg] at hlist hfree
  have hend := addTable_served env (entries ext.body) s ⟨hlist, hfree⟩
  rw [himport] at h hm ⊢
  generalize addTable env s = r at h hm hend ⊢
  rcases r with ⟨e | result, s'⟩
  · cases h
  · obtain rfl := Except.ok.inj h
    obtain ⟨htable, -, hfunctions⟩ := hend rfl
    refine ⟨htable, fun name f hf => ?_⟩
    obtain ⟨hbuffer, entry, hentry, hname⟩ := hfunctions name f (hm ▸ hf)
    refine ⟨hbuffer, entry, ?_, hname⟩
    rw [htable] at hentry
    by_cases hlt : f.index < (entries ext.body).length
    · rw [List.getElem?_append_left hlt] at hentry
      exact hentry
    · -- past the entries there is only the terminator, which has no name
      rw [List.getElem?_append_right (by omega)] at hentry
      obtain rfl := List.mem_singleton.mp (List.mem_of_getElem? hentry)
      cases hname

end SciForge.Binding
