import SciForge.Binding.Statics

/-!
# Keyword specs

How a registration claims the spec of its function and fills it, and what it leaves there.
-/

namespace SciForge.Binding

variable {T F : Type}

/-! ### Registration -/

/-- Which steps of one `add_arg` fail. -/
structure ArgEnv where
  bar : Bool
  kwlist : Bool
  format : Bool
  alloc : Bool
  defaults : Bool

/-- Which steps of filling a spec fail. -/
structure KwEnv where
  arg : ℕ → ArgEnv
  terminator : Bool
  colon : Bool
  name : Bool

def noArg : ArgEnv := ⟨false, false, false, false, false⟩

def noKw : KwEnv := ⟨fun _ => noArg, false, false, false⟩

/-- The object a default's value becomes. -/
def DefaultArg.object : DefaultArg → PyValue
  | .none => .none
  | .cstr s => .str s
  | .floating bits => .float bits
  | .signed v => .int v.toInt
  | .unsigned v => .int v.toNat

/-- `default_object`: null, with `MemoryError` set, when the allocation fails. -/
def defaultObject (fails : Bool) (value : DefaultArg) : Import T F (Option PyValue) :=
  if fails ∧ value ≠ .none then do
    setErr .memoryError
    pure none
  else pure (some value.object)

def claimKwSpec [DecidableEq F] (f : F) (name : String) : Import T F Bool := do
  let w ← .get
  if (w.specs f).epoch ≠ 0 ∧ (w.specs f).epoch = w.epoch then do
    setErr (.systemError
      (name ++ ": a function registered with keyword arguments takes one registration per module"))
    pure false
  else do
    .modify (setSpec f (fun _ => { KwSpec.empty with epoch := w.epoch }))
    pure true

/-- The bar before the first optional parameter. -/
def startOptional [DecidableEq F] (f : F) (fails : Bool) : Import T F Unit := do
  let w ← .get
  if (w.specs f).optionalStarted then pure ()
  else grow fails (setSpec f (fun s => { s with format := s.format ++ "|", optionalStarted := true }))

def addArg [DecidableEq F] (f : F) (env : ArgEnv) (a : ArgSpec) : Import T F Unit :=
  match a.default with
  | none => do
    grow env.kwlist (setSpec f (fun s => { s with kwlist := s.kwlist ++ [some a.name] }))
    grow env.format (setSpec f (fun s => { s with format := s.format ++ "O" }))
    grow env.defaults (setSpec f (fun s => { s with defaults := s.defaults ++ [none] }))
  | some value => do
    startOptional f env.bar
    grow env.kwlist (setSpec f (fun s => { s with kwlist := s.kwlist ++ [some a.name] }))
    grow env.format (setSpec f (fun s => { s with format := s.format ++ "O" }))
    let obj ← defaultObject env.alloc value
    grow env.defaults (setSpec f (fun s => { s with defaults := s.defaults ++ [obj] }))

def addArgs [DecidableEq F] (f : F) (env : ℕ → ArgEnv) : List ArgSpec → Import T F Unit
  | [] => pure ()
  | a :: rest => do
    addArg f (env 0) a
    addArgs f (fun i => env (i + 1)) rest

/-- Claims the spec of `f` and fills it: the part `def` and `def_init` share. -/
def fillKwSpec [DecidableEq F] (f : F) (name : String) (env : KwEnv) (specs : ArgSpecs) : Import T F Unit := do
  let claimed ← claimKwSpec f name
  if claimed then do
    addArgs f env.arg specs.specs
    grow env.terminator (setSpec f (fun s => { s with kwlist := s.kwlist ++ [none] }))
    grow env.colon (setSpec f (fun s => { s with format := s.format ++ ":" }))
    grow env.name (setSpec f (fun s => { s with format := s.format ++ name }))
  else pure ()

/-! ### What a filled spec holds -/

/-- The letters of the parameters, the bar before the first with a default. -/
def argFormat (started : Bool) : List ArgSpec → String
  | [] => ""
  | a :: rest =>
    (if a.default.isSome && !started then "|" else "") ++ "O" ++ argFormat (started || a.default.isSome) rest

/-- Whether the default of a parameter cannot be allocated. -/
def allocFails (alloc : Bool) (a : ArgSpec) : Bool :=
  match a.default with
  | some value => alloc && decide (value ≠ .none)
  | none => false

/-- The default stored for a parameter, null where it has none or the allocation fails. -/
def storedDefault (alloc : Bool) (a : ArgSpec) : Option PyValue :=
  if allocFails alloc a then none else a.default.map DefaultArg.object

def storedDefaults (env : ℕ → ArgEnv) : List ArgSpec → List (Option PyValue)
  | [] => []
  | a :: rest => storedDefault (env 0).alloc a :: storedDefaults (fun i => env (i + 1)) rest

def someAllocFails (env : ℕ → ArgEnv) : List ArgSpec → Bool
  | [] => false
  | a :: rest => allocFails (env 0).alloc a || someAllocFails (fun i => env (i + 1)) rest

def argDefaults (specs : List ArgSpec) : List (Option PyValue) :=
  specs.map (fun a => a.default.map DefaultArg.object)

/-- The spec a registration of `name` leaves, with the given defaults. -/
def filledSpec (epoch : ℕ) (name : String) (specs : List ArgSpec) (defaults : List (Option PyValue)) : KwSpec where
  kwlist := specs.map (fun a => some a.name) ++ [none]
  format := argFormat false specs ++ ":" ++ name
  defaults := defaults
  optionalStarted := specs.any (fun a => a.default.isSome)
  epoch := epoch

/-! ### Filling, step by step -/

def errAfter (w : World T F) (fails : Bool) : Option PyErr := if fails then some .memoryError else w.pyErr

lemma errAfter_cases (w : World T F) (fails : Bool) :
    errAfter w fails = w.pyErr ∨ errAfter w fails = some .memoryError := by
  cases fails
  · exact .inl rfl
  · exact .inr rfl

/-- The spec of `f` was claimed in this import already. -/
def Claimed (w : World T F) (f : F) : Prop := (w.specs f).epoch ≠ 0 ∧ (w.specs f).epoch = w.epoch

def refusal (name : String) : PyErr :=
  .systemError (name ++ ": a function registered with keyword arguments takes one registration per module")

def registeredSpec (w : World T F) (name : String) (env : KwEnv) (specs : ArgSpecs) : KwSpec :=
  filledSpec w.epoch name specs.specs (storedDefaults env.arg specs.specs)

variable [DecidableEq F]

def World.put (w : World T F) (f : F) (k : KwSpec) (err : Option PyErr) (failed : Bool) : World T F :=
  { w with specs := Function.update w.specs f k, pyErr := err, failed := failed }

lemma setSpec_put (w : World T F) (f : F) (g : KwSpec → KwSpec) (k : KwSpec) (err : Option PyErr) (failed : Bool) :
    setSpec f g (w.put f k err failed) = w.put f (g k) err failed := by
  unfold setSpec World.put
  dsimp only
  rw [Function.update_self, Function.update_idem]

@[simp] lemma World.put_specs_self (w : World T F) (f : F) (k : KwSpec) (err : Option PyErr) (failed : Bool) :
    (w.put f k err failed).specs f = k := Function.update_self _ _ _

/-- A registration that threw: only the spec of `f`, claimed in this import, and the error flags differ. -/
def Abandoned (w : World T F) (f : F) (epoch : ℕ) (e : CxxExn) (s : World T F) : Prop :=
  e = .badAlloc ∧ ∃ k err, k.epoch = epoch ∧ (err = w.pyErr ∨ err = some .memoryError) ∧ s = w.put f k err true

/-- A state on the way: the spec of `f` holds `k`, and the flags say whether a default has failed. -/
def Filling (w : World T F) (f : F) (k : KwSpec) (fails : Bool) (s : World T F) : Prop :=
  s = w.put f k (errAfter w fails) (w.failed || fails)

lemma grow_filling {w : World T F} {f : F} {k : KwSpec} {fails : Bool} (env : Bool) (g : KwSpec → KwSpec) :
    Triple (Filling w f k fails) (grow env (setSpec f g)) (fun _ => Filling w f (g k) fails)
      (Abandoned w f k.epoch) := by
  unfold grow
  refine Triple.ite (fun _ => ?_) (fun _ => ?_)
  · refine Triple.bind (M := fun _ s => s = w.put f k (errAfter w fails) true) ?_ (fun _ => ?_)
    · apply Triple.modify
      intro s hs
      rw [hs]
      rfl
    · exact Triple.raise (fun s hs => ⟨rfl, k, _, rfl, errAfter_cases w fails, hs⟩)
  · apply Triple.modify
    intro s hs
    rw [hs]
    exact setSpec_put w f g k _ _

def KwSpec.addParam (k : KwSpec) (a : ArgSpec) (obj : Option PyValue) : KwSpec where
  kwlist := k.kwlist ++ [some a.name]
  format := k.format ++ ((if a.default.isSome && !k.optionalStarted then "|" else "") ++ "O")
  defaults := k.defaults ++ [obj]
  optionalStarted := k.optionalStarted || a.default.isSome
  epoch := k.epoch

lemma startOptional_filling {w : World T F} {f : F} {k : KwSpec} {fails : Bool} (env : Bool) :
    Triple (Filling w f k fails) (startOptional f env)
      (fun _ => Filling w f { k with
        format := k.format ++ (if k.optionalStarted then "" else "|"), optionalStarted := true } fails)
      (Abandoned w f k.epoch) := by
  unfold startOptional
  apply Triple.get
  intro s₀
  refine Triple.assume (c := s₀ = w.put f k (errAfter w fails) (w.failed || fails))
    (fun s hs => hs.1 ▸ hs.2) (fun hs₀ => ?_)
  subst hs₀
  rw [World.put_specs_self]
  refine Triple.ite (fun hstarted => ?_) (fun hstarted => ?_)
  · apply Triple.pure
    intro s hs
    rw [hs.2, hstarted, if_pos rfl, String.append_empty]
    unfold Filling
    congr 1
    rw [← hstarted]
  · refine (grow_filling env _).weaken (fun s hs => hs.2) (fun _ s hs => ?_) (fun _ _ h => h)
    rw [if_neg hstarted]
    exact hs

lemma defaultObject_filling {w : World T F} {f : F} {k : KwSpec} {fails : Bool} (alloc : Bool) (a : ArgSpec)
    {value : DefaultArg} (ha : a.default = some value) :
    Triple (Filling w f k fails) (defaultObject alloc value)
      (fun obj s => obj = storedDefault alloc a ∧ Filling w f k (fails || allocFails alloc a) s)
      (Abandoned w f k.epoch) := by
  have hfails : allocFails alloc a = (alloc && decide (value ≠ .none)) := by
    unfold allocFails
    rw [ha]
  unfold defaultObject
  refine Triple.ite (fun h => ?_) (fun h => ?_)
  · have htrue : allocFails alloc a = true := by
      rw [hfails]
      simpa using h
    refine Triple.bind (M := fun _ => Filling w f k true) ?_ (fun _ => ?_)
    · apply Triple.modify
      intro s hs
      rw [hs]
      unfold Filling
      rw [Bool.or_true]
      rfl
    · refine Triple.pure (fun s hs => ⟨?_, ?_⟩)
      · unfold storedDefault
        rw [if_pos htrue]
      · rw [htrue, Bool.or_true]
        exact hs
  · have hfalse : allocFails alloc a = false := by
      rw [hfails]
      simpa using h
    refine Triple.pure (fun s hs => ⟨?_, ?_⟩)
    · unfold storedDefault
      rw [if_neg (by rw [hfalse]; exact Bool.false_ne_true), ha, Option.map_some]
    · rw [hfalse, Bool.or_false]
      exact hs

lemma addArg_filling {w : World T F} {f : F} {k : KwSpec} {fails : Bool} (env : ArgEnv) (a : ArgSpec) :
    Triple (Filling w f k fails) (addArg f env a)
      (fun _ => Filling w f (k.addParam a (storedDefault env.alloc a)) (fails || allocFails env.alloc a))
      (Abandoned w f k.epoch) := by
  unfold addArg
  cases ha : a.default with
  | none =>
    have hstored : storedDefault env.alloc a = none := by
      unfold storedDefault
      rw [ha, Option.map_none, ite_self]
    have hfails : allocFails env.alloc a = false := by
      unfold allocFails
      rw [ha]
    refine Triple.bind (grow_filling env.kwlist _) (fun _ => Triple.bind (grow_filling env.format _) (fun _ => ?_))
    apply (grow_filling env.defaults _).weakenReturn
    intro _ s hs
    rw [hfails, hstored, Bool.or_false]
    simpa [KwSpec.addParam, ha] using hs
  | some value =>
    refine Triple.bind (startOptional_filling env.bar) (fun _ => Triple.bind (grow_filling env.kwlist _)
      (fun _ => Triple.bind (grow_filling env.format _) (fun _ =>
        Triple.bind (defaultObject_filling env.alloc a ha) (fun obj => ?_))))
    apply Triple.assume (fun _ h => h.1)
    intro hobj
    refine (grow_filling env.defaults _).weaken (fun _ h => h.2) (fun _ s hs => ?_) (fun _ _ h => h)
    rw [hobj] at hs
    cases hstarted : k.optionalStarted <;>
      simpa [KwSpec.addParam, ha, hstarted, String.append_assoc] using hs

def KwSpec.addParams (k : KwSpec) (env : ℕ → ArgEnv) (specs : List ArgSpec) : KwSpec where
  kwlist := k.kwlist ++ specs.map (fun a => some a.name)
  format := k.format ++ argFormat k.optionalStarted specs
  defaults := k.defaults ++ storedDefaults env specs
  optionalStarted := k.optionalStarted || specs.any (fun a => a.default.isSome)
  epoch := k.epoch

lemma KwSpec.addParams_nil (k : KwSpec) (env : ℕ → ArgEnv) : k.addParams env [] = k := by
  simp [addParams, argFormat, storedDefaults]

lemma KwSpec.addParams_cons (k : KwSpec) (env : ℕ → ArgEnv) (a : ArgSpec) (rest : List ArgSpec) :
    k.addParams env (a :: rest) =
      (k.addParam a (storedDefault (env 0).alloc a)).addParams (fun i => env (i + 1)) rest := by
  simp [addParams, addParam, argFormat, storedDefaults, String.append_assoc, Bool.or_assoc]

lemma addArgs_filling {w : World T F} {f : F} (specs : List ArgSpec) {k : KwSpec} {fails : Bool}
    (env : ℕ → ArgEnv) :
    Triple (Filling w f k fails) (addArgs f env specs)
      (fun _ => Filling w f (k.addParams env specs) (fails || someAllocFails env specs))
      (Abandoned w f k.epoch) := by
  induction specs generalizing k fails env with
  | nil =>
    apply Triple.pure
    intro s hs
    rw [KwSpec.addParams_nil, someAllocFails, Bool.or_false]
    exact hs
  | cons a rest ih =>
    apply Triple.bind (addArg_filling (env 0) a)
    intro _
    apply (ih (fun i => env (i + 1))).weakenReturn
    intro _ s hs
    rw [KwSpec.addParams_cons, someAllocFails, ← Bool.or_assoc]
    exact hs

lemma claimKwSpec_spec (w : World T F) (f : F) (name : String) {R : CxxExn → World T F → Prop} :
    Triple (fun s => s = w) (claimKwSpec f name)
      (fun claimed s => (Claimed w f ∧ claimed = false ∧ s = w.err (refusal name)) ∨
        (¬Claimed w f ∧ claimed = true ∧ Filling w f { KwSpec.empty with epoch := w.epoch } false s)) R := by
  unfold claimKwSpec
  apply Triple.get
  intro s₀
  apply Triple.assume (fun s hs => hs.1.symm.trans hs.2)
  intro hs₀
  subst hs₀
  refine Triple.ite (fun h => ?_) (fun h => ?_)
  · refine Triple.bind (M := fun _ s => s = s₀.err (refusal name)) ?_ (fun _ => ?_)
    · apply Triple.modify
      intro s hs
      rw [hs.1]
      rfl
    · exact Triple.pure (fun s hs => .inl ⟨h, rfl, hs⟩)
  · refine Triple.bind
      (M := fun _ => Filling s₀ f { KwSpec.empty with epoch := s₀.epoch } false) ?_ (fun _ => ?_)
    · apply Triple.modify
      intro s hs
      rw [hs.1]
      unfold Filling
      rw [Bool.or_false]
      rfl
    · exact Triple.pure (fun s hs => .inr ⟨h, rfl, hs⟩)

/-- A registration is refused, or fills the spec, or stops on `std::bad_alloc` with the spec claimed. -/
lemma fillKwSpec_spec (w : World T F) (f : F) (name : String) (env : KwEnv) (specs : ArgSpecs) :
    Triple (fun s => s = w) (fillKwSpec f name env specs)
      (fun _ s => (Claimed w f ∧ s = w.err (refusal name)) ∨
        (¬Claimed w f ∧ Filling w f (registeredSpec w name env specs) (someAllocFails env.arg specs.specs) s))
      (fun e s => ¬Claimed w f ∧ Abandoned w f w.epoch e s) := by
  unfold fillKwSpec
  apply Triple.bind (claimKwSpec_spec w f name)
  intro claimed
  by_cases hclaimed : Claimed w f
  · refine Triple.assume (c := claimed = false) ?_ (fun hfalse => ?_)
    · rintro s (⟨-, h, -⟩ | ⟨h, -⟩)
      · exact h
      · exact absurd hclaimed h
    · rw [hfalse, if_neg Bool.false_ne_true]
      apply Triple.pure
      intro s hs
      rcases hs with ⟨h, -, hs⟩ | ⟨h, -⟩
      · exact .inl ⟨h, hs⟩
      · exact absurd hclaimed h
  · refine Triple.assume (c := claimed = true) ?_ (fun htrue => ?_)
    · rintro s (⟨h, -⟩ | ⟨-, h, -⟩)
      · exact absurd h hclaimed
      · exact h
    · rw [if_pos htrue]
      have hfill : Triple (Filling w f { KwSpec.empty with epoch := w.epoch } false)
          (do addArgs f env.arg specs.specs
              grow env.terminator (setSpec f (fun s => { s with kwlist := s.kwlist ++ [none] }))
              grow env.colon (setSpec f (fun s => { s with format := s.format ++ ":" }))
              grow env.name (setSpec f (fun s => { s with format := s.format ++ name })))
          (fun _ => Filling w f (registeredSpec w name env specs) (someAllocFails env.arg specs.specs))
          (Abandoned w f w.epoch) := by
        refine Triple.bind (addArgs_filling specs.specs env.arg) (fun _ => Triple.bind (grow_filling env.terminator _)
          (fun _ => Triple.bind (grow_filling env.colon _) (fun _ => ?_)))
        apply (grow_filling env.name _).weakenReturn
        intro _ s hs
        simpa [registeredSpec, filledSpec, KwSpec.addParams, KwSpec.empty] using hs
      refine hfill.weaken ?_ (fun _ s hs => .inr ⟨hclaimed, hs⟩) (fun _ s hs => ⟨hclaimed, hs⟩)
      rintro s (⟨h, -⟩ | ⟨-, -, hs⟩)
      · exact absurd h hclaimed
      · exact hs

end SciForge.Binding
