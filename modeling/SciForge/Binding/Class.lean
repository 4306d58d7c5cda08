import SciForge.Binding.Dispatch

/-!
# The class builder

A chain on `type<T>`: the operations accumulate into the tables of `T` and into the builder, and the
builder's destructor makes the type. Once the type exists every operation is inert.
-/

namespace SciForge.Binding

structure Builder (F : Type) where
  init : Option F
  repr : Option F
  richcompare : Option F
  hash : Option F
  finished : Bool

def Builder.empty {F : Type} : Builder F := ⟨none, none, none, none, false⟩

inductive ClassOp (F : Type)
  | defMethod (f : F) (name : String) (doc : Option String)
  | defPropRo (f : F) (name : String) (doc : Option String)
  | defRepr (f : F)
  | defRichcompare (f : F)
  | defHash (f : F)
  | raw (name : String) (f : F) (flags : ℕ) (doc : Option String)
  | initOnce
  | defInit (f : F) (specs : ArgSpecs)

/-- `PyType_FromSpec`: it reads the tables up to their first terminator. -/
def typeFromSpec (c : ClassStatics F) (b : Builder F) : TypeObject F where
  name := c.name
  methods := c.methods.takeWhile (fun m => m.mlName.isSome)
  getsets := c.getsets.takeWhile (fun g => g.name.isSome)
  repr := b.repr
  richcompare := b.richcompare
  hash := b.hash
  init := b.init

/-- What fails in one call of a chain: the consumer's code before it, growing a table, filling a spec. -/
structure OpEnv where
  throws : Option Throw
  grow : Bool
  kw : KwEnv

/-- What fails in the destructor. -/
structure FinishEnv where
  methods : Bool
  getsets : Bool
  typeFromSpec : Bool
  addObject : Bool

/-- A part of a chain: it runs on the statics and on its builder. -/
abbrev Chain (T F : Type) := Prog (World T F × Builder F) CxxExn

variable {T F : Type}

/-! ### The calls -/

/-- Inert once the type exists. -/
def unlessCreated (t : T) (p : World T F → Chain T F Unit) : Chain T F Unit := do
  let s ← .get
  if (s.1.classes t).type.isSome then pure () else p s.1

def setBuilder (g : Builder F → Builder F) : Chain T F Unit := .modify (fun s => (s.1, g s.2))

/-- The constructor: fresh tables, unless the type exists. -/
def classCtor [DecidableEq T] (t : T) (qualifiedName : String) (w : World T F) : World T F :=
  if (w.classes t).type.isSome then w
  else setClass t (fun c => { c with name := qualifiedName, methods := [], getsets := [] }) w

def pushMethod [DecidableEq T] (t : T) (fails : Bool) (entry : MethodDef F) : Chain T F Unit :=
  .lift (grow fails (setClass t (fun c => { c with methods := c.methods ++ [entry] })))

def pushGetset [DecidableEq T] (t : T) (fails : Bool) (entry : GetSetDef F) : Chain T F Unit :=
  .lift (grow fails (setClass t (fun c => { c with getsets := c.getsets ++ [entry] })))

def classDef [DecidableEq T] (t : T) (env : OpEnv) (f : F) (name : String) (doc : Option String) : Chain T F Unit :=
  unlessCreated t (fun _ => pushMethod t env.grow ⟨some name, some (.callMethod f), methVarargs, doc⟩)

def classDefPropRo [DecidableEq T] (t : T) (env : OpEnv) (f : F) (name : String) (doc : Option String) :
    Chain T F Unit :=
  unlessCreated t (fun _ => pushGetset t env.grow ⟨some name, some f, doc⟩)

def classDefRepr (t : T) (f : F) : Chain T F Unit :=
  unlessCreated t (fun _ => setBuilder (fun b => { b with repr := some f }))

def classDefRichcompare (t : T) (f : F) : Chain T F Unit :=
  unlessCreated t (fun _ => setBuilder (fun b => { b with richcompare := some f }))

def classDefHash (t : T) (f : F) : Chain T F Unit :=
  unlessCreated t (fun _ => setBuilder (fun b => { b with hash := some f }))

def classRaw [DecidableEq T] (t : T) (env : OpEnv) (name : String) (f : F) (flags : ℕ) (doc : Option String) :
    Chain T F Unit :=
  unlessCreated t (fun _ => pushMethod t env.grow ⟨some name, some (.raw f), flags, doc⟩)

def classInitOnce : Chain T F Unit := pure ()

def classDefInit [DecidableEq F] (t : T) (env : OpEnv) (f : F) (specs : ArgSpecs) : Chain T F Unit :=
  unlessCreated t (fun w => do
    .lift (fillKwSpec f (w.classes t).name env.kw specs)
    setBuilder (fun b => { b with init := some f }))

/-- One call, after the consumer's code that gives its arguments. -/
def runOp [DecidableEq T] [DecidableEq F] (t : T) (env : OpEnv) (op : ClassOp F) : Chain T F Unit := do
  .lift (consumerCode env.throws)
  match op with
  | .defMethod f name doc => classDef t env f name doc
  | .defPropRo f name doc => classDefPropRo t env f name doc
  | .defRepr f => classDefRepr t f
  | .defRichcompare f => classDefRichcompare t f
  | .defHash f => classDefHash t f
  | .raw name f flags doc => classRaw t env name f flags doc
  | .initOnce => classInitOnce
  | .defInit f specs => classDefInit t env f specs

def runChain [DecidableEq T] [DecidableEq F] (t : T) (env : ℕ → OpEnv) : List (ClassOp F) → Chain T F Unit
  | [] => pure ()
  | op :: rest => do
    runOp t (env 0) op
    runChain t (fun i => env (i + 1)) rest

/-! ### The destructor -/

/-- The terminators of both tables; growing them may fail, which becomes the import's error. -/
def pushTerminators [DecidableEq T] (t : T) (env : FinishEnv) : Import T F Bool :=
  .attempt (do
      grow env.methods (setClass t (fun c => { c with methods := c.methods ++ [.terminator] }))
      grow env.getsets (setClass t (fun c => { c with getsets := c.getsets ++ [.terminator] }))
      pure true)
    (fun _ => do
      setErr .memoryError
      pure false)

/-- Makes the type and adds it to the module; a failed add drops it again. -/
def createType [DecidableEq T] (t : T) (env : FinishEnv) (b : Builder F) : Import T F Unit :=
  if env.typeFromSpec then setErr .foreign
  else do
    let w ← .get
    let type := typeFromSpec (w.classes t) b
    .modify (setClass t (fun c => { c with type := some type }))
    let added ← addObjectRef env.addObject (attrName type.name) (.type type)
    if added then pure () else .modify (setClass t (fun c => { c with type := none }))

/-- The type for the module: the existing one, or a new one. -/
def finishType [DecidableEq T] (t : T) (env : FinishEnv) (b : Builder F) : Import T F Unit := do
  let w ← .get
  match (w.classes t).type with
  | some type => do
    let _added ← addObjectRef env.addObject (attrName (w.classes t).name) (.type type)
    pure ()
  | none => do
    let pushed ← pushTerminators t env
    if pushed then createType t env b else pure ()

def finish [DecidableEq T] (t : T) (env : FinishEnv) : Chain T F Unit := do
  let s ← .get
  if s.2.finished then pure ()
  else do
    setBuilder (fun b => { b with finished := true })
    .lift (finishType t env s.2)

/-- A chain: the builder, its calls, and its destructor, which runs also while an exception unwinds. -/
def typeChain [DecidableEq T] [DecidableEq F] (t : T) (qualifiedName : String) (chain : List (ClassOp F)) (op : ℕ → OpEnv)
    (last : FinishEnv) : Import T F Unit := do
  .modify (classCtor t qualifiedName)
  .within .empty (.cleanup (runChain t op chain) (fun s => (finish t last s).2))

end SciForge.Binding
