import SciForge.Binding.Class
import Mathlib.Algebra.Group.Nat.Defs

/-!
# The module surface

A registration body, `PyInit`, and sequences of import attempts.
-/

namespace SciForge.Binding

/-! ### Bodies -/

inductive Stmt (T F : Type)
  | defFunction (f : F) (name : String) (doc : Option String)
  | defKw (f : F) (name : String) (doc : Option String) (specs : ArgSpecs)
  | raw (name : String) (f : F) (flags : ℕ) (doc : Option String)
  | type (t : T) (qualifiedName : String) (chain : List (ClassOp F))

/-- What fails in one statement; `grow` is the spare room of a new buffer, if one can be had. -/
structure StmtEnv where
  throws : Option Throw
  kw : KwEnv
  grow : Option ℕ
  op : ℕ → OpEnv
  finish : FinishEnv

/-- What fails in one import attempt. -/
structure AttemptEnv where
  createModule : Bool
  newException : Bool
  addError : Bool
  stmt : ℕ → StmtEnv
  throwsLast : Option Throw
  terminator : Option ℕ
  addFunctions : ℕ → Bool

structure Extension (T F : Type) where
  errorname : String
  body : List (Stmt T F)

variable {T F : Type}

/-! ### Registration -/

/-- `table_.push_back`. -/
def pushTable (spare : Option ℕ) (entry : MethodDef F) : Import T F Unit := do
  let w ← .get
  match w.table.pushBack entry w.nextId spare with
  | none => throwCxx .badAlloc
  | some table => .modify (fun w => { w with table := table, nextId := w.nextId + 1 })

def runStmt [DecidableEq T] [DecidableEq F] (env : StmtEnv) (stmt : Stmt T F) : Import T F Unit := do
  consumerCode env.throws
  match stmt with
  | .defFunction f name doc => pushTable env.grow ⟨some name, some (.callWrapper f), methVarargs, doc⟩
  | .defKw f name doc specs => do
    fillKwSpec f name env.kw specs
    pushTable env.grow ⟨some name, some (.callWrapperKw f), methVarargs ||| methKeywords, doc⟩
  | .raw name f flags doc => pushTable env.grow ⟨some name, some (.raw f), flags, doc⟩
  | .type t qualifiedName chain => typeChain t qualifiedName chain env.op env.finish

/-- `sciforge_module_register`. -/
def register [DecidableEq T] [DecidableEq F] (last : Option Throw) (env : ℕ → StmtEnv) :
    List (Stmt T F) → Import T F Unit
  | [] => consumerCode last
  | stmt :: rest => do
    runStmt (env 0) stmt
    register last (fun i => env (i + 1)) rest

/-! ### PyInit -/

def registerError (env : AttemptEnv) (qualifiedName : String) : Import T F (Option ℕ) :=
  if env.newException then do
    setErr .foreign
    pure none
  else do
    let w ← .get
    .modify (fun w => { w with nextId := w.nextId + 1 })
    let added ← addObjectRef env.addError (attrName qualifiedName) (.exception w.nextId)
    pure (if added then some w.nextId else none)

/-- `PyModule_AddFunctions`: one function object for each entry, up to the terminator. -/
def addFunctions (fails : ℕ → Bool) (buffer index : ℕ) : List (MethodDef F) → Import T F Bool
  | [] => pure true
  | entry :: rest =>
    match entry.mlName with
    | none => pure true
    | some name =>
      if fails index then do
        setErr .foreign
        pure false
      else do
        .modify (fun w => w.setAttr name (.function ⟨buffer, index⟩))
        addFunctions fails buffer (index + 1) rest

/-- The registration inside its `try`: whether it ended without an exception. -/
def guardedRegister [DecidableEq T] [DecidableEq F] (ext : Extension T F) (env : AttemptEnv) : Import T F Bool :=
  .attempt (do
      register env.throwsLast env.stmt ext.body
      pure true)
    (fun exn => do
      .modify (fun w => { w with pyErr := setCppError w.errorStorage exn w.pyErr })
      pure false)

/-- The end of `PyInit`, after a registration without exception. -/
def addTable (env : AttemptEnv) : Import T F (Option (Dict String (Attribute F))) := do
  let w ← .get
  if w.pyErr.isSome then pure none
  else do
    pushTable env.terminator .terminator
    let w ← .get
    let added ← addFunctions env.addFunctions w.table.data 0 w.table.toList
    let w ← .get
    pure (if added then some w.module else none)

/-- The counter is a `size_t`. -/
def nextEpoch (epoch : ℕ) : ℕ := (epoch + 1) % 2 ^ 64

/-- `PyInit`: the attributes of the module, or null. -/
def pyInit [DecidableEq T] [DecidableEq F] (ext : Extension T F) (env : AttemptEnv) :
    Import T F (Option (Dict String (Attribute F))) :=
  if env.createModule then do
    setErr .foreign
    pure none
  else do
    .modify (fun w => { w with module := [] })
    let error ← registerError env ext.errorname
    .modify (fun w => { w with errorStorage := error })
    if error.isNone then pure none
    else do
      .modify (fun w => { w with table := w.table.clear, epoch := nextEpoch w.epoch })
      let registered ← guardedRegister ext env
      if registered then addTable env else pure none

/-! ### Runs -/

def World.start (w : World T F) : World T F := { w with pyErr := none, module := [], failed := false }

/-- One import attempt: what `PyInit` gives, or the exception that left it, and the statics after it. -/
def importOnce [DecidableEq T] [DecidableEq F] (ext : Extension T F) (env : AttemptEnv) (w : World T F) :
    Except CxxExn (Option (Dict String (Attribute F))) × World T F :=
  pyInit ext env w.start

def imports [DecidableEq T] [DecidableEq F] (ext : Extension T F) : List AttemptEnv → World T F → World T F
  | [], w => w
  | env :: rest, w => imports ext rest (importOnce ext env w).2

end SciForge.Binding
