import SciForge.Binding.Error
import SciForge.Lib.Prog
import SciForge.Lib.StdVector
import SciForge.Python.Dict
import Mathlib.Logic.Function.Basic

/-!
# What the substrate keeps between calls

The statics of one extension: the import counter, the error type, the method table, one keyword spec for
each function and one registry for each wrapped type. `F` names the C++ functions, `T` the wrapped types.
-/

namespace SciForge.Binding

/-! ### Arguments -/

/-- The value of a `defaulted_arg`, by the type it has. -/
inductive DefaultArg
  | none
  | cstr (s : String)
  | floating (bits : UInt64)
  | signed (v : Int64)
  | unsigned (v : UInt64)
deriving DecidableEq

/-- A Python object: the ones a default gives, and any other by its identity. -/
inductive PyValue
  | none
  | str (s : String)
  | float (bits : UInt64)
  | int (n : ℤ)
  | object (id : ℕ)
deriving DecidableEq

/-- `arg("name")`, or `arg("name") = value`. -/
structure ArgSpec where
  name : String
  default : Option DefaultArg
deriving DecidableEq

/-- The loop over the specs: none without a default after one with. -/
def requiredBeforeOptional (seenOptional : Bool) : List ArgSpec → Bool
  | [] => true
  | spec :: specs =>
    if spec.default.isNone && seenOptional then false
    else requiredBeforeOptional (seenOptional || spec.default.isSome) specs

/-- The `arg()` list of a keyword registration: what its static assertions and its overload ask. -/
structure ArgSpecs where
  specs : List ArgSpec
  nonempty : specs ≠ []
  ordered : requiredBeforeOptional false specs = true

/-! ### Tables -/

/-- The C function behind a table entry: a generated wrapper, or a raw one. -/
inductive Method (F : Type)
  | callWrapper (f : F)
  | callWrapperKw (f : F)
  | callMethod (f : F)
  | raw (f : F)
deriving DecidableEq

/-- `PyMethodDef`; the entry with null fields ends a table. -/
structure MethodDef (F : Type) where
  mlName : Option String
  mlMeth : Option (Method F)
  mlFlags : ℕ
  mlDoc : Option String
deriving DecidableEq

def MethodDef.terminator {F : Type} : MethodDef F := ⟨none, none, 0, none⟩

def methVarargs : ℕ := 1

def methKeywords : ℕ := 2

/-- `PyGetSetDef` of a read-only property. -/
structure GetSetDef (F : Type) where
  name : Option String
  get : Option F
  doc : Option String
deriving DecidableEq

def GetSetDef.terminator {F : Type} : GetSetDef F := ⟨none, none, none⟩

/-- A heap type: what `PyType_FromSpec` made it from. With no `init` it cannot be instantiated. -/
structure TypeObject (F : Type) where
  name : String
  methods : List (MethodDef F)
  getsets : List (GetSetDef F)
  repr : Option F
  richcompare : Option F
  hash : Option F
  init : Option F
deriving DecidableEq

/-- A function object of a module: the table entry it points to. -/
structure FunctionObject where
  buffer : ℕ
  index : ℕ
deriving DecidableEq

/-- What a module attribute holds. -/
inductive Attribute (F : Type)
  | exception (type : ℕ)
  | type (type : TypeObject F)
  | function (f : FunctionObject)
deriving DecidableEq

/-! ### Statics -/

/-- The keyword spec of a function; a default is null for a required parameter. -/
structure KwSpec where
  kwlist : List (Option String)
  format : String
  defaults : List (Option PyValue)
  optionalStarted : Bool
  epoch : ℕ
deriving DecidableEq

def KwSpec.empty : KwSpec := ⟨[], "", [], false, 0⟩

/-- The registry of a wrapped type. -/
structure ClassStatics (F : Type) where
  type : Option (TypeObject F)
  name : String
  methods : List (MethodDef F)
  getsets : List (GetSetDef F)

def ClassStatics.empty {F : Type} : ClassStatics F := ⟨none, "?", [], []⟩

/-- The statics of the extension, the pending Python error, the attributes of the module being initialised
and the identity the next object gets. `failed` says that a step of the import has failed. -/
structure World (T F : Type) where
  epoch : ℕ
  errorStorage : Option ℕ
  table : StdVector (MethodDef F)
  specs : F → KwSpec
  classes : T → ClassStatics F
  pyErr : Option PyErr
  module : Dict String (Attribute F)
  nextId : ℕ
  failed : Bool

def World.initial {T F : Type} : World T F :=
  ⟨0, none, .empty, fun _ => .empty, fun _ => .empty, none, [], 0, false⟩

/-! ### Steps of an import -/

/-- A part of the import: it may throw a C++ exception. -/
abbrev Import (T F : Type) := Prog (World T F) CxxExn

variable {T F : Type}

/-- `w` with a Python error just set. -/
def World.err (w : World T F) (err : PyErr) : World T F := { w with pyErr := some err, failed := true }

def setErr (err : PyErr) : Import T F Unit := .modify (fun w => w.err err)

def throwCxx {α : Type} (exn : CxxExn) : Import T F α := do
  .modify (fun w => { w with failed := true })
  .raise exn

/-- A C++ exception out of the consumer's own code, the Python error it set before, if any. -/
structure Throw where
  exn : CxxExn
  pending : Option PyErr

def consumerCode (throws : Option Throw) : Import T F Unit :=
  match throws with
  | none => pure ()
  | some t => do
    .modify (fun w => { w with pyErr := t.pending.or w.pyErr })
    throwCxx t.exn

lemma consumerCode_none (w : World T F) : consumerCode none w = (.ok (), w) := rfl

lemma consumerCode_some (t : Throw) (w : World T F) :
    consumerCode (some t) w = (.error t.exn, { w with pyErr := t.pending.or w.pyErr, failed := true }) := rfl

/-- A container that grows: `std::bad_alloc` when it cannot. -/
def grow (fails : Bool) (f : World T F → World T F) : Import T F Unit :=
  if fails then throwCxx .badAlloc else .modify f

lemma grow_ok (f : World T F → World T F) (w : World T F) : grow false f w = (.ok (), f w) := rfl

lemma grow_fails (f : World T F → World T F) (w : World T F) :
    grow true f w = (.error .badAlloc, { w with failed := true }) := rfl

def World.setAttr (w : World T F) (attr : String) (value : Attribute F) : World T F :=
  { w with module := w.module.set attr value }

/-- `PyModule_AddObjectRef` on the module being initialised. -/
def addObjectRef (fails : Bool) (attr : String) (value : Attribute F) : Import T F Bool :=
  if fails then do
    setErr .foreign
    pure false
  else do
    .modify (fun w => w.setAttr attr value)
    pure true

def setSpec [DecidableEq F] (f : F) (g : KwSpec → KwSpec) (w : World T F) : World T F :=
  { w with specs := Function.update w.specs f (g (w.specs f)) }

def setClass [DecidableEq T] (t : T) (g : ClassStatics F → ClassStatics F) (w : World T F) : World T F :=
  { w with classes := Function.update w.classes t (g (w.classes t)) }

end SciForge.Binding
