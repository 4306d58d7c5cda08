import SciForge.Binding.Returns
import SciForge.Binding.Calls
import Mathlib.Algebra.Ring.Int.Defs

/-!
# Argument conversions

The casters from Python objects to C++ values, over what the Python API answers about an object, and the errors
they set, clear and throw.
-/

namespace SciForge.Binding

/-- What `PyFloat_AsDouble` gives: a value, the `TypeError` for an object that is no number, or the exception that
`__float__` or `__index__` raised. -/
inductive FloatAnswer
  | value (bits : UInt64)
  | notReal (exn : ℕ)
  | raises (exn : ℕ)
deriving DecidableEq

/-- What the Python API answers about an object: whether it is `None`, its type's name, its truth, the integer it
holds with the exception for one that does not fit, its float value, its UTF-8, its bytes, and the value held by it
as an instance of a wrapped type (null before `__init__`). An answer is an exception's identity where Python
raises. -/
structure PyObj (C H : Type) where
  isNone : Bool
  typeName : Except ℕ String
  truth : Except ℕ Bool
  long : Option ℤ
  overflow : ℕ
  float : FloatAnswer
  utf8 : Option (Except ℕ Bytes)
  bytes : Option Bytes
  held : C → Option (Option H)

/-- The statics of a wrapped type: whether the heap type exists, and its name. -/
structure WrappedType where
  created : Bool
  name : String

/-- Two to the number of bits. -/
def range (bits : ℕ) : ℤ := Int.ofNat (Nat.pow 2 bits)

/-- An integral type other than `bool`. -/
structure IntType where
  signed : Bool
  bits : ℕ
  pos : 0 < bits
  le : bits ≤ 64

/-- `std::numeric_limits<T>::min()`. -/
def IntType.min (type : IntType) : ℤ := if type.signed then -range (type.bits - 1) else 0

/-- `std::numeric_limits<T>::max()`. -/
def IntType.max (type : IntType) : ℤ := if type.signed then range (type.bits - 1) - 1 else range type.bits - 1

/-- The type of a parameter, for `caster<T>`. -/
inductive ParamType (C : Type)
  | bool
  | integral (type : IntType)
  | double
  | string
  | stringView
  | bytesView
  | object
  | wrapped (cls : C)
  | optional (type : ParamType C)

/-- What a caster gives. -/
inductive CxxArg (H : Type)
  | bool (value : Bool)
  | integer (value : ℤ)
  | double (bits : UInt64)
  | text (utf8 : Bytes)
  | bytesView (data : Bytes)
  | object (obj : PyValue)
  | wrapped (held : H)
  | nullopt
  | engaged (value : CxxArg H)

/-- What a call leaves beside the interpreter: the exceptions that Python code run by an argument conversion
raised, the C++ exception that reached the `catch` clauses, and whether `set_cpp_error` ran. -/
structure Trace where
  raised : List ℕ
  caught : Option CxxExn
  bridged : Bool

/-- The types and objects of a process. The module's error type is what its getter reads: null once an import has
failed to register it again. -/
structure Runtime (C H : Type) where
  view : PyValue → PyObj C H
  wrappedType : C → WrappedType
  parse : ParseTuple
  errorType : Option ℕ

abbrev Body := Prog (Interp × Trace) CxxExn

variable {C H : Type}

/-! ### The Python API -/

def setError {ε : Type} (err : Pending) : Prog (Interp × Trace) ε Unit :=
  .modify (fun s => ({ s.1 with pending := some err }, s.2))

/-- `PyErr_Clear`. -/
def clearError : Body Unit := .modify (fun s => ({ s.1 with pending := none }, s.2))

/-- `PyErr_Occurred() != nullptr`. -/
def errorOccurred : Body Bool := do
  let s ← .get
  pure s.1.pending.isSome

/-- Python code run by a conversion raises `exn`. -/
def raisePython (exn : ℕ) : Body Unit :=
  .modify (fun s => ({ s.1 with pending := some (.raised exn) }, { s.2 with raised := s.2.raised ++ [exn] }))

def asLongLong (obj : PyObj C H) (n : ℤ) : Body ℤ :=
  if -range 63 ≤ n ∧ n < range 63 then pure n
  else do
    setError (.raised obj.overflow)
    pure (-1)

def asUnsignedLongLong (obj : PyObj C H) (n : ℤ) : Body ℤ :=
  if 0 ≤ n ∧ n < range 64 then pure n
  else do
    setError (.raised obj.overflow)
    pure (range 64 - 1)

/-- The bits of `-1.0`. -/
def minusOne : UInt64 := 0xBFF0000000000000

def floatAsDouble (obj : PyObj C H) : Body UInt64 :=
  match obj.float with
  | .value bits => pure bits
  | .notReal exn => do
    setError (.raised exn)
    pure minusOne
  | .raises exn => do
    raisePython exn
    pure minusOne

/-- `py_type_name`: an error while the name is fetched is left pending. -/
def pyTypeName (obj : PyObj C H) : Body String :=
  match obj.typeName with
  | .ok name => pure name
  | .error exn => do
    setError (.raised exn)
    pure "?"

/-! ### Casters -/

/-- `throw cast_error("expected X, got " + py_type_name(obj))`. -/
def expected {α : Type} (wanted : String) (obj : PyObj C H) : Body α := do
  let name ← pyTypeName obj
  .raise (.castError ("expected " ++ wanted ++ ", got " ++ name))

def boolFromPython (obj : PyObj C H) : Body Bool :=
  match obj.truth with
  | .ok truth => pure truth
  | .error exn => do
    raisePython exn
    .raise .errorAlreadySet

def integralFromPython (type : IntType) (obj : PyObj C H) : Body ℤ :=
  match obj.long with
  | none => expected "int" obj
  | some n =>
    if type.signed = false ∧ 64 ≤ type.bits then do
      let wide ← asUnsignedLongLong obj n
      let failed ← errorOccurred
      if wide = range 64 - 1 ∧ failed then do
        clearError
        .raise (.castError "int out of range")
      else pure wide
    else do
      let wide ← asLongLong obj n
      let failed ← errorOccurred
      if wide = -1 ∧ failed then do
        clearError
        .raise (.castError "int out of range")
      else
        let fits : Bool :=
          if type.signed then type.min ≤ wide && wide ≤ type.max else 0 ≤ wide && wide ≤ type.max
        if fits then pure wide else .raise (.castError "int out of range")

def doubleFromPython (obj : PyObj C H) : Body UInt64 := do
  let value ← floatAsDouble obj
  let failed ← errorOccurred
  if value = minusOne ∧ failed then do
    clearError
    expected "float" obj
  else pure value

def asUtf8 (obj : PyObj C H) : Body Bytes :=
  match obj.utf8 with
  | none => expected "str" obj
  | some (.ok utf8) => pure utf8
  | some (.error exn) => do
    raisePython exn
    .raise .errorAlreadySet

def bytesFromPython (obj : PyObj C H) : Body Bytes :=
  match obj.bytes with
  | none => expected "bytes" obj
  | some data => pure data

def classUnwrap (type : WrappedType) (cls : C) (obj : PyObj C H) : Body H :=
  if type.created = false then .raise (.castError ("expected a " ++ type.name))
  else
    match obj.held cls with
    | none => .raise (.castError ("expected a " ++ type.name))
    | some none => .raise (.castError ("uninitialized " ++ type.name))
    | some (some held) => pure held

/-- `caster<T>::from_python`. -/
def fromPython (rt : Runtime C H) (obj : PyValue) : ParamType C → Body (CxxArg H)
  | .bool => do
    let value ← boolFromPython (rt.view obj)
    pure (.bool value)
  | .integral type => do
    let value ← integralFromPython type (rt.view obj)
    pure (.integer value)
  | .double => do
    let bits ← doubleFromPython (rt.view obj)
    pure (.double bits)
  | .string | .stringView => do
    let utf8 ← asUtf8 (rt.view obj)
    pure (.text utf8)
  | .bytesView => do
    let data ← bytesFromPython (rt.view obj)
    pure (.bytesView data)
  | .object => pure (.object obj)
  | .wrapped cls => do
    let held ← classUnwrap (rt.wrappedType cls) cls (rt.view obj)
    pure (.wrapped held)
  | .optional type =>
    if (rt.view obj).isNone then pure .nullopt
    else do
      let value ← fromPython rt obj type
      pure (.engaged value)

end SciForge.Binding
