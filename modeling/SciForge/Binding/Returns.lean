import SciForge.Binding.Error
import SciForge.Lib.Prog
import SciForge.Lib.Bytes

/-!
# Return conversions

How a C++ value becomes a Python object: the casters of scalars, strings, wrapped types, `PyObject*`, vectors and
tuples, and the references they create, store, and release. Each node of a value carries the outcome of the calls
that its conversion makes.
-/

namespace SciForge.Binding

/-- A pending error: an exception that Python raised, by its identity, or one that the substrate set. -/
inductive Pending
  | raised (exn : ℕ)
  | set (err : PyErr)
deriving DecidableEq

/-- A reference that a conversion owns: one it created, or one handed over in the value. -/
inductive Ref
  | created (n : ℕ)
  | given (n : ℕ)
deriving DecidableEq

/-- The pending error, the number of references created so far, and those released. -/
structure Interp where
  pending : Option Pending
  created : ℕ
  released : List Ref

def Interp.start (pending : Option Pending) : Interp := ⟨pending, 0, []⟩

/-! ### Values -/

/-- A `bool`, an integer of any type, a `double`, a `std::string` or `std::string_view`. -/
inductive Scalar
  | bool (value : Bool)
  | integer (value : ℤ)
  | double (bits : UInt64)
  | text (utf8 : Bytes)
deriving DecidableEq

/-- How the conversion of a wrapped value ends: its parameter throws while it is copied or moved, the type was
never made, the instance or the heap copy cannot be allocated, the move into the heap copy throws. -/
inductive WrapFate
  | made
  | parameterThrows (exn : CxxExn)
  | noType
  | noInstance
  | noMemory
  | moveThrows (exn : CxxExn)
deriving DecidableEq

/-- How the conversion of a tuple starts: its parameter throws while it is copied or moved, or the tuple cannot be
allocated. -/
inductive TupleFate
  | made
  | parameterThrows (exn : CxxExn)
  | noTuple
deriving DecidableEq

/-- A returned value. A scalar's `error` is set by the call that makes its object, when that fails; a `PyObject*`
is null or a new reference. -/
inductive CxxValue (H : Type)
  | scalar (value : Scalar) (error : Option Pending)
  | wrapped (value : H) (fate : WrapFate)
  | object (ref : Option ℕ)
  | vector (noList : Bool) (items : List (CxxValue H))
  | tuple (fate : TupleFate) (items : List (CxxValue H))

/-- An object that owns a reference to each of its items. The items of a list or a tuple are those set so far, the
other slots are null. -/
inductive Built (H : Type)
  | scalar (ref : ℕ) (value : Scalar)
  | given (ref : ℕ)
  | instance (ref : ℕ) (held : Option H)
  | list (ref : ℕ) (items : List (Built H))
  | tuple (ref : ℕ) (items : List (Built H))

variable {H : Type}

/-- Every reference that goes with an object. -/
def Built.refs : Built H → List Ref
  | .scalar ref _ => [.created ref]
  | .given ref => [.given ref]
  | .instance ref _ => [.created ref]
  | .list ref items => .created ref :: itemRefs items
  | .tuple ref items => .created ref :: itemRefs items
where
  itemRefs : List (Built H) → List Ref
    | [] => []
    | item :: rest => item.refs ++ itemRefs rest

/-! ### Casters -/

abbrev Conversion := Prog Interp CxxExn

section Errors

variable {ε : Type}

def setPending (err : Pending) : Prog Interp ε Unit := .modify (fun s => { s with pending := some err })

/-- A new reference. -/
def newRef : Prog Interp ε ℕ := do
  let s ← .get
  .modify (fun s => { s with created := s.created + 1 })
  pure s.created

/-- The casters of `bool`, the integers, `double` and the strings; a string given as a literal is made the same
way. -/
def scalarToPython (value : Scalar) : Option Pending → Prog Interp ε (Option (Built H))
  | some err => do
    setPending err
    pure none
  | none => do
    let ref ← newRef
    pure (some (.scalar ref value))

end Errors

/-- `Py_DECREF` of the only reference to an object. -/
def decref (object : Built H) : Conversion Unit := .modify (fun s => { s with released := s.released ++ object.refs })

/-- `caster<PyObject*>::to_python`. -/
def objectToPython : Option ℕ → Conversion (Option (Built H))
  | none => .raise .errorAlreadySet
  | some ref => pure (some (.given ref))

/-- `class_wrap`, behind the caster's parameter. -/
def classWrap (value : H) : WrapFate → Conversion (Option (Built H))
  | .parameterThrows exn => .raise exn
  | .noType => do
    setPending (.set (.systemError "wrapped type not registered"))
    pure none
  | .noInstance => do
    setPending (.set .memoryError)
    pure none
  | .noMemory => do
    let obj ← newRef
    decref (.instance obj none : Built H)
    setPending (.set .memoryError)
    pure none
  | .moveThrows exn => do
    let _ ← newRef
    .raise exn
  | .made => do
    let obj ← newRef
    pure (some (.instance obj (some value)))

/-- The `try` block of a container and its handler: `setAll` sets the items of the container `make`, which is
dropped when it throws. -/
def fillContainer (make : List (Built H) → Built H) (setAll : Prog (Interp × List (Built H)) CxxExn Unit) :
    Conversion (Option (Built H)) :=
  .within [] do
    .attempt setAll (fun exn => do
      let s ← .get
      .lift (decref (make s.2))
      .raise exn)
    let s ← .get
    pure (some (make s.2))

/-- An element that is null ends the loop. -/
def setItem : Option (Built H) → Prog (Interp × List (Built H)) CxxExn Unit
  | none => .raise .errorAlreadySet
  | some element => .modify (fun s => (s.1, s.2 ++ [element]))

mutual

/-- `caster<T>::to_python`. -/
def toPython : CxxValue H → Conversion (Option (Built H))
  | .scalar value error => scalarToPython value error
  | .wrapped value fate => classWrap value fate
  | .object ref => objectToPython ref
  | .vector true _ => do
    setPending (.set .memoryError)
    .raise .errorAlreadySet
  | .vector false items => do
    let list ← newRef
    fillContainer (.list list) (setItems items)
  | .tuple (.parameterThrows exn) _ => .raise exn
  | .tuple .noTuple _ => do
    setPending (.set .memoryError)
    .raise .errorAlreadySet
  | .tuple .made items => do
    let tuple ← newRef
    fillContainer (.tuple tuple) (setItems items)

/-- The loop over the elements of a vector, `set_all` of a tuple. -/
def setItems : List (CxxValue H) → Prog (Interp × List (Built H)) CxxExn Unit
  | [] => pure ()
  | item :: rest => do
    let element ← .lift (toPython item)
    setItem element
    setItems rest

end

end SciForge.Binding
