import Mathlib.Data.Nat.Notation

/-!
# The error bridge

C++ exceptions in flight, the pending Python error, and the translation of one into the other.
-/

namespace SciForge.Binding

/-- A C++ exception in flight, as the catch clauses tell them apart. -/
inductive CxxExn
  | castError (what : String)
  | errorAlreadySet
  | badAlloc
  | stdException (what : String)
  | other
deriving DecidableEq

/-- A pending Python error. The error type of a module is an object, known by its identity; `foreign` is an
error some Python call raised itself. -/
inductive PyErr
  | typeError (message : String)
  | systemError (message : String)
  | memoryError
  | ofType (type : ℕ) (message : String)
  | foreign
deriving DecidableEq

/-- `PyErr_SetString(type, message)`; with a null type no error is set. -/
def setErrString (type : Option ℕ) (message : String) : Option PyErr :=
  type.map (fun t => .ofType t message)

/-- The error pending after the translation of `exn`. -/
def setCppError (errorType : Option ℕ) (exn : CxxExn) (pending : Option PyErr) : Option PyErr :=
  match exn with
  | .errorAlreadySet => pending
  | .badAlloc => some .memoryError
  | .castError what => setErrString errorType what
  | .stdException what => setErrString errorType what
  | .other => setErrString errorType "internal error"

lemma setCppError_isSome {type : ℕ} {exn : CxxExn} {pending : Option PyErr}
    (h : exn = .errorAlreadySet → pending.isSome) : (setCppError (some type) exn pending).isSome := by
  cases exn with
  | errorAlreadySet => exact h rfl
  | castError what => rfl
  | badAlloc => rfl
  | stdException what => rfl
  | other => rfl

/-- The trailing component of a dotted name. -/
def attrName (qualifiedName : String) : String :=
  String.ofList ((qualifiedName.toList.reverse.takeWhile (fun c => c ≠ '.')).reverse)

example : attrName "pkg.Widget" = "Widget" := by decide

end SciForge.Binding
