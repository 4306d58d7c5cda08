import SciForge.Binding.Casters

/-!
# Entry points

The functions Python calls: each carries its own `try` block and `catch` clauses around the arity check, the
argument conversions, the call and the return conversion.
-/

namespace SciForge.Binding

variable {C H R : Type}

/-! ### What C++ code does -/

/-- Some `PyObject*` in the value is null. -/
def CxxValue.hasNull : CxxValue H → Bool
  | .object ref => ref.isNone
  | .vector _ items => anyNull items
  | .tuple _ items => anyNull items
  | _ => false
where
  anyNull : List (CxxValue H) → Bool
    | [] => false
    | item :: rest => item.hasNull || anyNull rest

/-- No copy or move in the value throws `error_already_set`, which only code that called Python throws. -/
def CxxValue.movesQuietly : CxxValue H → Bool
  | .wrapped _ (.parameterThrows exn) => exn ≠ .errorAlreadySet
  | .wrapped _ (.moveThrows exn) => exn ≠ .errorAlreadySet
  | .vector _ items => allQuiet items
  | .tuple (.parameterThrows exn) _ => exn ≠ .errorAlreadySet
  | .tuple _ items => allQuiet items
  | _ => true
where
  allQuiet : List (CxxValue H) → Bool
    | [] => true
    | item :: rest => item.movesQuietly && allQuiet rest

/-- What a C++ function returned: nothing, or a value. -/
structure Returned (H : Type) where
  value : Option (CxxValue H)
  quiet : ∀ v, value = some v → v.movesQuietly = true

def Returned.hasNull (returned : Returned H) : Bool := returned.value.any CxxValue.hasNull

/-- What is pending when an exception leaves C++ code: `error_already_set` comes with a Python error, any other
exception with or without one. -/
def ThrownWith (exn : CxxExn) (pending : Option Pending) : Prop :=
  exn = .errorAlreadySet → pending.isSome = true

/-- How a call of C++ code ends: it returns, with a Python error pending exactly when a `PyObject*` it returns is
null, or an exception leaves it. -/
inductive Behaviour (R : Type) (null : R → Bool)
  | returns (value : R) (pending : Option Pending) (agree : pending.isSome = null value)
  | throws (exn : CxxExn) (pending : Option Pending) (agree : ThrownWith exn pending)

/-- A type that holds no `PyObject*`. -/
def notNull (_ : R) : Bool := false

/-- The parameters of a function, and the order in which a call converts its arguments, which the language leaves
open. -/
structure Signature (C : Type) where
  params : List (ParamType C)
  order : List ℕ
  order_perm : order.Perm (List.range params.length)

/-- What the store of a new value into an instance throws: `std::bad_alloc`, or what its move throws. -/
structure StoreThrow where
  exn : CxxExn
  quiet : exn ≠ .errorAlreadySet

/-! ### Calls -/

def behave {null : R → Bool} : Behaviour R null → Body R
  | .returns value pending _ => do
    .modify (fun s => ({ s.1 with pending := pending }, s.2))
    pure value
  | .throws exn pending _ => do
    .modify (fun s => ({ s.1 with pending := pending }, s.2))
    .raise exn

/-- The conversions of a call, in the order in which they are made, with the position of each argument. -/
def Signature.conversions (sig : Signature C) (objs : List PyValue) : List (ℕ × ParamType C × PyValue) :=
  sig.order.filterMap (fun i => (sig.params.zip objs)[i]?.map (fun argument => (i, argument)))

def convertArgs (rt : Runtime C H) : List (ℕ × ParamType C × PyValue) → Body (Dict ℕ (CxxArg H))
  | [] => pure []
  | (i, type, obj) :: rest => do
    let value ← fromPython rt obj type
    let converted ← convertArgs rt rest
    pure ((i, value) :: converted)

/-- `invoke`, `invoke_objs`, `invoke_method`, `invoke_factory` up to the return conversion. -/
def invoke {null : R → Bool} (rt : Runtime C H) (sig : Signature C) (call : List (CxxArg H) → Behaviour R null)
    (objs : List PyValue) : Body R := do
  let converted ← convertArgs rt (sig.conversions objs)
  behave (call ((List.range sig.params.length).filterMap converted.get))

/-- What an entry point answers. -/
inductive Answer (H : Type)
  | null
  | none
  | bool (value : Bool)
  | notImplemented
  | object (object : Built H)
  | status (value : ℤ)
  | hash (value : ℤ)

def Answer.ofObject : Option (Built H) → Answer H
  | .none => .null
  | .some built => .object built

/-- The return conversion: `None` for a function that returns nothing. -/
def returnValue (returned : Returned H) : Body (Answer H) :=
  match returned.value with
  | none => pure .none
  | some value => do
    let object ← .lift (toPython value)
    pure (.ofObject object)

/-! ### Catch clauses -/

abbrev Entry := Prog (Interp × Trace) CallStop

/-- The pending error after `set_cpp_error`. -/
def bridgedError (errorType : Option ℕ) (exn : CxxExn) (pending : Option Pending) : Option Pending :=
  match exn with
  | .errorAlreadySet => pending
  | exn => (setCppError errorType exn none).map .set

/-- `set_cpp_error`. -/
def bridge (errorType : Option ℕ) (exn : CxxExn) : Entry Unit :=
  .modify (fun s => ({ s.1 with pending := bridgedError errorType exn s.1.pending }, { s.2 with bridged := true }))

/-- An exception reaches the `catch` clauses. -/
def noteCaught (exn : CxxExn) : Entry Unit := .modify (fun s => (s.1, { s.2 with caught := some exn }))

/-- A `try` block with its clauses for `cast_error` and for the rest. -/
def guarded (rt : Runtime C H) (sentinel : Answer H) (body : Body (Answer H)) : Entry (Answer H) :=
  .attempt body fun exn => do
    noteCaught exn
    match exn with
    | .castError what => setError (.set (.typeError what))
    | exn => bridge rt.errorType exn
    pure sentinel

def arityError {α : Type} (arity given : ℕ) : Body α :=
  .raise (.castError ("expected " ++ toString arity ++ " argument(s), got " ++ toString given))

/-- A part of the substrate that neither runs C++ code nor converts, from a call's start. -/
def embed {α : Type} (p : Call (CxxArg H) α) : Entry α := fun s =>
  match p ⟨[], none⟩ with
  | (result, call) => (result, ({ s.1 with pending := call.pyErr.map .set }, s.2))

/-- The operation of a rich comparison. -/
inductive CompareOp
  | lt
  | le
  | eq
  | ne
  | gt
  | ge
deriving DecidableEq

/-! ### Functions, methods and getters -/

namespace Runtime

def callWrapper (rt : Runtime C H) (sig : Signature C)
    (func : List (CxxArg H) → Behaviour (Returned H) Returned.hasNull) (args : List PyValue) : Entry (Answer H) :=
  guarded rt .null do
    if args.length ≠ sig.params.length then arityError sig.params.length args.length
    else do
      let value ← invoke rt sig func args
      returnValue value

def callWrapperKw (rt : Runtime C H) (sig : Signature C)
    (func : List (CxxArg H) → Behaviour (Returned H) Returned.hasNull) (spec : KwSpec) (args : List PyValue)
    (kwargs : Kwargs) : Entry (Answer H) := do
  let resolved ← embed (H := H) (resolveObjs rt.parse spec sig.params.length args kwargs)
  match resolved with
  | none => pure .null
  | some objs =>
    guarded rt .null do
      let value ← invoke rt sig func objs
      returnValue value

def callMethod (rt : Runtime C H) (cls : C) (sig : Signature C)
    (func : H → List (CxxArg H) → Behaviour (Returned H) Returned.hasNull) (self : PyValue) (args : List PyValue) :
    Entry (Answer H) :=
  guarded rt .null do
    if args.length ≠ sig.params.length then arityError sig.params.length args.length
    else do
      let held ← classUnwrap (rt.wrappedType cls) cls (rt.view self)
      let value ← invoke rt sig (func held) args
      returnValue value

def propertyGetter (rt : Runtime C H) (cls : C) (get : H → Behaviour (Returned H) Returned.hasNull)
    (self : PyValue) : Entry (Answer H) :=
  guarded rt .null do
    let held ← classUnwrap (rt.wrappedType cls) cls (rt.view self)
    let value ← behave (get held)
    returnValue value

/-! ### Slots -/

/-- `class_repr`; `textError` and `placeholderError` are the errors that making the two `str` objects sets. -/
def classRepr (rt : Runtime C H) (cls : C) (repr : H → Behaviour Bytes notNull)
    (textError : Bytes → Option Pending) (placeholderError : Option Pending) (self : PyValue) : Entry (Answer H) :=
  .attempt (do
      let held ← classUnwrap (rt.wrappedType cls) cls (rt.view self)
      let text ← behave (repr held)
      let object ← .lift (scalarToPython (.text text) (textError text))
      pure (.ofObject object))
    fun exn => do
      noteCaught exn
      match exn with
      | .castError _ => do
        let object ← .lift (scalarToPython (.text (bytes "<uninitialized>")) placeholderError)
        pure (.ofObject object)
      | exn => do
        bridge rt.errorType exn
        pure .null

def classRichcompare (rt : Runtime C H) (cls : C) (eq : H → H → Behaviour Bool notNull) (self other : PyValue)
    (op : CompareOp) : Entry (Answer H) :=
  if op ≠ .eq ∧ op ≠ .ne then pure .notImplemented
  else if (rt.wrappedType cls).created = false ∨ ((rt.view other).held cls).isNone then pure .notImplemented
  else
    .attempt (do
        let left ← classUnwrap (rt.wrappedType cls) cls (rt.view self)
        let right ← classUnwrap (rt.wrappedType cls) cls (rt.view other)
        let equal ← behave (eq left right)
        pure (.bool (if op = .eq then equal else !equal)))
      fun exn => do
        noteCaught exn
        match exn with
        | .castError _ => pure .notImplemented
        | exn => do
          bridge rt.errorType exn
          pure .null

/-- `class_hash`: one clause for every exception. -/
def classHash (rt : Runtime C H) (cls : C) (hash : H → Behaviour (BitVec 64) notNull) (self : PyValue) :
    Entry (Answer H) :=
  .attempt (do
      let held ← classUnwrap (rt.wrappedType cls) cls (rt.view self)
      let value ← behave (hash held)
      pure (.hash (if value.toInt = -1 then -2 else value.toInt)))
    fun exn => do
      noteCaught exn
      bridge rt.errorType exn
      pure (.hash (-1))

/-- `class_init` on an instance that holds `held`. -/
def classInit (rt : Runtime C H) (name : String) (sig : Signature C)
    (factory : List (CxxArg H) → Behaviour H notNull) (store : Option StoreThrow) (spec : KwSpec) (held : Option H)
    (args : List PyValue) (kwargs : Kwargs) : Entry (Answer H) :=
  if held.isSome then do
    setError (.set (.typeError (name ++ " cannot be re-initialized")))
    pure (.status (-1))
  else do
    let resolved ← embed (H := H) (resolveObjs rt.parse spec sig.params.length args kwargs)
    match resolved with
    | none => pure (.status (-1))
    | some objs =>
      guarded rt (.status (-1)) do
        let _ ← invoke rt sig factory objs
        match store with
        | some thrown => .raise thrown.exn
        | none => pure (.status 0)

end Runtime

/-! ### Any entry point -/

/-- What a registered spec and the parser agree on: the parser stores an object for each parameter, and so does
the spec. -/
structure FitsParser (parse : ParseTuple) (spec : KwSpec) (arity : ℕ) : Prop where
  stores : ∀ args kwargs objs, parse spec.format spec.kwlist args kwargs = .ok objs → objs.length = arity
  defaults : spec.defaults.length = arity

/-- A call from Python, with what the C++ code does in it. -/
inductive EntryCall (rt : Runtime C H)
  | wrapper (sig : Signature C) (func : List (CxxArg H) → Behaviour (Returned H) Returned.hasNull)
      (args : List PyValue)
  | wrapperKw (sig : Signature C) (func : List (CxxArg H) → Behaviour (Returned H) Returned.hasNull)
      (spec : KwSpec) (fits : FitsParser rt.parse spec sig.params.length) (args : List PyValue) (kwargs : Kwargs)
  | method (cls : C) (sig : Signature C) (func : H → List (CxxArg H) → Behaviour (Returned H) Returned.hasNull)
      (self : PyValue) (args : List PyValue)
  | getter (cls : C) (get : H → Behaviour (Returned H) Returned.hasNull) (self : PyValue)
  | repr (cls : C) (text : H → Behaviour Bytes notNull) (textError : Bytes → Option Pending)
      (placeholderError : Option Pending) (self : PyValue)
  | richcompare (cls : C) (equal : H → H → Behaviour Bool notNull) (self other : PyValue) (op : CompareOp)
  | hash (cls : C) (value : H → Behaviour (BitVec 64) notNull) (self : PyValue)
  | init (name : String) (sig : Signature C) (factory : List (CxxArg H) → Behaviour H notNull)
      (store : Option StoreThrow) (spec : KwSpec) (fits : FitsParser rt.parse spec sig.params.length)
      (held : Option H) (args : List PyValue) (kwargs : Kwargs)

def EntryCall.run {rt : Runtime C H} : EntryCall rt → Entry (Answer H)
  | .wrapper sig func args => rt.callWrapper sig func args
  | .wrapperKw sig func spec _ args kwargs => rt.callWrapperKw sig func spec args kwargs
  | .method cls sig func self args => rt.callMethod cls sig func self args
  | .getter cls get self => rt.propertyGetter cls get self
  | .repr cls text textError placeholderError self => rt.classRepr cls text textError placeholderError self
  | .richcompare cls equal self other op => rt.classRichcompare cls equal self other op
  | .hash cls value self => rt.classHash cls value self
  | .init name sig factory store spec _ held args kwargs =>
    rt.classInit name sig factory store spec held args kwargs

/-- At a call from Python no error is pending. -/
def Trace.start : Trace := ⟨[], none, false⟩

def EntryCall.result {rt : Runtime C H} (call : EntryCall rt) : Except CallStop (Answer H) × (Interp × Trace) :=
  call.run (.start none, .start)

/-- The answers that tell Python of an error: null, and -1. -/
def Answer.isSentinel : Answer H → Bool
  | .null => true
  | .status value => value = -1
  | .hash value => value = -1
  | _ => false

end SciForge.Binding
