import SciForge.Binding.Dispatch

/-!
# Keyword calls

How a call reaches a C++ function or factory: the parser, the stored defaults, the casters, the call, and what
becomes of their exceptions. `V` is what the casters give, `W` what the function returns.
-/

namespace SciForge.Binding

/-- The keyword arguments of a call: a dict. -/
structure Kwargs where
  items : Dict String PyValue
  nodup : items.keys.Nodup

/-- `PyArg_ParseTupleAndKeywords` on a format, a keyword list and the arguments: the objects it stores, null for
the parameters that are not given, or the error it sets. -/
abbrev ParseTuple := String → List (Option String) → List PyValue → Kwargs → Except PyErr (List (Option PyValue))

inductive CallEvent (V : Type)
  | converted (i : ℕ) (obj : PyValue)
  | called (args : List V)
deriving DecidableEq

structure CallState (V : Type) where
  log : List (CallEvent V)
  pyErr : Option PyErr

/-- A C++ exception in flight, or an index past the end of a vector. -/
inductive CallStop
  | thrown (exn : CxxExn)
  | outOfBounds

/-- A C++ function and the casters of its parameters. The order in which the arguments of one call are
converted is left open by the language. -/
structure Callee (V W : Type) where
  arity : ℕ
  order : List ℕ
  order_perm : order.Perm (List.range arity)
  fromPython : ℕ → PyValue → Except CxxExn V
  call : List V → Except CxxExn W

abbrev Call (V : Type) := Prog (CallState V) CallStop

variable {V W : Type}

def setCallErr (err : PyErr) : Call V Unit := .modify (fun s => { s with pyErr := some err })

def logEvent (event : CallEvent V) : Call V Unit := .modify (fun s => { s with log := s.log ++ [event] })

def indexed {α : Type} (cells : List α) (i : ℕ) : Call V α :=
  match cells[i]? with
  | some a => pure a
  | none => .raise .outOfBounds

def runCxx {α : Type} : Except CxxExn α → Call V α
  | .ok a => pure a
  | .error exn => .raise (.thrown exn)

/-! ### Parsing -/

/-- `parse_kw`: the parser stores through as many pointers as the function has parameters. -/
def parseKw (parse : ParseTuple) (spec : KwSpec) (arity : ℕ) (args : List PyValue) (kwargs : Kwargs) :
    Call V (Option (List (Option PyValue))) :=
  match parse spec.format spec.kwlist args kwargs with
  | .error err => do
    setCallErr err
    pure none
  | .ok objs => if objs.length = arity then pure (some objs) else .raise .outOfBounds

/-- The loop over the objects from position `i` on: an absent one is its stored default; a null default ends
the call. -/
def fillDefaults (defaults : List (Option PyValue)) (i : ℕ) : List (Option PyValue) → Call V (Option (List PyValue))
  | [] => pure (some [])
  | some obj :: rest => do
    let filled ← fillDefaults defaults (i + 1) rest
    pure (filled.map (obj :: ·))
  | none :: rest => do
    let stored ← indexed defaults i
    match stored with
    | none => do
      setCallErr .memoryError
      pure none
    | some obj => do
      let filled ← fillDefaults defaults (i + 1) rest
      pure (filled.map (obj :: ·))

def resolveObjs (parse : ParseTuple) (spec : KwSpec) (arity : ℕ) (args : List PyValue) (kwargs : Kwargs) :
    Call V (Option (List PyValue)) := do
  let parsed ← parseKw parse spec arity args kwargs
  match parsed with
  | none => pure none
  | some objs => fillDefaults spec.defaults 0 objs

/-! ### Calling -/

/-- The conversions, in the order in which they are made. -/
def convertObjs (fromPython : ℕ → PyValue → Except CxxExn V) (objs : List PyValue) : List ℕ → Call V (Dict ℕ V)
  | [] => pure []
  | i :: rest => do
    let obj ← indexed objs i
    logEvent (.converted i obj)
    let v ← runCxx (fromPython i obj)
    let converted ← convertObjs fromPython objs rest
    pure ((i, v) :: converted)

/-- `invoke_objs`, `invoke_factory`: the conversions, then the call. -/
def invokeObjs (callee : Callee V W) (objs : List PyValue) : Call V W := do
  let converted ← convertObjs callee.fromPython objs callee.order
  let args := (List.range callee.arity).filterMap converted.get
  logEvent (.called args)
  runCxx (callee.call args)

/-- The `catch` clauses around a call. -/
def translate (errorType : Option ℕ) (stop : CallStop) : Call V Unit :=
  match stop with
  | .outOfBounds => .raise .outOfBounds
  | .thrown (.castError what) => setCallErr (.typeError what)
  | .thrown exn => .modify (fun s => { s with pyErr := setCppError errorType exn s.pyErr })

/-- `call_wrapper_kw`: the object it returns, or null. -/
def callWrapperKw (parse : ParseTuple) (spec : KwSpec) (callee : Callee V W)
    (toPython : W → Except CxxExn (Option PyValue)) (errorType : Option ℕ) (args : List PyValue) (kwargs : Kwargs) :
    Call V (Option PyValue) := do
  let resolved ← resolveObjs parse spec callee.arity args kwargs
  match resolved with
  | none => pure none
  | some objs =>
    .attempt (do
        let value ← invokeObjs callee objs
        runCxx (toPython value))
      (fun stop => do
        translate errorType stop
        pure none)

/-- `class_init` on an instance that holds `held`: whether it succeeded, and what the instance holds then. -/
def classInit (parse : ParseTuple) (spec : KwSpec) (name : String) (callee : Callee V W) (newFails : Bool)
    (errorType : Option ℕ) (args : List PyValue) (kwargs : Kwargs) (held : Option W) : Call V (Bool × Option W) :=
  if held.isSome then do
    setCallErr (.typeError (name ++ " cannot be re-initialized"))
    pure (false, held)
  else do
    let resolved ← resolveObjs parse spec callee.arity args kwargs
    match resolved with
    | none => pure (false, held)
    | some objs =>
      .attempt (do
          let value ← invokeObjs callee objs
          if newFails then .raise (.thrown .badAlloc) else pure (true, some value))
        (fun stop => do
          translate errorType stop
          pure (false, held))

end SciForge.Binding
