import SciForge.Binding.Arguments
import SciForge.Binding.KwCall

/-!
# Errors of the entry points

What a call leaves: the sentinel and the pending error, how a `cast_error` is translated, and what becomes of an
exception that Python code raised during an argument conversion.
-/

namespace SciForge.Binding

variable {C H R : Type}

open CxxValue (nodes)
open CxxValue.nodes (itemNodes)
open CxxValue.hasNull (anyNull)
open CxxValue.movesQuietly (allQuiet)

/-! ### Return conversions -/

mutual

lemma fails_of_hasNull (v : CxxValue H) (h : v.hasNull = true) : anyFails (nodes v) = true := by
  match v with
  | .object ref => simpa [anyFails, nodes, CxxValue.hasNull] using h
  | .vector noList items => simp [anyFails, nodes, fails_of_anyNull items h]
  | .tuple fate items => simp [anyFails, nodes, fails_of_anyNull items h]

lemma fails_of_anyNull (items : List (CxxValue H)) (h : anyNull items = true) :
    (itemNodes items).any Node.fails = true := by
  match items with
  | item :: rest =>
    rw [itemNodes, List.any_append, Bool.or_eq_true]
    rcases Bool.or_eq_true_iff.mp h with hitem | hrest
    · exact .inl (fails_of_hasNull item hitem)
    · exact .inr (fails_of_anyNull rest hrest)

end

lemma fillContainer_alreadySet (make : List (Built H) → Built H)
    {setAll : Prog (Interp × List (Built H)) CxxExn Unit} {s s' : Interp}
    (hset : ∀ s₁ set, setAll (s, []) = (.error .errorAlreadySet, (s₁, set)) → s₁.pending.isSome = true)
    (hrun : fillContainer make setAll s = (.error .errorAlreadySet, s')) : s'.pending.isSome = true := by
  rcases hall : setAll (s, []) with ⟨exn | _, s₁, set⟩
  · rw [fillContainer_error hall] at hrun
    cases hrun
    exact hset s₁ set hall
  · rw [fillContainer_ok hall] at hrun
    cases hrun

mutual

lemma toPython_alreadySet (v : CxxValue H) {s s' : Interp} (hquiet : v.movesQuietly = true)
    (hnull : v.hasNull = true → s.pending.isSome = true)
    (hrun : toPython v s = (.error .errorAlreadySet, s')) : s'.pending.isSome = true := by
  match v with
  | .scalar value (some err) => cases hrun
  | .scalar value none => cases hrun
  | .wrapped value fate =>
    cases fate with
    | parameterThrows exn =>
      cases hrun
      simp [CxxValue.movesQuietly] at hquiet
    | moveThrows exn =>
      cases hrun
      simp [CxxValue.movesQuietly] at hquiet
    | made => cases hrun
    | noType => cases hrun
    | noInstance => cases hrun
    | noMemory => cases hrun
  | .object none =>
    cases hrun
    exact hnull rfl
  | .object (some ref) => cases hrun
  | .vector true items =>
    cases hrun
    rfl
  | .vector false items =>
    exact fillContainer_alreadySet (.list s.created) (s := { s with created := s.created + 1 })
      (fun _ _ hset => setItems_alreadySet items (s := { s with created := s.created + 1 }) hquiet hnull hset) hrun
  | .tuple (.parameterThrows exn) items =>
    cases hrun
    simp [CxxValue.movesQuietly] at hquiet
  | .tuple .noTuple items =>
    cases hrun
    rfl
  | .tuple .made items =>
    exact fillContainer_alreadySet (.tuple s.created) (s := { s with created := s.created + 1 })
      (fun _ _ hset => setItems_alreadySet items (s := { s with created := s.created + 1 }) hquiet hnull hset) hrun

lemma setItems_alreadySet (items : List (CxxValue H)) {s s' : Interp} {before set : List (Built H)}
    (hquiet : allQuiet items = true) (hnull : anyNull items = true → s.pending.isSome = true)
    (hrun : setItems items (s, before) = (.error .errorAlreadySet, (s', set))) : s'.pending.isSome = true := by
  match items with
  | [] => cases hrun
  | item :: rest =>
    obtain ⟨hitem, hrest⟩ := Bool.and_eq_true_iff.mp hquiet
    have hsettles := toPython_settles item s
    have hlift : ∀ r s₁, toPython item s = (r, s₁) → Prog.lift (toPython item) (s, before) = (r, (s₁, before)) := by
      intro r s₁ h
      unfold Prog.lift
      rw [h]
    rw [setItems] at hrun
    rcases hone : toPython item s with ⟨exn | object, s₁⟩
    · rw [Prog.run_bind_error (hlift _ _ hone)] at hrun
      cases hrun
      exact toPython_alreadySet item hitem (fun h => hnull (Bool.or_eq_true_iff.mpr (.inl h))) hone
    · rw [hone] at hsettles
      rw [Prog.run_bind_ok (hlift _ _ hone)] at hrun
      cases object with
      | none =>
        have hthrow : setItem (none : Option (Built H)) (s₁, before) = (.error .errorAlreadySet, (s₁, before)) := rfl
        rw [Prog.run_bind_error hthrow] at hrun
        cases hrun
        exact hsettles.1
      | some object =>
        have hpending : s₁.pending = s.pending := hsettles.2.pending
        rw [setItem, Prog.run_modify_bind] at hrun
        apply setItems_alreadySet rest hrest _ hrun
        intro h
        rw [hpending]
        exact hnull (Bool.or_eq_true_iff.mpr (.inr h))

end

/-! ### What a `try` block ends with -/

/-- The conversion at which a call stops, if any, is one of a `double` in which Python code raised. -/
def clearsRaised (rt : Runtime C H) : List (ℕ × ParamType C × PyValue) → Bool
  | [] => false
  | (_, type, obj) :: rest =>
    if type.accepts rt obj then clearsRaised rt rest else type.isDouble && (type.raises rt obj).isSome

/-- A call begins: no error is pending. -/
def Begun (s : Interp × Trace) : Prop := s.1.pending = none ∧ s.2 = .start

/-- A `try` block is left by `exn`, `clears` saying whether a `double` hid an exception that Python raised, and
`foreign` whether only the module's error type stands for `exn`. -/
structure Thrown (clears foreign : Bool) (exn : CxxExn) (s : Interp × Trace) : Prop where
  caught : s.2.caught = none
  bridged : s.2.bridged = false
  pending : ThrownWith exn s.1.pending
  isForeign : exn.isForeign = foreign
  raised : (clears = false ∧ s.2.raised = []) ∨
    (clears = false ∧ exn = .errorAlreadySet ∧ ∃ e, s.2.raised = [e] ∧ s.1.pending = some (.raised e)) ∨
    (clears = true ∧ (∃ what, exn = .castError what) ∧ ∃ e, s.2.raised = [e])

/-- A `try` block returned `value`, with an error pending exactly when it is `sentinel`. -/
def Ended (sentinel : R → Bool) (value : R) (s : Interp × Trace) : Prop :=
  s.1.pending.isSome = sentinel value ∧ s.2 = .start

lemma thrown_of_start {foreign : Bool} {exn : CxxExn} {s : Interp × Trace} (htrace : s.2 = .start)
    (hpending : ThrownWith exn s.1.pending) (hforeign : exn.isForeign = foreign) : Thrown false foreign exn s := by
  constructor
  · rw [htrace]
    rfl
  · rw [htrace]
    rfl
  · exact hpending
  · exact hforeign
  · rw [htrace]
    exact .inl ⟨rfl, rfl⟩

lemma Refused.thrown {rt : Runtime C H} {obj : PyValue} {type : ParamType C} {s s' : Interp × Trace} {exn : CxxExn}
    (h : Refused rt obj type s exn s') (hs : Begun s) :
    Thrown (type.isDouble && (type.raises rt obj).isSome) false exn s' := by
  obtain ⟨-, htrace⟩ := hs
  cases h with
  | cast what pending hraises =>
    rw [hraises, Option.isSome_none, Bool.and_false]
    exact thrown_of_start htrace (fun h => by cases h) rfl
  | kept e hraises hdouble =>
    rw [hdouble, Bool.false_and]
    constructor
    · rw [htrace]
      rfl
    · rw [htrace]
      rfl
    · exact fun _ => rfl
    · rfl
    · exact .inr (.inl ⟨rfl, rfl, e, by rw [htrace]; rfl, rfl⟩)
  | cleared e what pending hraises hdouble =>
    rw [hdouble, hraises]
    constructor
    · rw [htrace]
      rfl
    · rw [htrace]
      rfl
    · intro h
      cases h
    · rfl
    · exact .inr (.inr ⟨rfl, ⟨what, rfl⟩, e, by rw [htrace]; rfl⟩)

variable {rt : Runtime C H}

lemma clearsRaised_accepted {cs : List (ℕ × ParamType C × PyValue)}
    (h : cs.all (fun c => c.2.1.accepts rt c.2.2) = true) : clearsRaised rt cs = false := by
  induction cs with
  | nil => rfl
  | cons c rest ih =>
    rw [List.all_cons, Bool.and_eq_true] at h
    rw [clearsRaised, if_pos h.1]
    exact ih h.2

lemma convertArgs_refused {cs : List (ℕ × ParamType C × PyValue)}
    (h : cs.all (fun c => c.2.1.accepts rt c.2.2) = false) {s : Interp × Trace} (hs : Begun s) :
    ∃ exn s', convertArgs rt cs s = (.error exn, s') ∧ Thrown (clearsRaised rt cs) false exn s' := by
  induction cs with
  | nil => cases h
  | cons c rest ih =>
    rcases c with ⟨i, type, obj⟩
    unfold convertArgs clearsRaised
    rcases fromPython_converted rt obj type hs.1 with ⟨haccepts, value, -, hrun⟩ |
      ⟨hrefuses, exn, s', hrun, hrefused⟩
    · rw [List.all_cons, haccepts, Bool.true_and] at h
      obtain ⟨exn, s', hrest, hthrown⟩ := ih h
      rw [Prog.run_bind_ok hrun, if_pos haccepts]
      exact ⟨exn, s', Prog.run_bind_error hrest, hthrown⟩
    · rw [Prog.run_bind_error hrun, if_neg (by simp [hrefuses])]
      exact ⟨exn, s', rfl, hrefused.thrown hs⟩

/-- How a `try` block ends whose first conversion that throws, if any, is told by `clears`, and from which a foreign
exception goes out if `foreign`. -/
abbrev Body.Ends (P : Interp × Trace → Prop) (clears foreign : Bool) (body : Body (Answer H)) : Prop :=
  Triple P body (fun answer s => Ended Answer.isSentinel answer s ∧ clears = false ∧ foreign = false)
    (Thrown clears foreign)

lemma behave_ends {null : R → Bool} (behaviour : Behaviour R null) {after : R → Bool} {next : R → Body (Answer H)}
    (hnext : ∀ value, Body.Ends (Ended null value) false (after value) (next value)) :
    Body.Ends Begun false (behaviour.foreign after) (behave behaviour >>= next) := by
  rintro s ⟨-, htrace⟩
  cases behaviour with
  | returns value pending agree => exact hnext value ({ s.1 with pending := pending }, s.2) ⟨agree, htrace⟩
  | throws exn pending agree =>
    have hthrown : Thrown false exn.isForeign exn ({ s.1 with pending := pending }, s.2) :=
      thrown_of_start htrace agree rfl
    exact hthrown

lemma invoke_ends {null : R → Bool} (sig : Signature C) (call : List (CxxArg H) → Behaviour R null)
    (objs : List PyValue) {after : R → Bool} {next : R → Body (Answer H)}
    (hnext : ∀ value, Body.Ends (Ended null value) false (after value) (next value)) :
    Body.Ends Begun (clearsRaised rt (sig.conversions objs)) (rt.invokeForeign sig call after objs)
      (invoke rt sig call objs >>= next) := by
  intro s hs
  unfold Runtime.invokeForeign
  cases haccepts : sig.accepts rt objs with
  | true =>
    have hclears := clearsRaised_accepted ((conversions_accepts rt sig objs).trans haccepts)
    rw [hclears, Bool.true_and, Prog.run_bind_congr (invoke_accepted haccepts call hs.1)]
    exact behave_ends _ hnext s hs
  | false =>
    obtain ⟨exn, s', hrun, hthrown⟩ := convertArgs_refused ((conversions_accepts rt sig objs).trans haccepts) hs
    have hinvoke : invoke rt sig call objs s = (.error exn, s') := by
      unfold invoke
      exact Prog.run_bind_error hrun
    rw [Bool.false_and, Prog.run_bind_error hinvoke]
    exact hthrown

variable (rt) in
lemma unwrap_run (cls : C) (self : PyValue) (s : Interp × Trace) :
    (∃ held, rt.unwrapped cls self = some held ∧
      classUnwrap (rt.wrappedType cls) cls (rt.view self) s = (.ok held, s)) ∨
    (rt.unwrapped cls self = none ∧
      ∃ what, classUnwrap (rt.wrappedType cls) cls (rt.view self) s = (.error (.castError what), s)) := by
  rcases classUnwrap_run (rt.wrappedType cls) cls (rt.view self) s with ⟨held, hcreated, hheld, hrun⟩ |
    ⟨hrefuses, what, hrun⟩
  · exact .inl ⟨held, by simp [Runtime.unwrapped, hcreated, hheld], hrun⟩
  · refine .inr ⟨?_, what, hrun⟩
    unfold Runtime.unwrapped
    rcases hcreated : (rt.wrappedType cls).created with _ | _
    · rfl
    · rw [hcreated, Bool.true_and] at hrefuses
      rcases hheld : (rt.view self).held cls with _ | _ | held
      · rfl
      · rfl
      · rw [hheld] at hrefuses
        cases hrefuses

lemma returnValue_ends (returned : Returned H) :
    Body.Ends (Ended Returned.hasNull returned) false returned.foreign (returnValue returned) := by
  rintro s ⟨hpending, htrace⟩
  rcases returned with ⟨value, hquiet⟩
  cases value with
  | none => exact ⟨⟨hpending, htrace⟩, rfl, rfl⟩
  | some v =>
    have hnull : s.1.pending.isSome = v.hasNull := hpending
    have hsettles := toPython_settles v s.1
    have hthrows := toPython_throws v s.1 trivial
    unfold returnValue
    dsimp only
    have hlift : ∀ r s₁, toPython v s.1 = (r, s₁) → Prog.lift (toPython v) s = (r, (s₁, s.2)) := by
      intro r s₁ h
      unfold Prog.lift
      rw [h]
    rcases hrun : toPython v s.1 with ⟨exn | object, s₁⟩
    · rw [hrun] at hthrows
      rw [Prog.run_bind_error (hlift _ _ hrun)]
      apply thrown_of_start (s := (s₁, s.2)) htrace
      · rintro rfl
        exact toPython_alreadySet v (hquiet v rfl) (fun h => hnull.trans h) hrun
      · have hthrown : v.throws = some exn := hthrows
        simp [Returned.foreign, hthrown]
    · rw [hrun] at hsettles hthrows
      have hforeign : Returned.foreign ⟨some v, hquiet⟩ = false := by simp [Returned.foreign, hthrows.1]
      rw [Prog.run_bind_ok (hlift _ _ hrun)]
      cases object with
      | none => exact ⟨⟨hsettles.1, htrace⟩, rfl, hforeign⟩
      | some object =>
        refine ⟨⟨?_, htrace⟩, rfl, hforeign⟩
        have hfalse : v.hasNull = false := by
          cases h : v.hasNull with
          | false => rfl
          | true => exact (fails_of_hasNull v h).symm.trans hsettles.2.clean
        change s₁.pending.isSome = false
        rw [hsettles.2.pending, hnull, hfalse]

/-! ### Arguments from the parser -/

section Parser

variable {V : Type}

lemma fillDefaults_run (defaults : List (Option PyValue)) {i : ℕ} {objs : List (Option PyValue)}
    (hlength : i + objs.length ≤ defaults.length) (s : CallState V) :
    (fillDefaults defaults i objs s = (.ok none, { s with pyErr := some .memoryError })) ∨
    (∃ filled, fillDefaults defaults i objs s = (.ok (some filled), s)) := by
  induction objs generalizing i with
  | nil => exact .inr ⟨[], rfl⟩
  | cons obj rest ih =>
    rw [List.length_cons] at hlength
    have hrest := ih (i := i + 1) (by omega)
    cases obj with
    | some obj =>
      unfold fillDefaults
      rcases hrest with hrun | ⟨filled, hrun⟩
      · exact .inl (Prog.run_bind_ok hrun)
      · exact .inr ⟨obj :: filled, Prog.run_bind_ok hrun⟩
    | none =>
      have hlt : i < defaults.length := by omega
      have hindexed : (indexed defaults i : Call V _) s = (.ok defaults[i], s) := by
        rw [indexed, List.getElem?_eq_getElem hlt]
        rfl
      unfold fillDefaults
      rw [Prog.run_bind_ok hindexed]
      cases defaults[i] with
      | none => exact .inl rfl
      | some obj =>
        rcases hrest with hrun | ⟨filled, hrun⟩
        · exact .inl (Prog.run_bind_ok hrun)
        · exact .inr ⟨obj :: filled, Prog.run_bind_ok hrun⟩

lemma resolveObjs_run {parse : ParseTuple} {spec : KwSpec} {arity : ℕ} (hfits : FitsParser parse spec arity)
    (args : List PyValue) (kwargs : Kwargs) (s : CallState V) :
    (∃ err, resolveObjs parse spec arity args kwargs s = (.ok none, { s with pyErr := some err })) ∨
    (∃ objs, resolveObjs parse spec arity args kwargs s = (.ok (some objs), s)) := by
  unfold resolveObjs
  cases hparse : parse spec.format spec.kwlist args kwargs with
  | error err =>
    have hparsed : parseKw parse spec arity args kwargs s = (.ok none, { s with pyErr := some err }) := by
      rw [parseKw, hparse]
      rfl
    exact .inl ⟨err, Prog.run_bind_ok hparsed⟩
  | ok objs =>
    have hlength := hfits.stores args kwargs objs hparse
    have hparsed : parseKw parse spec arity args kwargs s = (.ok (some objs), s) := by
      rw [parseKw, hparse]
      dsimp only
      rw [if_pos hlength]
      rfl
    have hdefaults := hfits.defaults
    rw [Prog.run_bind_ok hparsed]
    have hroom : 0 + objs.length ≤ spec.defaults.length := by omega
    rcases fillDefaults_run spec.defaults hroom s with hrun | ⟨filled, hrun⟩
    · exact .inl ⟨.memoryError, hrun⟩
    · exact .inr ⟨filled, hrun⟩

lemma length_storedDefaults (env : ℕ → ArgEnv) (specs : List ArgSpec) :
    (storedDefaults env specs).length = specs.length := by
  induction specs generalizing env with
  | nil => rfl
  | cons a rest ih => rw [storedDefaults, List.length_cons, List.length_cons, ih]

lemma fitsParser_registered {parse : ParseTuple} (hparse : ParsesAsDocumented parse) (specs : ArgSpecs)
    (hnodup : (specs.specs.map ArgSpec.name).Nodup) (hnames : "" ∉ (specs.specs.map ArgSpec.name).tail)
    {T F : Type} (w : World T F) (name : String) (env : KwEnv) :
    FitsParser parse (registeredSpec w name env specs) specs.specs.length := by
  constructor
  · intro args kwargs objs hobjs
    have hrequired := requiredCount_le specs.specs
    rw [registeredSpec, filledSpec_format, filledSpec_kwlist] at hobjs
    by_cases hwell : WellFormed (requiredCount specs.specs) (specs.specs.map ArgSpec.name) args kwargs
    · rw [hparse.stores name _ _ args kwargs hrequired hnodup hnames hwell] at hobjs
      cases hobjs
      simp
    · obtain ⟨message, hrefused⟩ := hparse.refuses name _ _ args kwargs hrequired hnodup hnames hwell
      rw [hrefused] at hobjs
      cases hobjs
  · exact length_storedDefaults env.arg specs.specs

end Parser

lemma embed_resolveObjs {spec : KwSpec} {arity : ℕ} (hfits : FitsParser rt.parse spec arity) (args : List PyValue)
    (kwargs : Kwargs) {s : Interp × Trace} (hs : Begun s) :
    (∃ err, embed (H := H) (resolveObjs rt.parse spec arity args kwargs) s =
      (.ok none, ({ s.1 with pending := some (.set err) }, s.2))) ∨
    (∃ objs, embed (H := H) (resolveObjs rt.parse spec arity args kwargs) s = (.ok (some objs), s) ∧
      (resolveObjs (V := CxxArg H) rt.parse spec arity args kwargs ⟨[], none⟩).1 = .ok (some objs)) := by
  have hpending : ({ s.1 with pending := none } : Interp) = s.1 := by
    rw [← hs.1]
  unfold embed
  rcases resolveObjs_run (V := CxxArg H) hfits args kwargs ⟨[], none⟩ with ⟨err, hrun⟩ | ⟨objs, hrun⟩
  · rw [hrun]
    exact .inl ⟨err, rfl⟩
  · refine .inr ⟨objs, ?_, by rw [hrun]⟩
    rw [hrun]
    change (_, ({ s.1 with pending := none }, s.2)) = _
    rw [hpending]

/-! ### What a call ends with -/

/-- Unless `muted`, the answer tells Python of an error exactly when one is pending; and the exceptions that Python
code raised in the conversions are still pending unless `clears` says that a `double` hid one. -/
structure Done (muted clears : Bool) (answer : Answer H) (s : Interp × Trace) : Prop where
  sentinel : s.1.pending.isSome = answer.isSentinel ↔ muted = false
  raised : (∀ e ∈ s.2.raised, s.1.pending = some (.raised e)) ↔ clears = false

/-- A `cast_error` that was caught is pending as a `TypeError`, and `set_cpp_error` did not run. -/
def CastsTranslated (s : Interp × Trace) : Prop :=
  ∀ what, s.2.caught = some (.castError what) →
    s.1.pending = some (.set (.typeError what)) ∧ s.2.bridged = false

lemma Ended.done {answer : Answer H} {s : Interp × Trace} (h : Ended Answer.isSentinel answer s) :
    Done false false answer s ∧ CastsTranslated s := by
  obtain ⟨hpending, htrace⟩ := h
  refine ⟨⟨iff_of_true hpending rfl, ?_⟩, ?_⟩
  · rw [htrace]
    simp [Trace.start]
  · intro what hcaught
    rw [htrace] at hcaught
    cases hcaught

/-- `set_cpp_error` sets no error exactly for an exception that the module's error type stands for, when there is no
such type. -/
lemma bridgedError_isSome {exn : CxxExn} {pending : Option Pending} (h : ThrownWith exn pending)
    (errorType : Option ℕ) : (bridgedError errorType exn pending).isSome =
      !(errorType.isNone && (exn.isForeign || exn.isCast)) := by
  cases exn with
  | errorAlreadySet =>
    rw [show CxxExn.errorAlreadySet.isForeign = false from rfl, show CxxExn.errorAlreadySet.isCast = false from rfl,
      Bool.or_false, Bool.and_false]
    exact h rfl
  | badAlloc => exact (congrArg (!·) (Bool.and_false _)).symm
  | castError what => cases errorType <;> rfl
  | stdException what => cases errorType <;> rfl
  | other => cases errorType <;> rfl

/-- The last clause leaves an error if there is a type for it, and what Python raised stays pending with
`error_already_set`. -/
lemma Thrown.bridge_done {clears foreign : Bool} {exn : CxxExn} {s : Interp × Trace} (h : Thrown clears foreign exn s)
    {sentinel : Answer H} (hsentinel : sentinel.isSentinel = true)
    (hraised : s.2.raised = [] ∨ exn = .errorAlreadySet) (errorType : Option ℕ) (trace : Trace)
    (htrace : trace.raised = s.2.raised) :
    Done (errorType.isNone && (foreign || exn.isCast)) clears sentinel
      ({ s.1 with pending := bridgedError errorType exn s.1.pending }, trace) := by
  constructor
  · rw [hsentinel, ← h.isForeign]
    change (bridgedError errorType exn s.1.pending).isSome = true ↔ _
    rw [bridgedError_isSome h.pending, Bool.not_eq_true']
  · rw [htrace]
    rcases h.raised with ⟨hclears, hnone⟩ | ⟨hclears, rfl, e, hone, hkept⟩ | ⟨hclears, ⟨what, rfl⟩, e, hone⟩
    · simp [hnone, hclears]
    · simpa [hone, hclears, bridgedError] using hkept
    · rcases hraised with hnone | hexn
      · rw [hone] at hnone
        cases hnone
      · cases hexn

lemma guarded_done {clears foreign : Bool} {P : Interp × Trace → Prop} {body : Body (Answer H)}
    (hbody : Body.Ends P clears foreign body) {sentinel : Answer H} (hsentinel : sentinel.isSentinel = true) :
    Triple P (guarded rt sentinel body)
      (fun answer s => Done (rt.errorType.isNone && foreign) clears answer s ∧ CastsTranslated s)
      (fun _ _ => False) := by
  refine Triple.attempt (hbody.weakenReturn ?_) ?_
  · rintro answer s ⟨hended, rfl, rfl⟩
    rw [Bool.and_false]
    exact hended.done
  · intro exn s h
    have hbridge : exn.isCast = false →
        Done (rt.errorType.isNone && foreign) clears sentinel
          ({ s.1 with pending := bridgedError rt.errorType exn s.1.pending }, ⟨s.2.raised, some exn, true⟩) ∧
        CastsTranslated ({ s.1 with pending := bridgedError rt.errorType exn s.1.pending },
          ⟨s.2.raised, some exn, true⟩) := by
      intro hcast
      have hnot : ∀ what, exn ≠ .castError what := by
        rintro what rfl
        cases hcast
      have hraised : s.2.raised = [] ∨ exn = .errorAlreadySet := by
        rcases h.raised with ⟨-, hnone⟩ | ⟨-, hexn, -⟩ | ⟨-, ⟨what, hexn⟩, -⟩
        · exact .inl hnone
        · exact .inr hexn
        · exact absurd hexn (hnot what)
      refine ⟨?_, fun what hcaught => absurd (Option.some.inj hcaught) (hnot what)⟩
      have hdone := h.bridge_done hsentinel hraised rt.errorType ⟨s.2.raised, some exn, true⟩ rfl
      rwa [hcast, Bool.or_false] at hdone
    cases exn with
    | castError what =>
      have hforeign : foreign = false := h.isForeign.symm
      refine ⟨⟨?_, ?_⟩, fun what' hcaught => ?_⟩
      · rw [hforeign, Bool.and_false]
        exact iff_of_true hsentinel.symm rfl
      · rcases h.raised with ⟨hclears, hnone⟩ | ⟨-, hexn, -⟩ | ⟨hclears, -, e, hone⟩
        · change (∀ e ∈ s.2.raised, _) ↔ _
          simp [hnone, hclears]
        · cases hexn
        · change (∀ e ∈ s.2.raised, some (Pending.set (.typeError what)) = some (.raised e)) ↔ _
          simp [hone, hclears]
      · obtain rfl := CxxExn.castError.inj (Option.some.inj hcaught)
        exact ⟨rfl, h.bridged⟩
    | errorAlreadySet => exact hbridge rfl
    | badAlloc => exact hbridge rfl
    | stdException what => exact hbridge rfl
    | other => exact hbridge rfl

/-! ### Each entry point -/

/-- An instance of the type that has been initialised. -/
def Runtime.unwraps (rt : Runtime C H) (cls : C) (self : PyValue) : Bool :=
  (rt.wrappedType cls).created && ((rt.view self).held cls).any Option.isSome

lemma unwraps_eq (cls : C) (self : PyValue) : rt.unwraps cls self = (rt.unwrapped cls self).isSome := by
  unfold Runtime.unwraps Runtime.unwrapped
  cases (rt.wrappedType cls).created with
  | false => rfl
  | true => rcases (rt.view self).held cls with _ | _ | held <;> rfl

/-- The objects of a call with keyword arguments, none when the call is refused before its conversions. -/
def Runtime.keywordObjs (rt : Runtime C H) (sig : Signature C) (spec : KwSpec) (args : List PyValue)
    (kwargs : Kwargs) : Option (List PyValue) :=
  match (resolveObjs (V := CxxArg H) rt.parse spec sig.params.length args kwargs ⟨[], none⟩).1 with
  | .ok objs => objs
  | .error _ => none

def Runtime.keywordConversions (rt : Runtime C H) (sig : Signature C) (spec : KwSpec) (args : List PyValue)
    (kwargs : Kwargs) : List (ℕ × ParamType C × PyValue) :=
  ((rt.keywordObjs sig spec args kwargs).map sig.conversions).getD []

/-- The argument conversions a call makes, up to the first that throws. -/
def EntryCall.conversions {rt : Runtime C H} : EntryCall rt → List (ℕ × ParamType C × PyValue)
  | .wrapper sig _ args => if args.length ≠ sig.params.length then [] else sig.conversions args
  | .wrapperKw sig _ spec _ args kwargs => rt.keywordConversions sig spec args kwargs
  | .method cls sig _ self args =>
    if args.length ≠ sig.params.length ∨ rt.unwraps cls self = false then [] else sig.conversions args
  | .init _ sig _ _ spec _ held args kwargs => if held.isSome then [] else rt.keywordConversions sig spec args kwargs
  | _ => []

/-- The only clause of `class_hash` catches a `cast_error` too: the instance is not one of the type or not
initialised, or the hash function throws it. -/
def Runtime.hashCasts (rt : Runtime C H) (cls : C) (value : H → Behaviour (BitVec 64) notNull) (self : PyValue) :
    Bool :=
  if rt.unwraps cls self then
    match (rt.view self).held cls with
    | some (some held) => (value held).casts
    | _ => false
  else true

/-- An exception for which only the module's error type stands reaches `set_cpp_error`: one that is no Python error,
no `bad_alloc` and no `cast_error` leaves the function, the conversion of what it returned, or the store of the new
instance's value; or, in `class_hash`, any `cast_error`. -/
def EntryCall.foreign {rt : Runtime C H} : EntryCall rt → Bool
  | .wrapper sig func args => args.length = sig.params.length && rt.invokeForeign sig func Returned.foreign args
  | .wrapperKw sig func spec _ args kwargs =>
    (rt.keywordObjs sig spec args kwargs).any (rt.invokeForeign sig func Returned.foreign)
  | .method cls sig func self args =>
    args.length = sig.params.length &&
      (rt.unwrapped cls self).any (fun held => rt.invokeForeign sig (func held) Returned.foreign args)
  | .getter cls get self => (rt.unwrapped cls self).any (fun held => (get held).foreign Returned.foreign)
  | .repr cls text _ _ self => (rt.unwrapped cls self).any (fun held => (text held).foreign notNull)
  | .richcompare cls equal self other op =>
    (op = .eq || op = .ne) && (rt.unwrapped cls self).any (fun left =>
      (rt.unwrapped cls other).any (fun right => (equal left right).foreign notNull))
  | .hash cls value self =>
    (rt.unwrapped cls self).any (fun held => (value held).foreign notNull) || rt.hashCasts cls value self
  | .init _ sig factory store spec _ held args kwargs =>
    held.isNone && (rt.keywordObjs sig spec args kwargs).any
      (rt.invokeForeign sig factory (fun _ => store.any (fun thrown => thrown.exn.isForeign)))

/-- What an entry point ends with: never an exception. -/
abbrev Settled (rt : Runtime C H) (clears foreign : Bool) (entry : Entry (Answer H)) : Prop :=
  Triple Begun entry (fun answer s => Done (rt.errorType.isNone && foreign) clears answer s ∧ CastsTranslated s)
    (fun _ _ => False)

lemma refused_settled {answer : Answer H} (hsentinel : answer.isSentinel = true) {s : Interp × Trace}
    (hs : Begun s) (err : PyErr) :
    Done false false answer ({ s.1 with pending := some (.set err) }, s.2) ∧
      CastsTranslated ({ s.1 with pending := some (.set err) }, s.2) :=
  Ended.done ⟨hsentinel.symm, hs.2⟩

lemma castError_ends {body : Body (Answer H)} {s : Interp × Trace} (hs : Begun s) {what : String}
    (hrun : body s = (.error (.castError what), s)) : Outcome
      (fun answer s => Ended Answer.isSentinel answer s ∧ false = false ∧ false = false) (Thrown false false)
      (body s) := by
  rw [hrun]
  exact thrown_of_start hs.2 (fun h => by cases h) rfl

lemma callWrapper_settled (sig : Signature C) (func : List (CxxArg H) → Behaviour (Returned H) Returned.hasNull)
    (args : List PyValue) :
    Settled rt (clearsRaised rt (EntryCall.wrapper sig func args : EntryCall rt).conversions)
      (EntryCall.wrapper sig func args : EntryCall rt).foreign (rt.callWrapper sig func args) := by
  unfold Runtime.callWrapper
  rw [EntryCall.conversions, EntryCall.foreign]
  apply guarded_done _ rfl
  by_cases harity : args.length ≠ sig.params.length
  · rw [if_pos harity, if_pos harity, decide_eq_false harity, Bool.false_and]
    exact fun s hs => castError_ends hs rfl
  · rw [if_neg harity, if_neg harity, decide_eq_true (not_not.mp harity), Bool.true_and]
    exact invoke_ends sig func args returnValue_ends

/-- A call with keyword arguments: refused with an error, or a `try` block on the objects found. -/
lemma keyword_settled (sig : Signature C) {spec : KwSpec} (hfits : FitsParser rt.parse spec sig.params.length)
    (args : List PyValue) (kwargs : Kwargs) {sentinel : Answer H} (hsentinel : sentinel.isSentinel = true)
    {body : List PyValue → Body (Answer H)} {foreign : List PyValue → Bool}
    (hbody : ∀ objs, Body.Ends Begun (clearsRaised rt (sig.conversions objs)) (foreign objs) (body objs)) :
    Settled rt (clearsRaised rt (rt.keywordConversions sig spec args kwargs))
      ((rt.keywordObjs sig spec args kwargs).any foreign)
      (embed (H := H) (resolveObjs rt.parse spec sig.params.length args kwargs) >>= fun resolved =>
        match resolved with
        | none => pure sentinel
        | some objs => guarded rt sentinel (body objs)) := by
  intro s hs
  unfold Runtime.keywordConversions
  rcases embed_resolveObjs hfits args kwargs hs with ⟨err, hrun⟩ | ⟨objs, hrun, hobjs⟩
  · have hrefused : rt.keywordObjs sig spec args kwargs = none := by
      rcases resolveObjs_run (V := CxxArg H) hfits args kwargs ⟨[], none⟩ with ⟨err', hrun'⟩ | ⟨objs, hrun'⟩
      · rw [Runtime.keywordObjs, hrun']
      · unfold embed at hrun
        rw [hrun'] at hrun
        cases hrun
    rw [Prog.run_bind_ok hrun, hrefused, Option.any_none, Bool.and_false]
    exact refused_settled hsentinel hs err
  · have hfound : rt.keywordObjs sig spec args kwargs = some objs := by
      rw [Runtime.keywordObjs, hobjs]
    rw [Prog.run_bind_ok hrun, hfound]
    exact guarded_done (hbody objs) hsentinel s hs

lemma callWrapperKw_settled (sig : Signature C) (func : List (CxxArg H) → Behaviour (Returned H) Returned.hasNull)
    {spec : KwSpec} (hfits : FitsParser rt.parse spec sig.params.length) (args : List PyValue) (kwargs : Kwargs) :
    Settled rt (clearsRaised rt (rt.keywordConversions sig spec args kwargs))
      (EntryCall.wrapperKw sig func spec hfits args kwargs).foreign (rt.callWrapperKw sig func spec args kwargs) :=
  keyword_settled sig hfits args kwargs rfl (fun objs => invoke_ends sig func objs returnValue_ends)

lemma callMethod_settled (cls : C) (sig : Signature C)
    (func : H → List (CxxArg H) → Behaviour (Returned H) Returned.hasNull) (self : PyValue) (args : List PyValue) :
    Settled rt (clearsRaised rt (EntryCall.method cls sig func self args : EntryCall rt).conversions)
      (EntryCall.method cls sig func self args : EntryCall rt).foreign (rt.callMethod cls sig func self args) := by
  unfold Runtime.callMethod
  rw [EntryCall.conversions, EntryCall.foreign, unwraps_eq]
  apply guarded_done _ rfl
  by_cases harity : args.length ≠ sig.params.length
  · rw [if_pos harity, if_pos (.inl harity), decide_eq_false harity, Bool.false_and]
    exact fun s hs => castError_ends hs rfl
  · rw [if_neg harity, decide_eq_true (not_not.mp harity), Bool.true_and]
    intro s hs
    rcases unwrap_run rt cls self s with ⟨held, hheld, hrun⟩ | ⟨hnone, what, hrun⟩
    · rw [Prog.run_bind_ok hrun, hheld, if_neg (by simp [harity])]
      exact invoke_ends sig (func held) args returnValue_ends s hs
    · rw [hnone, if_pos (.inr rfl)]
      exact castError_ends hs (Prog.run_bind_error hrun)

lemma propertyGetter_settled (cls : C) (get : H → Behaviour (Returned H) Returned.hasNull) (self : PyValue) :
    Settled rt false (EntryCall.getter cls get self : EntryCall rt).foreign (rt.propertyGetter cls get self) := by
  unfold Runtime.propertyGetter
  rw [EntryCall.foreign]
  apply guarded_done _ rfl
  intro s hs
  rcases unwrap_run rt cls self s with ⟨held, hheld, hrun⟩ | ⟨hnone, what, hrun⟩
  · rw [Prog.run_bind_ok hrun, hheld]
    exact behave_ends (get held) returnValue_ends s hs
  · rw [hnone]
    exact castError_ends hs (Prog.run_bind_error hrun)

lemma classInit_settled (name : String) (sig : Signature C) (factory : List (CxxArg H) → Behaviour H notNull)
    (store : Option StoreThrow) {spec : KwSpec} (hfits : FitsParser rt.parse spec sig.params.length)
    (held : Option H) (args : List PyValue) (kwargs : Kwargs) :
    Settled rt (clearsRaised rt (EntryCall.init name sig factory store spec hfits held args kwargs).conversions)
      (EntryCall.init name sig factory store spec hfits held args kwargs).foreign
      (rt.classInit name sig factory store spec held args kwargs) := by
  unfold Runtime.classInit
  rw [EntryCall.conversions, EntryCall.foreign]
  cases held with
  | some held =>
    intro s hs
    have hsentinel : (Answer.status (-1) : Answer H).isSentinel = true := rfl
    rw [Option.isNone_some, Bool.false_and, Bool.and_false]
    exact refused_settled hsentinel hs _
  | none =>
    apply keyword_settled sig hfits args kwargs rfl
    intro objs
    refine invoke_ends sig factory objs (fun value => ?_)
    cases store with
    | none => exact Triple.pure (fun s hs => ⟨hs, rfl, rfl⟩)
    | some thrown =>
      apply Triple.raise
      rintro s ⟨-, htrace⟩
      exact thrown_of_start htrace (fun h => absurd h thrown.quiet) rfl

end SciForge.Binding
