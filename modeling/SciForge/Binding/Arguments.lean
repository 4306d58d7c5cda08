import SciForge.Binding.Conversions
import SciForge.Binding.ReturnSafety
import SciForge.Lib.StdVector

/-!
# Arguments and exceptions of a call

What a call passes to the C++ function, whatever the order of its conversions, and which exception leaves the
conversion of what the function returned.
-/

namespace SciForge.Binding

variable {C H R : Type}

/-! ### Arguments -/

/-- Every conversion of a call accepts its object. -/
def Signature.accepts (rt : Runtime C H) (sig : Signature C) (objs : List PyValue) : Bool :=
  (sig.params.zip objs).all (fun argument => argument.1.accepts rt argument.2)

def Signature.arguments (rt : Runtime C H) (sig : Signature C) (objs : List PyValue) : List (CxxArg H) :=
  (sig.params.zip objs).filterMap (fun argument => argument.1.reads rt argument.2)

lemma conversions_perm (sig : Signature C) (objs : List PyValue) :
    ((sig.conversions objs).map Prod.snd).Perm (sig.params.zip objs) := by
  have hlength : (sig.params.zip objs).length ≤ sig.params.length := by
    rw [List.length_zip]
    exact Nat.min_le_left _ _
  have hmap : (sig.conversions objs).map Prod.snd = sig.order.filterMap (fun i => (sig.params.zip objs)[i]?) := by
    rw [Signature.conversions, List.map_filterMap]
    apply List.filterMap_congr
    intro i _
    rw [Option.map_map]
    exact Option.map_id'
  rw [hmap]
  exact (sig.order_perm.filterMap _).trans (.of_eq (StdVector.filterMap_range_getElem? hlength))

lemma conversions_accepts (rt : Runtime C H) (sig : Signature C) (objs : List PyValue) :
    (sig.conversions objs).all (fun c => c.2.1.accepts rt c.2.2) = sig.accepts rt objs := by
  rw [Signature.accepts, ← (conversions_perm sig objs).all_eq, List.all_map]
  rfl

/-- The values read by the conversions, by position. -/
def readArgs (rt : Runtime C H) (cs : List (ℕ × ParamType C × PyValue)) : Dict ℕ (CxxArg H) :=
  cs.filterMap (fun c => (c.2.1.reads rt c.2.2).map (Prod.mk c.1))

lemma get_filterMap_mk {α : Type} (f : ℕ → Option α) (l : List ℕ) (i : ℕ) :
    Dict.get (l.filterMap (fun j => (f j).map (Prod.mk j))) i = if i ∈ l then f i else none := by
  induction l with
  | nil => rfl
  | cons j rest ih =>
    rw [List.filterMap_cons]
    cases hj : f j with
    | none =>
      rw [Option.map_none]
      by_cases he : i = j
      · subst he
        simp [ih, hj]
      · simp [ih, he]
    | some x =>
      rw [Option.map_some]
      by_cases he : j = i
      · subst he
        simp [Dict.get, hj]
      · simp [Dict.get, he, ih, Ne.symm he]

lemma readArgs_arguments (rt : Runtime C H) (sig : Signature C) (objs : List PyValue) :
    (List.range sig.params.length).filterMap (readArgs rt (sig.conversions objs)).get = sig.arguments rt objs := by
  have hlength : (sig.params.zip objs).length ≤ sig.params.length := by
    rw [List.length_zip]
    exact Nat.min_le_left _ _
  have hread : readArgs rt (sig.conversions objs) = sig.order.filterMap (fun i =>
      ((sig.params.zip objs)[i]?.bind (fun argument => argument.1.reads rt argument.2)).map (Prod.mk i)) := by
    rw [readArgs, Signature.conversions, List.filterMap_filterMap]
    apply List.filterMap_congr
    intro i _
    cases (sig.params.zip objs)[i]? <;> rfl
  have harguments : sig.arguments rt objs = (List.range sig.params.length).filterMap (fun i =>
      (sig.params.zip objs)[i]?.bind (fun argument => argument.1.reads rt argument.2)) := by
    rw [Signature.arguments, ← List.filterMap_filterMap, StdVector.filterMap_range_getElem? hlength]
  rw [hread, harguments]
  apply List.filterMap_congr
  intro i hi
  rw [get_filterMap_mk, if_pos (sig.order_perm.mem_iff.mpr hi)]

variable {rt : Runtime C H}

lemma convertArgs_accepted {cs : List (ℕ × ParamType C × PyValue)}
    (h : cs.all (fun c => c.2.1.accepts rt c.2.2) = true) {s : Interp × Trace} (hs : s.1.pending = none) :
    convertArgs rt cs s = (.ok (readArgs rt cs), s) := by
  induction cs with
  | nil => rfl
  | cons c rest ih =>
    rcases c with ⟨i, type, obj⟩
    rw [List.all_cons, Bool.and_eq_true] at h
    obtain ⟨haccepts, hrest⟩ := h
    rcases fromPython_converted rt obj type hs with ⟨-, value, hread, hrun⟩ | ⟨hrefuses, -⟩
    · unfold convertArgs readArgs
      rw [Prog.run_bind_ok hrun, Prog.run_bind_ok (ih hrest), List.filterMap_cons, hread]
      rfl
    · rw [haccepts] at hrefuses
      cases hrefuses

lemma invoke_accepted {null : R → Bool} {sig : Signature C} {objs : List PyValue}
    (h : sig.accepts rt objs = true) (call : List (CxxArg H) → Behaviour R null) {s : Interp × Trace}
    (hs : s.1.pending = none) : invoke rt sig call objs s = behave (call (sig.arguments rt objs)) s := by
  have hrun := convertArgs_accepted ((conversions_accepts rt sig objs).trans h) hs
  unfold invoke
  rw [Prog.run_bind_ok hrun, readArgs_arguments]

lemma accepts_iff {sig : Signature C} {objs : List PyValue} : sig.accepts rt objs = true ↔
    ∀ (i : ℕ) (type : ParamType C) (obj : PyValue), sig.params[i]? = some type → objs[i]? = some obj →
      type.accepts rt obj = true := by
  rw [Signature.accepts, List.all_eq_true]
  constructor
  · intro h i type obj htype hobj
    exact h (type, obj) (List.mem_of_getElem? (List.getElem?_zip_eq_some.mpr ⟨htype, hobj⟩))
  · rintro h ⟨type, obj⟩ hmem
    obtain ⟨i, hi⟩ := List.mem_iff_getElem?.mp hmem
    obtain ⟨htype, hobj⟩ := List.getElem?_zip_eq_some.mp hi
    exact h i type obj htype hobj

lemma filterMap_getElem?_of_isSome {α β : Type} {f : α → Option β} {l : List α} (h : ∀ a ∈ l, (f a).isSome = true)
    (i : ℕ) : (l.filterMap f)[i]? = l[i]?.bind f := by
  induction l generalizing i with
  | nil => rfl
  | cons a rest ih =>
    obtain ⟨b, hb⟩ := Option.isSome_iff_exists.mp (h a List.mem_cons_self)
    rw [List.filterMap_cons_some hb]
    cases i with
    | zero => exact hb.symm
    | succ i => exact ih (fun a' ha' => h a' (List.mem_cons_of_mem a ha')) i

lemma arguments_getElem? {sig : Signature C} {objs : List PyValue} (h : sig.accepts rt objs = true) {i : ℕ}
    {type : ParamType C} {obj : PyValue} (htype : sig.params[i]? = some type) (hobj : objs[i]? = some obj) :
    (sig.arguments rt objs)[i]? = type.reads rt obj := by
  have hzip : (sig.params.zip objs)[i]? = some (type, obj) := List.getElem?_zip_eq_some.mpr ⟨htype, hobj⟩
  rw [Signature.accepts, List.all_eq_true] at h
  rw [Signature.arguments, filterMap_getElem?_of_isSome, hzip]
  · rfl
  · rintro ⟨type', obj'⟩ hmem
    rcases fromPython_converted rt obj' type' (s := (.start none, .start)) rfl with ⟨-, value, hread, -⟩ |
      ⟨hrefuses, -⟩
    · rw [hread]
      rfl
    · exact absurd (h _ hmem) (by rw [hrefuses]; exact Bool.false_ne_true)

/-! ### Exceptions -/

/-- An exception that `set_cpp_error` gives the module's error type, a `cast_error` apart. -/
def CxxExn.isForeign : CxxExn → Bool
  | .stdException _ | .other => true
  | _ => false

def CxxExn.isCast : CxxExn → Bool
  | .castError _ => true
  | _ => false

/-- The conversion of the value gives null. -/
def CxxValue.comesNull : CxxValue H → Bool
  | .scalar _ error => error.isSome
  | .wrapped _ .noType | .wrapped _ .noInstance | .wrapped _ .noMemory => true
  | _ => false

/-- The exception that leaves the conversion of the value: that of the first item, in their order, whose conversion
throws or gives null. -/
def CxxValue.throws : CxxValue H → Option CxxExn
  | .wrapped _ (.parameterThrows exn) | .wrapped _ (.moveThrows exn) => some exn
  | .object ref => if ref.isNone then some .errorAlreadySet else none
  | .vector true _ => some .errorAlreadySet
  | .vector false items => firstThrow items
  | .tuple (.parameterThrows exn) _ => some exn
  | .tuple .noTuple _ => some .errorAlreadySet
  | .tuple .made items => firstThrow items
  | _ => none
where
  firstThrow : List (CxxValue H) → Option CxxExn
    | [] => none
    | item :: rest => item.throws.or (if item.comesNull then some .errorAlreadySet else firstThrow rest)

/-- A foreign exception leaves the conversion of what the function returned. -/
def Returned.foreign (returned : Returned H) : Bool := (returned.value.bind CxxValue.throws).any CxxExn.isForeign

/-- A foreign exception leaves the function, or what is done `after` it with its value. -/
def Behaviour.foreign {null : R → Bool} (after : R → Bool) : Behaviour R null → Bool
  | .returns value _ _ => after value
  | .throws exn _ _ => exn.isForeign

/-- The same, of a function called on the objects. -/
def Runtime.invokeForeign {null : R → Bool} (rt : Runtime C H) (sig : Signature C)
    (call : List (CxxArg H) → Behaviour R null) (after : R → Bool) (objs : List PyValue) : Bool :=
  sig.accepts rt objs && (call (sig.arguments rt objs)).foreign after

/-- The behaviour throws a `cast_error`. -/
def Behaviour.casts {null : R → Bool} : Behaviour R null → Bool
  | .throws (.castError _) _ _ => true
  | _ => false

/-- The behaviour throws a `cast_error` while a Python error is pending. -/
def Behaviour.castsPending {null : R → Bool} : Behaviour R null → Bool
  | .throws (.castError _) pending _ => pending.isSome
  | _ => false

open CxxValue.throws (firstThrow)

lemma fillContainer_throws (make : List (Built H) → Built H) {thrown : Option CxxExn}
    {setAll : Prog (Interp × List (Built H)) CxxExn Unit}
    (hset : Triple (fun _ => True) setAll (fun _ _ => thrown = none) (fun exn _ => thrown = some exn)) :
    Triple (fun _ => True) (fillContainer make setAll) (fun object _ => thrown = none ∧ object.isNone = false)
      (fun exn _ => thrown = some exn) := by
  intro s _
  have hout := hset (s, []) trivial
  rcases hall : setAll (s, []) with ⟨exn | _, s₁, set⟩
  · rw [hall] at hout
    rw [fillContainer_error hall]
    exact hout
  · rw [hall] at hout
    rw [fillContainer_ok hall]
    exact ⟨hout, rfl⟩

mutual

lemma toPython_throws (v : CxxValue H) : Triple (fun _ => True) (toPython v)
    (fun object _ => v.throws = none ∧ object.isNone = v.comesNull) (fun exn _ => v.throws = some exn) := by
  match v with
  | .scalar value (some err) => exact fun _ _ => ⟨rfl, rfl⟩
  | .scalar value none => exact fun _ _ => ⟨rfl, rfl⟩
  | .wrapped value fate => cases fate <;> first | exact fun _ _ => rfl | exact fun _ _ => ⟨rfl, rfl⟩
  | .object none => exact fun _ _ => rfl
  | .object (some ref) => exact fun _ _ => ⟨rfl, rfl⟩
  | .vector true items => exact fun _ _ => rfl
  | .vector false items =>
    exact fun s _ => fillContainer_throws (.list s.created) (setItems_throws items)
      { s with created := s.created + 1 } trivial
  | .tuple (.parameterThrows exn) items => exact fun _ _ => rfl
  | .tuple .noTuple items => exact fun _ _ => rfl
  | .tuple .made items =>
    exact fun s _ => fillContainer_throws (.tuple s.created) (setItems_throws items)
      { s with created := s.created + 1 } trivial

lemma setItems_throws (items : List (CxxValue H)) : Triple (fun _ => True) (setItems items)
    (fun _ _ => firstThrow items = none) (fun exn _ => firstThrow items = some exn) := by
  match items with
  | [] => exact fun _ _ => rfl
  | item :: rest =>
    unfold setItems
    have hitem : Triple (fun _ => True) (Prog.lift (τ := List (Built H)) (toPython item))
        (fun object _ => item.throws = none ∧ object.isNone = item.comesNull)
        (fun exn _ => firstThrow (item :: rest) = some exn) := by
      refine Triple.lift (fun _ => (toPython_throws item).weakenThrow ?_)
      intro exn s h
      rw [firstThrow, h]
      rfl
    refine Triple.bind hitem (fun object => ?_)
    apply Triple.assume (fun s hs => hs)
    rintro ⟨hthrows, hnull⟩
    cases object with
    | none =>
      intro s _
      have hraise : firstThrow (item :: rest) = some .errorAlreadySet := by
        rw [firstThrow, hthrows, ← hnull]
        rfl
      exact hraise
    | some object =>
      have hrest : firstThrow (item :: rest) = firstThrow rest := by
        rw [firstThrow, hthrows, ← hnull]
        rfl
      rw [hrest]
      intro s _
      exact setItems_throws rest (s.1, s.2 ++ [object]) trivial

end

end SciForge.Binding
