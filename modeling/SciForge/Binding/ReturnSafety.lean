import SciForge.Binding.Returns
import Mathlib.Data.List.Perm.Basic

/-!
# References of a return conversion

Every reference that a conversion creates or is handed, accounted for: it is in the result, or released, or lost.
-/

namespace SciForge.Binding

variable {H : Type}

/-! ### Values by their nodes -/

/-- A node of a value in the order of conversion: whether its own calls fail, whether they then lose the instance
made, and the reference handed over. -/
structure Node where
  fails : Bool
  losesInstance : Bool
  given : Option ℕ

def WrapFate.fails : WrapFate → Bool
  | .made => false
  | _ => true

def WrapFate.losesInstance : WrapFate → Bool
  | .moveThrows _ => true
  | _ => false

def TupleFate.fails : TupleFate → Bool
  | .made => false
  | _ => true

def CxxValue.nodes : CxxValue H → List Node
  | .scalar _ error => [⟨error.isSome, false, none⟩]
  | .wrapped _ fate => [⟨fate.fails, fate.losesInstance, none⟩]
  | .object ref => [⟨ref.isNone, false, ref⟩]
  | .vector noList items => ⟨noList, false, none⟩ :: itemNodes items
  | .tuple fate items => ⟨fate.fails, false, none⟩ :: itemNodes items
where
  itemNodes : List (CxxValue H) → List Node
    | [] => []
    | item :: rest => item.nodes ++ itemNodes rest

open CxxValue (nodes)
open CxxValue.nodes (itemNodes)
open Built.refs (itemRefs)

/-- Some sub-conversion fails. -/
def anyFails (ns : List Node) : Bool := ns.any Node.fails

/-- At the first node that fails no instance is lost, and no reference was handed over in the nodes after it. -/
def tidy : List Node → Bool
  | [] => true
  | node :: rest =>
    if node.fails then !node.losesInstance && rest.all (fun later => later.given.isNone) else tidy rest

/-- The references handed over. -/
def givenRefs (ns : List Node) : List Ref := (ns.filterMap Node.given).map .given

/-- The object a value becomes, whatever the references to it. -/
inductive Becomes : CxxValue H → Built H → Prop
  | scalar (ref : ℕ) (value : Scalar) : Becomes (.scalar value none) (.scalar ref value)
  | wrapped (ref : ℕ) (value : H) : Becomes (.wrapped value .made) (.instance ref (some value))
  | object (ref : ℕ) : Becomes (.object (some ref)) (.given ref)
  | vector (ref : ℕ) {items : List (CxxValue H)} {objects : List (Built H)}
      (h : List.Forall₂ Becomes items objects) : Becomes (.vector false items) (.list ref objects)
  | tuple (ref : ℕ) {items : List (CxxValue H)} {objects : List (Built H)}
      (h : List.Forall₂ Becomes items objects) : Becomes (.tuple .made items) (.tuple ref objects)

lemma givenRefs_append (ns ms : List Node) : givenRefs (ns ++ ms) = givenRefs ns ++ givenRefs ms := by
  simp [givenRefs]

lemma givenRefs_eq_nil {ns : List Node} : givenRefs ns = [] ↔ ns.all (fun node => node.given.isNone) = true := by
  simp [givenRefs, List.filterMap_eq_nil_iff]

lemma tidy_append_of_fails {ns : List Node} (h : anyFails ns = true) (ms : List Node) :
    tidy (ns ++ ms) = true ↔ tidy ns = true ∧ givenRefs ms = [] := by
  induction ns with
  | nil => cases h
  | cons node rest ih =>
    rw [List.cons_append, tidy, tidy, givenRefs_eq_nil]
    cases hnode : node.fails with
    | true => simp [List.all_append, and_assoc]
    | false =>
      have hrest : anyFails rest = true := by simpa [anyFails, hnode] using h
      simpa [givenRefs_eq_nil] using ih hrest

lemma tidy_append_of_not_fails {ns : List Node} (h : anyFails ns = false) (ms : List Node) :
    tidy (ns ++ ms) = tidy ms := by
  induction ns with
  | nil => rfl
  | cons node rest ih =>
    simp only [anyFails, List.any_cons, Bool.or_eq_false_iff] at h
    rw [List.cons_append, tidy, h.1]
    exact ih h.2

lemma tidy_of_not_fails {ns : List Node} (h : anyFails ns = false) : tidy ns = true := by
  rw [← List.append_nil ns, tidy_append_of_not_fails h]
  rfl

lemma anyFails_append (ns ms : List Node) : anyFails (ns ++ ms) = (anyFails ns || anyFails ms) := List.any_append

/-! ### Accounts -/

/-- The references created between two states. -/
def createdRefs (s s' : Interp) : List Ref := (List.range' s.created (s'.created - s.created)).map .created

lemma createdRefs_self (s : Interp) : createdRefs s s = [] := by simp [createdRefs]

lemma createdRefs_append {s s' s'' : Interp} (h : s.created ≤ s'.created) (h' : s'.created ≤ s''.created) :
    createdRefs s s'' = createdRefs s s' ++ createdRefs s' s'' := by
  rw [createdRefs, createdRefs, createdRefs, ← List.map_append]
  congr 1
  have hsum : s''.created - s.created = s'.created - s.created + (s''.created - s'.created) := by omega
  rw [hsum, ← List.range'_append_1, Nat.add_sub_cancel' h]

/-- From `s` to `s'` the nodes became objects that hold `refs`, and nothing was released. -/
structure Kept (ns : List Node) (s : Interp) (refs : List Ref) (s' : Interp) : Prop where
  clean : anyFails ns = false
  created_le : s.created ≤ s'.created
  refs : refs.Perm (createdRefs s s' ++ givenRefs ns)
  released : s'.released = s.released
  pending : s'.pending = s.pending

/-- From `s` to `s'` the conversion of the nodes failed, with objects that hold `refs` not released yet; nothing
else is lost exactly when the nodes are tidy. -/
structure Dropped (ns : List Node) (s : Interp) (refs : List Ref) (s' : Interp) : Prop where
  fails : anyFails ns = true
  created_le : s.created ≤ s'.created
  lost : ∃ stray, (s'.released ++ refs ++ stray).Perm (s.released ++ (createdRefs s s' ++ givenRefs ns)) ∧
    (stray = [] ↔ tidy ns = true)

lemma Kept.append {ns ms : List Node} {s s' s'' : Interp} {refs refs' : List Ref} (h : Kept ns s refs s')
    (h' : Kept ms s' refs' s'') : Kept (ns ++ ms) s (refs ++ refs') s'' := by
  constructor
  · rw [anyFails_append, h.clean, h'.clean]
    rfl
  · exact h.created_le.trans h'.created_le
  · rw [createdRefs_append h.created_le h'.created_le, givenRefs_append]
    apply (h.refs.append h'.refs).trans
    rw [List.perm_iff_count]
    intro r
    simp only [List.count_append]
    omega
  · exact h'.released.trans h.released
  · exact h'.pending.trans h.pending

lemma Kept.dropped {ns ms : List Node} {s s' s'' : Interp} {refs refs' : List Ref} (h : Kept ns s refs s')
    (h' : Dropped ms s' refs' s'') : Dropped (ns ++ ms) s (refs ++ refs') s'' := by
  obtain ⟨stray, hperm, hstray⟩ := h'.lost
  constructor
  · rw [anyFails_append, h'.fails, Bool.or_true]
  · exact h.created_le.trans h'.created_le
  · refine ⟨stray, ?_, hstray.trans (by rw [tidy_append_of_not_fails h.clean])⟩
    rw [createdRefs_append h.created_le h'.created_le, givenRefs_append]
    have hrefs := h.refs
    rw [h.released] at hperm
    rw [List.perm_iff_count] at hperm hrefs ⊢
    intro r
    have h₁ := hperm r
    have h₂ := hrefs r
    simp only [List.count_append] at h₁ h₂ ⊢
    omega

lemma Dropped.append {ns : List Node} {s s' : Interp} {refs : List Ref} (h : Dropped ns s refs s')
    (ms : List Node) : Dropped (ns ++ ms) s refs s' := by
  obtain ⟨stray, hperm, hstray⟩ := h.lost
  constructor
  · rw [anyFails_append, h.fails, Bool.true_or]
  · exact h.created_le
  · refine ⟨stray ++ givenRefs ms, ?_, ?_⟩
    · rw [givenRefs_append]
      rw [List.perm_iff_count] at hperm ⊢
      intro r
      have h₁ := hperm r
      simp only [List.count_append] at h₁ ⊢
      omega
    · rw [List.append_eq_nil_iff, hstray, tidy_append_of_fails h.fails]

lemma Dropped.release {ns : List Node} {s s' : Interp} {refs held : List Ref} (h : Dropped ns s (refs ++ held) s') :
    Dropped ns s held { s' with released := s'.released ++ refs } := by
  obtain ⟨stray, hperm, hstray⟩ := h.lost
  constructor
  · exact h.fails
  · exact h.created_le
  · refine ⟨stray, ?_, hstray⟩
    simpa [createdRefs] using hperm

/-! ### Casters -/

lemma kept_nothing (s : Interp) : Kept [] s [] s := by
  constructor
  · rfl
  · exact le_refl _
  · simp [createdRefs_self, givenRefs]
  · rfl
  · rfl

lemma kept_newRef (s : Interp) :
    Kept [⟨false, false, none⟩] s [.created s.created] { s with created := s.created + 1 } := by
  constructor
  · rfl
  · simp
  · simp [createdRefs, givenRefs]
  · rfl
  · rfl

lemma dropped_at (s : Interp) (pending : Option Pending) (given : Option ℕ) (hgiven : given = none) :
    Dropped [⟨true, false, given⟩] s [] { s with pending := pending } := by
  subst hgiven
  constructor
  · rfl
  · exact le_refl _
  · exact ⟨[], by simp [createdRefs, givenRefs], by simp [tidy]⟩

/-- What the conversion of `v` from `s` ends with. -/
def Settles (v : CxxValue H) (s : Interp) : Except CxxExn (Option (Built H)) × Interp → Prop
  | (.ok (some object), s') => Becomes v object ∧ Kept (nodes v) s object.refs s'
  | (.ok none, s') => s'.pending.isSome = true ∧ Dropped (nodes v) s [] s'
  | (.error _, s') => Dropped (nodes v) s [] s'

/-- What the loop over the items from `s` ends with, the items set before it being `before`. -/
def SettlesAll (items : List (CxxValue H)) (s : Interp) (before : List (Built H)) :
    Except CxxExn Unit × (Interp × List (Built H)) → Prop
  | (.ok _, s', set) => ∃ objects, set = before ++ objects ∧ List.Forall₂ Becomes items objects ∧
      Kept (itemNodes items) s (itemRefs objects) s'
  | (.error _, s', set) => ∃ objects, set = before ++ objects ∧ Dropped (itemNodes items) s (itemRefs objects) s'

lemma scalarToPython_settles (value : Scalar) (error : Option Pending) (s : Interp) :
    Settles (.scalar value error : CxxValue H) s (scalarToPython value error s) := by
  cases error with
  | some err => exact ⟨rfl, dropped_at s _ none rfl⟩
  | none => exact ⟨.scalar _ _, kept_newRef s⟩

lemma objectToPython_settles (ref : Option ℕ) (s : Interp) :
    Settles (.object ref : CxxValue H) s (objectToPython ref s) := by
  cases ref with
  | none => exact dropped_at s s.pending none rfl
  | some ref =>
    constructor
    · exact .object ref
    · constructor
      · rfl
      · exact le_refl _
      · simp [createdRefs_self, givenRefs, nodes, Built.refs]
      · rfl
      · rfl

lemma classWrap_settles (value : H) (fate : WrapFate) (s : Interp) :
    Settles (.wrapped value fate) s (classWrap value fate s) := by
  cases fate with
  | made => exact ⟨.wrapped _ _, kept_newRef s⟩
  | parameterThrows exn => exact dropped_at s s.pending none rfl
  | noType => exact ⟨rfl, dropped_at s _ none rfl⟩
  | noInstance => exact ⟨rfl, dropped_at s _ none rfl⟩
  | noMemory =>
    constructor
    · rfl
    · constructor
      · rfl
      · exact Nat.le_succ _
      · refine ⟨[], ?_, by simp [tidy, nodes, WrapFate.losesInstance]⟩
        simp [createdRefs, givenRefs, nodes, Built.refs]
  | moveThrows exn =>
    -- the instance is neither returned nor released
    constructor
    · rfl
    · exact Nat.le_succ _
    · refine ⟨[.created s.created], ?_, by simp [tidy, nodes, WrapFate.losesInstance, WrapFate.fails]⟩
      simp [createdRefs, givenRefs, nodes]

section Containers

variable {make : List (Built H) → Built H} {setAll : Prog (Interp × List (Built H)) CxxExn Unit} {s s' : Interp}
  {set : List (Built H)}

lemma fillContainer_ok (h : setAll (s, []) = (.ok (), (s', set))) :
    fillContainer make setAll s = (.ok (some (make set)), s') := by
  unfold fillContainer Prog.within
  rw [Prog.run_bind_ok (Prog.run_attempt_ok h)]
  rfl

lemma fillContainer_error {exn : CxxExn} (h : setAll (s, []) = (.error exn, (s', set))) :
    fillContainer make setAll s = (.error exn, { s' with released := s'.released ++ (make set).refs }) := by
  have hcaught : ∀ handler : CxxExn → Prog (Interp × List (Built H)) CxxExn Unit,
      Prog.attempt setAll handler (s, []) = handler exn (s', set) := fun _ => Prog.run_attempt_error h
  unfold fillContainer Prog.within
  rw [Prog.run_bind_error ((hcaught _).trans rfl)]
  rfl

end Containers

lemma container_settles (make : List (Built H) → Built H) {v : CxxValue H} {items : List (CxxValue H)}
    {s : Interp} (hnodes : nodes v = ⟨false, false, none⟩ :: itemNodes items)
    (hrefs : ∀ objects, (make objects).refs = .created s.created :: itemRefs objects)
    (hconverts : ∀ objects, List.Forall₂ Becomes items objects → Becomes v (make objects))
    {setAll : Prog (Interp × List (Built H)) CxxExn Unit}
    (h : SettlesAll items { s with created := s.created + 1 } [] (setAll ({ s with created := s.created + 1 }, []))) :
    Settles v s (fillContainer make setAll { s with created := s.created + 1 }) := by
  rcases hrun : setAll ({ s with created := s.created + 1 }, []) with ⟨exn | _, s', set⟩
  · rw [hrun] at h
    obtain ⟨objects, hset, hdropped⟩ := h
    obtain rfl : set = objects := hset
    have hall := (kept_newRef s).dropped hdropped
    rw [fillContainer_error hrun, Settles, hnodes, hrefs]
    exact @Dropped.release _ _ _ _ [] (by rw [List.append_nil]; exact hall)
  · rw [hrun] at h
    obtain ⟨objects, hset, hitems, hkept⟩ := h
    obtain rfl : set = objects := hset
    rw [fillContainer_ok hrun]
    refine ⟨hconverts set hitems, ?_⟩
    rw [hnodes, hrefs]
    exact (kept_newRef s).append hkept

mutual

lemma toPython_settles (v : CxxValue H) (s : Interp) : Settles v s (toPython v s) := by
  match v with
  | .scalar value error => exact scalarToPython_settles value error s
  | .wrapped value fate => exact classWrap_settles value fate s
  | .object ref => exact objectToPython_settles ref s
  | .vector true items =>
    exact (dropped_at s (some (.set .memoryError)) none rfl).append (itemNodes items)
  | .vector false items =>
    exact container_settles (.list s.created) rfl (fun _ => rfl) (fun _ h => .vector _ h)
      (setItems_settles items _ [])
  | .tuple (.parameterThrows exn) items => exact (dropped_at s s.pending none rfl).append (itemNodes items)
  | .tuple .noTuple items =>
    exact (dropped_at s (some (.set .memoryError)) none rfl).append (itemNodes items)
  | .tuple .made items =>
    exact container_settles (.tuple s.created) rfl (fun _ => rfl) (fun _ h => .tuple _ h)
      (setItems_settles items _ [])

lemma setItems_settles (items : List (CxxValue H)) (s : Interp) (before : List (Built H)) :
    SettlesAll items s before (setItems items (s, before)) := by
  match items with
  | [] => exact ⟨[], by simp, .nil, kept_nothing s⟩
  | item :: rest =>
    have hitem := toPython_settles item s
    rw [setItems]
    rcases hrun : toPython item s with ⟨exn | object, s'⟩
    · rw [hrun] at hitem
      have hlift : Prog.lift (toPython item) (s, before) = (.error exn, (s', before)) := by
        unfold Prog.lift
        rw [hrun]
      rw [Prog.run_bind_error hlift]
      exact ⟨[], by simp, hitem.append (itemNodes rest)⟩
    · have hlift : Prog.lift (toPython item) (s, before) = (.ok object, (s', before)) := by
        unfold Prog.lift
        rw [hrun]
      rw [hrun] at hitem
      rw [Prog.run_bind_ok hlift]
      cases object with
      | none =>
        have hnull : setItem (none : Option (Built H)) (s', before) = (.error .errorAlreadySet, (s', before)) := rfl
        rw [Prog.run_bind_error hnull]
        exact ⟨[], by simp, hitem.2.append (itemNodes rest)⟩
      | some object =>
        obtain ⟨hconverts, hkept⟩ := hitem
        rw [setItem, Prog.run_modify_bind]
        have hrest := setItems_settles rest s' (before ++ [object])
        rcases hrun' : setItems rest (s', before ++ [object]) with ⟨exn | _, s'', set⟩
        · rw [hrun'] at hrest
          obtain ⟨objects, rfl, hdropped⟩ := hrest
          exact ⟨object :: objects, by simp, hkept.dropped hdropped⟩
        · rw [hrun'] at hrest
          obtain ⟨objects, rfl, hall, hkept'⟩ := hrest
          exact ⟨object :: objects, by simp, .cons hconverts hall, hkept.append hkept'⟩

end

/-! ### Exception safety -/

/-- The references a conversion that ends in `s` owned: those created, and those handed over in the value. -/
def ownedRefs (v : CxxValue H) (s : Interp) : List Ref := createdRefs (.start none) s ++ givenRefs (nodes v)

/-- The conversion of `v` from `pending`, whatever fails: when something fails, an exception is in flight or null
comes with an error set, and every reference has been released; when nothing fails, the object is that of the
value and holds every reference once. -/
def ExceptionSafe (v : CxxValue H) (pending : Option Pending) : Prop :=
  match toPython v (.start pending) with
  | (.ok (some object), s) => anyFails (nodes v) = false ∧ Becomes v object ∧ object.refs.Perm (ownedRefs v s) ∧
      s.released = [] ∧ s.pending = pending
  | (.ok none, s) => anyFails (nodes v) = true ∧ s.pending.isSome = true ∧ s.released.Perm (ownedRefs v s)
  | (.error _, s) => anyFails (nodes v) = true ∧ s.released.Perm (ownedRefs v s)

lemma Dropped.perm_iff {ns : List Node} {pending : Option Pending} {s : Interp}
    (h : Dropped ns (.start pending) [] s) :
    s.released.Perm (createdRefs (.start none) s ++ givenRefs ns) ↔ tidy ns = true := by
  obtain ⟨stray, hperm, hstray⟩ := h.lost
  rw [List.append_nil] at hperm
  have hall : (s.released ++ stray).Perm (createdRefs (.start none) s ++ givenRefs ns) := hperm
  rw [← hstray]
  constructor
  · intro hreleased
    have hlength := hall.length_eq
    rw [← hreleased.length_eq, List.length_append] at hlength
    exact List.length_eq_zero_iff.mp (by omega)
  · rintro rfl
    simpa using hall

/-- A conversion is exception-safe exactly when, at the first node that fails, no instance is lost, and no reference
was handed over in the nodes after it. -/
theorem exceptionSafe_iff (v : CxxValue H) (pending : Option Pending) :
    ExceptionSafe v pending ↔ tidy (nodes v) = true := by
  have hsettles := toPython_settles v (.start pending)
  unfold ExceptionSafe
  rcases hrun : toPython v (.start pending) with ⟨exn | object, s⟩
  · rw [hrun] at hsettles
    have hperm := hsettles.perm_iff
    have hfails := hsettles.fails
    simp [hfails, ownedRefs, hperm]
  · cases object with
    | none =>
      rw [hrun] at hsettles
      have hperm := hsettles.2.perm_iff
      have hfails := hsettles.2.fails
      simp [hfails, ownedRefs, hperm, hsettles.1]
    | some object =>
      rw [hrun] at hsettles
      obtain ⟨hconverts, hkept⟩ := hsettles
      apply iff_of_true
      · exact ⟨hkept.clean, hconverts, hkept.refs, hkept.released, hkept.pending⟩
      · exact tidy_of_not_fails hkept.clean

/-- A null element before another one, a list that cannot be allocated, a move that throws into the instance. -/
theorem references_lost :
    ¬ExceptionSafe (.vector false [.object none, .object (some 0)] : CxxValue Unit) (some (.raised 0)) ∧
    ¬ExceptionSafe (.vector true [.object (some 0)] : CxxValue Unit) none ∧
    ¬ExceptionSafe (.wrapped () (.moveThrows .other)) none := by
  refine ⟨?_, ?_, ?_⟩
  · rintro ⟨-, h⟩
    exact absurd h.length_eq (by decide)
  · rintro ⟨-, h⟩
    exact absurd h.length_eq (by decide)
  · rintro ⟨-, h⟩
    exact absurd h.length_eq (by decide)

end SciForge.Binding
