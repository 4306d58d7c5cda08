import SciForge.Binding.EntryErrors
import SciForge.Lib.HashDict

/-!
# Instances as dictionary keys

What Python makes of the slots of `def_richcompare` and `def_hash`: `==` and `!=` between instances of a wrapped type,
and a dictionary with such instances as keys. The two C++ functions return.
-/

namespace SciForge.Binding

variable {C H : Type}

/-- The functions given to `def_richcompare` and `def_hash`. -/
structure KeyFunctions (H : Type) where
  eq : H → H → Bool
  hash : H → BitVec 64

/-- What `def_hash` asks of its function and the one of `def_richcompare`. -/
structure KeyFunctions.Lawful (f : KeyFunctions H) : Prop where
  refl : ∀ a, f.eq a a = true
  symm : ∀ a b, f.eq a b = true → f.eq b a = true
  trans : ∀ a b c, f.eq a b = true → f.eq b c = true → f.eq a c = true
  hash : ∀ a b, f.eq a b = true → f.hash a = f.hash b

/-- The operation a reflected comparison makes. -/
def CompareOp.swapped : CompareOp → CompareOp
  | .lt => .gt
  | .le => .ge
  | .eq => .eq
  | .ne => .ne
  | .gt => .lt
  | .ge => .le

/-- An instance of a wrapped type, and the value it holds once it is initialised. -/
structure Instance (rt : Runtime C H) (cls : C) where
  obj : PyValue
  held : Option H
  isInstance : (rt.view obj).held cls = some held

/-- The function returns. -/
def returning {R : Type} (value : R) : Behaviour R notNull := .returns value none (Eq.refl false)

section

variable (rt : Runtime C H) (cls : C) (f : KeyFunctions H)

/-! ### Slots and operators -/

/-- The `tp_richcompare` of the type. -/
def compareSlot (self other : PyValue) (op : CompareOp) : Except CallStop (Answer H) :=
  (.richcompare cls (fun a b => returning (f.eq a b)) self other op : EntryCall rt).result.1

/-- The `tp_hash` of the type. -/
def hashSlot (self : PyValue) : Except CallStop (Answer H) :=
  (.hash cls (fun a => returning (f.hash a)) self : EntryCall rt).result.1

/-- `PyObject_RichCompare` on two instances: the slot, the slot the other way round, and identity for `==` and `!=`.
`none` is an error. -/
def richCompare (self other : PyValue) (op : CompareOp) : Option Bool :=
  match compareSlot rt cls f self other op with
  | .ok (.bool result) => some result
  | .ok .notImplemented =>
    match compareSlot rt cls f other self op.swapped with
    | .ok (.bool result) => some result
    | .ok .notImplemented =>
      match op with
      | .eq => some (self = other)
      | .ne => some (self ≠ other)
      | _ => none
    | _ => none
  | _ => none

/-- `hash(self)`; `none` is an error. -/
def pyHash (self : PyValue) : Option ℤ :=
  match hashSlot rt cls f self with
  | .ok (.hash value) => if value = -1 then none else some value
  | _ => none

/-! ### Dictionaries -/

/-- A dictionary compares the hashes, and then by identity or with `==`. -/
def keys : HashDict.Keys (Instance rt cls) where
  hash key := (pyHash rt cls f key.obj).getD 0
  same stored key := stored.obj = key.obj || richCompare rt cls f stored.obj key.obj .eq = some true

/-- A key without a hash raises. -/
def attemptOp {V : Type} (dict : HashDict.Table (Instance rt cls) V) (op : HashDict.Op (Instance rt cls) V) :
    Option (HashDict.Table (Instance rt cls) V) :=
  match op with
  | .set key _ | .erase key => (pyHash rt cls f key.obj).map fun _ => HashDict.step (keys rt cls f) dict op

/-- Some operations in a row, the ones that raise without effect. -/
def runOps {V : Type} (ops : List (HashDict.Op (Instance rt cls) V)) : HashDict.Table (Instance rt cls) V :=
  ops.foldl (fun dict op => (attemptOp rt cls f dict op).getD dict) []

/-- `dict.get(key)`, `none` where it raises. -/
def lookup {V : Type} (dict : HashDict.Table (Instance rt cls) V) (key : Instance rt cls) : Option (Option V) :=
  (pyHash rt cls f key.obj).map fun _ => HashDict.get (keys rt cls f) dict key

/-- The value that the last operation on a key holding an equal value left. -/
def latestValue {V : Type} (ops : List (HashDict.Op (Instance rt cls) V)) (h : H) : Option V :=
  ops.foldl (fun value op =>
    match op with
    | .set key v => if key.held.any (f.eq · h) then some v else value
    | .erase key => if key.held.any (f.eq · h) then none else value) none

end

/-! ### What the slots answer -/

variable {rt : Runtime C H} {cls : C} {f : KeyFunctions H}

lemma compareSlot_eq (hcreated : (rt.wrappedType cls).created = true) (a b : Instance rt cls) {op : CompareOp}
    (hop : op = .eq ∨ op = .ne) : compareSlot rt cls f a.obj b.obj op = .ok
      (match a.held, b.held with
        | some x, some y => .bool (if op = .eq then f.eq x y else !f.eq x y)
        | _, _ => .notImplemented) := by
  have hnot : ¬(op ≠ .eq ∧ op ≠ .ne) := by tauto
  have hthere : ¬((rt.wrappedType cls).created = false ∨ ((rt.view b.obj).held cls).isNone = true) := by
    rw [hcreated, b.isInstance]
    simp
  change (rt.classRichcompare cls (fun x y => returning (f.eq x y)) a.obj b.obj op (.start none, .start)).1 = _
  unfold Runtime.classRichcompare
  rw [if_neg hnot, if_neg hthere]
  rcases classUnwrap_run (rt.wrappedType cls) cls (rt.view a.obj) (.start none, .start) with
    ⟨x, -, hx, hrunx⟩ | ⟨hnone, what, hrunx⟩
  · have ha : a.held = some x := Option.some.inj (a.isInstance.symm.trans hx)
    rcases classUnwrap_run (rt.wrappedType cls) cls (rt.view b.obj) (.start none, .start) with
      ⟨y, -, hy, hruny⟩ | ⟨hnone, what, hruny⟩
    · have hb : b.held = some y := Option.some.inj (b.isInstance.symm.trans hy)
      rw [ha, hb, Prog.run_attempt_ok (by rw [Prog.run_bind_ok hrunx, Prog.run_bind_ok hruny]; rfl)]
    · have hb : b.held = none := by
        rw [hcreated, b.isInstance] at hnone
        simpa using hnone
      rw [ha, hb, Prog.run_attempt_error (by rw [Prog.run_bind_ok hrunx, Prog.run_bind_error hruny])]
      rfl
  · have ha : a.held = none := by
      rw [hcreated, a.isInstance] at hnone
      simpa using hnone
    rw [ha, Prog.run_attempt_error (by rw [Prog.run_bind_error hrunx])]
    rfl

/-- `size_t` to `Py_hash_t`, which is never -1. -/
def hashValue (value : BitVec 64) : ℤ := if value.toInt = -1 then -2 else value.toInt

lemma pyHash_eq (hcreated : (rt.wrappedType cls).created = true) (a : Instance rt cls) :
    pyHash rt cls f a.obj = a.held.map (fun x => hashValue (f.hash x)) := by
  have hslot : hashSlot rt cls f a.obj =
      (rt.classHash cls (fun x => returning (f.hash x)) a.obj (.start none, .start)).1 := rfl
  unfold pyHash
  rw [hslot]
  unfold Runtime.classHash
  rcases classUnwrap_run (rt.wrappedType cls) cls (rt.view a.obj) (.start none, .start) with
    ⟨x, -, hx, hrun⟩ | ⟨hnone, what, hrun⟩
  · have ha : a.held = some x := Option.some.inj (a.isInstance.symm.trans hx)
    have hanswer : Prog.attempt (do
        let held ← classUnwrap (rt.wrappedType cls) cls (rt.view a.obj)
        let value ← behave (returning (f.hash held))
        pure (.hash (if value.toInt = -1 then -2 else value.toInt)) : Body (Answer H)) (fun exn => (do
        noteCaught exn
        bridge rt.errorType exn
        pure (.hash (-1)) : Entry (Answer H))) (.start none, .start) =
          (.ok (.hash (hashValue (f.hash x))), (.start none, .start)) := by
      refine Prog.run_attempt_ok ?_
      rw [Prog.run_bind_ok hrun]
      rfl
    have hne : hashValue (f.hash x) ≠ -1 := by
      unfold hashValue
      split
      · decide
      · assumption
    rw [hanswer, ha]
    exact if_neg hne
  · have ha : a.held = none := by
      rw [hcreated, a.isInstance] at hnone
      simpa using hnone
    rw [ha, Prog.run_attempt_error (by rw [Prog.run_bind_error hrun])]
    rfl

/-! ### Equality -/

/-- The values are equal; the objects are one where a value is missing. -/
def SameKey (f : KeyFunctions H) (a b : Instance rt cls) : Prop :=
  match a.held, b.held with
  | some x, some y => f.eq x y = true
  | _, _ => a.obj = b.obj

lemma richCompare_eq (hcreated : (rt.wrappedType cls).created = true) (a b : Instance rt cls)
    {op : CompareOp} (hop : op = .eq ∨ op = .ne) : ∃ equal : Bool, (equal = true ↔ SameKey f a b) ∧
      richCompare rt cls f a.obj b.obj op = some (if op = .eq then equal else !equal) := by
  have hback : op.swapped = op := by rcases hop with rfl | rfl <;> rfl
  unfold richCompare SameKey
  rw [hback, compareSlot_eq hcreated a b hop, compareSlot_eq hcreated b a hop]
  have hidentity : ∀ op : CompareOp, op = .eq ∨ op = .ne → (match op with
      | .eq => some (decide (a.obj = b.obj))
      | .ne => some (decide (a.obj ≠ b.obj))
      | _ => none) = some (if op = .eq then decide (a.obj = b.obj) else !decide (a.obj = b.obj)) := by
    rintro op (rfl | rfl)
    · rfl
    · simp
  cases ha : a.held with
  | none => cases b.held <;> exact ⟨decide (a.obj = b.obj), decide_eq_true_iff, hidentity op hop⟩
  | some x =>
    cases hb : b.held with
    | none => exact ⟨decide (a.obj = b.obj), decide_eq_true_iff, hidentity op hop⟩
    | some y => exact ⟨f.eq x y, Iff.rfl, rfl⟩

lemma held_of_obj {a b : Instance rt cls} (h : a.obj = b.obj) : a.held = b.held := by
  have hb := b.isInstance
  rw [← h, a.isInstance] at hb
  exact Option.some.inj hb

lemma sameKey_of_obj (hf : f.Lawful) {a b : Instance rt cls} (h : a.obj = b.obj) : SameKey f a b := by
  unfold SameKey
  rw [← held_of_obj h]
  cases a.held with
  | none => exact h
  | some x => exact hf.refl x

lemma same_iff (hcreated : (rt.wrappedType cls).created = true) (hf : f.Lawful) (a b : Instance rt cls) :
    (keys rt cls f).same a b = true ↔ SameKey f a b := by
  obtain ⟨equal, hequal, hcompare⟩ := richCompare_eq hcreated (f := f) a b (.inl rfl)
  have hsame : (keys rt cls f).same a b = true ↔ a.obj = b.obj ∨ equal = true := by
    unfold keys
    simp [hcompare]
  rw [hsame, hequal]
  exact or_iff_right_of_imp (sameKey_of_obj hf)

lemma sameKey_symm (hf : f.Lawful) {a b : Instance rt cls} (h : SameKey f a b) : SameKey f b a := by
  unfold SameKey at h ⊢
  cases ha : a.held with
  | none =>
    rw [ha] at h
    cases hb : b.held <;> exact h.symm
  | some x =>
    cases hb : b.held with
    | none =>
      rw [ha, hb] at h
      exact h.symm
    | some y =>
      rw [ha, hb] at h
      exact hf.symm x y h

lemma keys_lawful (hcreated : (rt.wrappedType cls).created = true) (hf : f.Lawful) : (keys rt cls f).Lawful where
  refl a := (same_iff hcreated hf a a).mpr (sameKey_of_obj hf rfl)
  symm a b h := (same_iff hcreated hf b a).mpr (sameKey_symm hf ((same_iff hcreated hf a b).mp h))
  trans a b c hab hbc := by
    rw [same_iff hcreated hf] at hab hbc ⊢
    by_cases hobj : a.obj = b.obj
    · unfold SameKey at hbc ⊢
      rw [held_of_obj hobj, hobj]
      exact hbc
    · by_cases hobj' : b.obj = c.obj
      · unfold SameKey at hab ⊢
        rw [← held_of_obj hobj', ← hobj']
        exact hab
      · unfold SameKey at hab hbc ⊢
        cases ha : a.held with
        | none =>
          rw [ha] at hab
          exact absurd hab hobj
        | some x =>
          cases hb : b.held with
          | none =>
            rw [ha, hb] at hab
            exact absurd hab hobj
          | some y =>
            cases hc : c.held with
            | none =>
              rw [hb, hc] at hbc
              exact absurd hbc hobj'
            | some z =>
              rw [ha, hb] at hab
              rw [hb, hc] at hbc
              exact hf.trans x y z hab hbc
  hash a b h := by
    rw [same_iff hcreated hf] at h
    unfold keys
    dsimp only
    rw [pyHash_eq hcreated, pyHash_eq hcreated]
    unfold SameKey at h
    cases ha : a.held with
    | none =>
      rw [ha] at h
      rw [← ha, held_of_obj h]
    | some x =>
      cases hb : b.held with
      | none =>
        rw [ha, hb] at h
        rw [← ha, ← hb, held_of_obj h]
      | some y =>
        rw [ha, hb] at h
        rw [Option.map_some, Option.map_some, hf.hash x y h]

/-! ### Runs -/

section Runs

variable {V : Type}

/-- The key has a hash. -/
def hashable (op : HashDict.Op (Instance rt cls) V) : Bool :=
  match op with
  | .set key _ | .erase key => key.held.isSome

lemma runOps_eq (hcreated : (rt.wrappedType cls).created = true) (ops : List (HashDict.Op (Instance rt cls) V)) :
    runOps rt cls f ops = (ops.filter hashable).foldl (HashDict.step (keys rt cls f)) [] := by
  have hstep : ∀ (key : Instance rt cls) (dict next : HashDict.Table (Instance rt cls) V),
      ((pyHash rt cls f key.obj).map fun _ => next).getD dict = if key.held.isSome = true then next else dict := by
    intro key dict next
    rw [pyHash_eq hcreated]
    cases key.held <;> rfl
  unfold runOps
  rw [List.foldl_filter]
  congr 1
  funext dict op
  cases op with
  | set key v => exact hstep key dict _
  | erase key => exact hstep key dict _

lemma latest_eq (hcreated : (rt.wrappedType cls).created = true) (hf : f.Lawful)
    (ops : List (HashDict.Op (Instance rt cls) V)) {key : Instance rt cls} {h : H} (hkey : key.held = some h) :
    HashDict.latest (keys rt cls f) (ops.filter hashable) key = latestValue rt cls f ops h := by
  have hsame : ∀ stored : Instance rt cls, stored.held.isSome = true →
      ((keys rt cls f).same stored key = true ↔ stored.held.any (f.eq · h) = true) := by
    intro stored hstored
    obtain ⟨x, hx⟩ := Option.isSome_iff_exists.mp hstored
    rw [same_iff hcreated hf]
    unfold SameKey
    rw [hx, hkey, Option.any_some]
  unfold HashDict.latest latestValue
  rw [List.foldl_filter]
  congr 1
  funext value op
  cases op with
  | set stored v =>
    by_cases hstored : stored.held.isSome = true
    · have hgo : hashable (.set stored v : HashDict.Op (Instance rt cls) V) = true := hstored
      simp only [hgo, if_true, hsame stored hstored]
    · have hskip : ¬hashable (.set stored v : HashDict.Op (Instance rt cls) V) = true := hstored
      rw [if_neg hskip]
      simp [Option.not_isSome_iff_eq_none.mp hstored]
  | erase stored =>
    by_cases hstored : stored.held.isSome = true
    · have hgo : hashable (.erase stored : HashDict.Op (Instance rt cls) V) = true := hstored
      simp only [hgo, if_true, hsame stored hstored]
    · have hskip : ¬hashable (.erase stored : HashDict.Op (Instance rt cls) V) = true := hstored
      rw [if_neg hskip]
      simp [Option.not_isSome_iff_eq_none.mp hstored]

/-- With lawful functions `==` and `!=` never raise on instances and are each other's negation, and a dictionary keyed by
instances is a map on the values they hold: after any operations, a key finds what the last one on an equal value left,
and an instance before `__init__` is refused as a key. -/
theorem instances_are_keys (hcreated : (rt.wrappedType cls).created = true) (hf : f.Lawful)
    (ops : List (HashDict.Op (Instance rt cls) V)) (a b : Instance rt cls) :
    (∃ equal, (equal = true ↔ SameKey f a b) ∧ richCompare rt cls f a.obj b.obj .eq = some equal ∧
      richCompare rt cls f a.obj b.obj .ne = some (!equal)) ∧
    (∀ h, a.held = some h → lookup rt cls f (runOps rt cls f ops) a = some (latestValue rt cls f ops h)) ∧
    (a.held = none → lookup rt cls f (runOps rt cls f ops) a = none) := by
  refine ⟨?_, fun h hheld => ?_, fun hnone => ?_⟩
  · obtain ⟨equal, hequal, hcompare⟩ := richCompare_eq hcreated (f := f) a b (.inl rfl)
    obtain ⟨equal', hequal', hcompare'⟩ := richCompare_eq hcreated (f := f) a b (.inr rfl)
    have hagree : equal' = equal := Bool.eq_iff_iff.mpr (hequal'.trans hequal.symm)
    subst hagree
    exact ⟨equal', hequal, hcompare, hcompare'⟩
  · unfold lookup
    rw [pyHash_eq hcreated, hheld, Option.map_some, Option.map_some, runOps_eq hcreated,
      HashDict.get_run (keys_lawful hcreated hf), latest_eq hcreated hf ops hheld]
  · unfold lookup
    rw [pyHash_eq hcreated, hnone]
    rfl

/-- Integers as a wrapped type: -1 and -2 have one hash. -/
def integerKeys : KeyFunctions ℤ := ⟨fun a b => a = b, fun a => BitVec.ofInt 64 a⟩

def integerAt (value : ℤ) : PyObj Unit ℤ :=
  { isNone := false, typeName := .ok "Integer", truth := .ok true, long := none, overflow := 0, float := .notReal 0,
    utf8 := none, bytes := none, held := fun _ => some (some value) }

/-- Two objects that hold -1, and one that holds -2. -/
def heldRuntime : Runtime Unit ℤ where
  view
    | .object 1 => integerAt (-2)
    | _ => integerAt (-1)
  wrappedType := fun _ => ⟨true, "demo.Integer"⟩
  parse := fun _ _ _ _ => .error (.typeError "")
  errorType := some 1

theorem instances_are_keys_colliding :
    lookup heldRuntime () integerKeys (runOps heldRuntime () integerKeys
      [.set ⟨.object 0, some (-1), rfl⟩ "one", .set ⟨.object 1, some (-2), rfl⟩ "two"])
        ⟨.object 2, some (-1), rfl⟩ = some (some "one") := by
  have hlawful : integerKeys.Lawful :=
    ⟨fun a => decide_eq_true rfl, fun a b h => decide_eq_true (of_decide_eq_true h).symm,
      fun a b c h h' => decide_eq_true ((of_decide_eq_true h).trans (of_decide_eq_true h')),
      fun a b h => congrArg integerKeys.hash (of_decide_eq_true h)⟩
  let key : Instance heldRuntime () := ⟨.object 2, some (-1), rfl⟩
  exact (instances_are_keys rfl hlawful _ key key).2.1 (-1) rfl

end Runs

end SciForge.Binding
