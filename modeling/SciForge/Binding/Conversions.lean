import SciForge.Binding.EntryPoints
import Mathlib.Algebra.Order.Ring.Int

/-!
# What a conversion does

Which objects each caster accepts, what Python code raises in it, and how it refuses an object.
-/

namespace SciForge.Binding

variable {C H : Type}

/-! ### Acceptance -/

def ParamType.accepts (rt : Runtime C H) (obj : PyValue) : ParamType C → Bool
  | .bool => (rt.view obj).truth.isOk
  | .integral type => (rt.view obj).long.any (fun n => decide (type.min ≤ n ∧ n ≤ type.max))
  | .double =>
    match (rt.view obj).float with
    | .value _ => true
    | _ => false
  | .string | .stringView =>
    match (rt.view obj).utf8 with
    | some (.ok _) => true
    | _ => false
  | .bytesView => (rt.view obj).bytes.isSome
  | .object => true
  | .wrapped cls => (rt.wrappedType cls).created && (((rt.view obj).held cls).any Option.isSome)
  | .optional type => (rt.view obj).isNone || accepts rt obj type

def IntType.fits (type : IntType) (n : ℤ) : Bool := type.min ≤ n ∧ n ≤ type.max

def FloatAnswer.value? : FloatAnswer → Option UInt64
  | .value bits => some bits
  | _ => none

/-- The value held by an initialised instance of the type. -/
def Runtime.unwrapped (rt : Runtime C H) (cls : C) (obj : PyValue) : Option H :=
  if (rt.wrappedType cls).created then ((rt.view obj).held cls).join else none

/-- What an accepted object is read as. -/
def ParamType.reads (rt : Runtime C H) (obj : PyValue) : ParamType C → Option (CxxArg H)
  | .bool => (rt.view obj).truth.toOption.map .bool
  | .integral type => ((rt.view obj).long.filter type.fits).map .integer
  | .double => (rt.view obj).float.value?.map .double
  | .string | .stringView => ((rt.view obj).utf8.bind Except.toOption).map .text
  | .bytesView => (rt.view obj).bytes.map .bytesView
  | .object => some (.object obj)
  | .wrapped cls => (rt.unwrapped cls obj).map .wrapped
  | .optional type => if (rt.view obj).isNone then some .nullopt else (reads rt obj type).map .engaged

/-- The exception that Python code (`__bool__`, `__float__`, the encoding of a `str`) raises in the conversion. -/
def ParamType.raises (rt : Runtime C H) (obj : PyValue) : ParamType C → Option ℕ
  | .bool =>
    match (rt.view obj).truth with
    | .error exn => some exn
    | .ok _ => none
  | .double =>
    match (rt.view obj).float with
    | .raises exn => some exn
    | _ => none
  | .string | .stringView =>
    match (rt.view obj).utf8 with
    | some (.error exn) => some exn
    | _ => none
  | .optional type => if (rt.view obj).isNone then none else raises rt obj type
  | _ => none

/-- A `double`, or an optional one. -/
def ParamType.isDouble : ParamType C → Bool
  | .double => true
  | .optional type => type.isDouble
  | _ => false

/-- How a conversion from `s` ends that accepts no value: the exception thrown, and the state. -/
inductive Refused (rt : Runtime C H) (obj : PyValue) (type : ParamType C) (s : Interp × Trace) :
    CxxExn → Interp × Trace → Prop
  | cast (what : String) (pending : Option Pending) (hraises : type.raises rt obj = none) :
    Refused rt obj type s (.castError what) ({ s.1 with pending := pending }, s.2)
  | kept (exn : ℕ) (hraises : type.raises rt obj = some exn) (hdouble : type.isDouble = false) :
    Refused rt obj type s .errorAlreadySet
      ({ s.1 with pending := some (.raised exn) }, { s.2 with raised := s.2.raised ++ [exn] })
  | cleared (exn : ℕ) (what : String) (pending : Option Pending) (hraises : type.raises rt obj = some exn)
    (hdouble : type.isDouble = true) :
    Refused rt obj type s (.castError what)
      ({ s.1 with pending := pending }, { s.2 with raised := s.2.raised ++ [exn] })

/-- A conversion from `s` gives the value of the object and changes nothing, or refuses the object. -/
def Converted (rt : Runtime C H) (obj : PyValue) (type : ParamType C) (s : Interp × Trace) {α : Type}
    (read : Option α) (r : Except CxxExn α × (Interp × Trace)) : Prop :=
  (type.accepts rt obj = true ∧ ∃ value, read = some value ∧ r = (.ok value, s)) ∨
    (type.accepts rt obj = false ∧ ∃ exn s', r = (.error exn, s') ∧ Refused rt obj type s exn s')

/-! ### The casters -/

variable {α : Type}

lemma expected_run (wanted : String) (obj : PyObj C H) (s : Interp × Trace) :
    ∃ what pending, (expected wanted obj : Body α) s =
      (.error (.castError what), ({ s.1 with pending := pending }, s.2)) := by
  unfold expected pyTypeName
  cases obj.typeName with
  | ok name => exact ⟨_, s.1.pending, rfl⟩
  | error exn => exact ⟨_, _, rfl⟩

lemma Converted.bind {β : Type} {rt : Runtime C H} {obj : PyValue} {type : ParamType C} {s : Interp × Trace}
    {read : Option α} {p : Body α} (h : Converted rt obj type s read (p s)) (f : α → β) :
    Converted rt obj type s (read.map f) ((p >>= fun value => pure (f value) : Body β) s) := by
  rcases h with ⟨haccepts, value, rfl, hrun⟩ | ⟨hrefuses, exn, s', hrun, hrefused⟩
  · exact .inl ⟨haccepts, f value, rfl, Prog.run_bind_ok hrun⟩
  · exact .inr ⟨hrefuses, exn, s', Prog.run_bind_error hrun, hrefused⟩

variable (rt : Runtime C H) (obj : PyValue)

lemma bool_converted (s : Interp × Trace) :
    Converted rt obj .bool s (rt.view obj).truth.toOption (boolFromPython (rt.view obj) s) := by
  unfold Converted boolFromPython ParamType.accepts
  cases h : (rt.view obj).truth with
  | ok truth => exact .inl ⟨rfl, truth, rfl, rfl⟩
  | error exn =>
    refine .inr ⟨rfl, _, _, rfl, ?_⟩
    exact .kept exn (by simp [ParamType.raises, h]) rfl

lemma utf8_converted {type : ParamType C} (htype : type = .string ∨ type = .stringView) (s : Interp × Trace) :
    Converted rt obj type s ((rt.view obj).utf8.bind Except.toOption) (asUtf8 (rt.view obj) s) := by
  have haccepts : type.accepts rt obj = match (rt.view obj).utf8 with
      | some (.ok _) => true
      | _ => false := by
    rcases htype with rfl | rfl <;> rfl
  have hraises : type.raises rt obj = match (rt.view obj).utf8 with
      | some (.error exn) => some exn
      | _ => none := by
    rcases htype with rfl | rfl <;> rfl
  have hdouble : type.isDouble = false := by
    rcases htype with rfl | rfl <;> rfl
  unfold Converted asUtf8
  rw [haccepts]
  cases h : (rt.view obj).utf8 with
  | none =>
    obtain ⟨what, pending, hrun⟩ := expected_run (α := Bytes) "str" (rt.view obj) s
    refine .inr ⟨rfl, _, _, hrun, ?_⟩
    exact .cast what pending (by rw [hraises, h])
  | some answer =>
    cases answer with
    | ok utf8 => exact .inl ⟨rfl, utf8, rfl, rfl⟩
    | error exn =>
      refine .inr ⟨rfl, _, _, rfl, ?_⟩
      exact .kept exn (by rw [hraises, h]) hdouble

lemma bytes_converted (s : Interp × Trace) :
    Converted rt obj .bytesView s (rt.view obj).bytes (bytesFromPython (rt.view obj) s) := by
  unfold Converted bytesFromPython ParamType.accepts
  cases h : (rt.view obj).bytes with
  | none =>
    obtain ⟨what, pending, hrun⟩ := expected_run (α := Bytes) "bytes" (rt.view obj) s
    exact .inr ⟨rfl, _, _, hrun, .cast what pending rfl⟩
  | some data => exact .inl ⟨rfl, data, rfl, rfl⟩

lemma classUnwrap_run (type : WrappedType) (cls : C) (obj : PyObj C H) (s : Interp × Trace) :
    (∃ held, type.created = true ∧ obj.held cls = some (some held) ∧ classUnwrap type cls obj s = (.ok held, s)) ∨
    ((type.created && (obj.held cls).any Option.isSome) = false ∧
      ∃ what, classUnwrap type cls obj s = (.error (.castError what), s)) := by
  unfold classUnwrap
  cases hcreated : type.created with
  | false => exact .inr ⟨rfl, _, rfl⟩
  | true =>
    cases hheld : obj.held cls with
    | none => exact .inr ⟨rfl, _, rfl⟩
    | some held =>
      cases held with
      | none => exact .inr ⟨rfl, _, rfl⟩
      | some held => exact .inl ⟨held, rfl, rfl, rfl⟩

lemma wrapped_converted (cls : C) (s : Interp × Trace) :
    Converted rt obj (.wrapped cls) s (rt.unwrapped cls obj)
      (classUnwrap (rt.wrappedType cls) cls (rt.view obj) s) := by
  rcases classUnwrap_run (rt.wrappedType cls) cls (rt.view obj) s with ⟨held, hcreated, hheld, hrun⟩ |
    ⟨hrefuses, what, hrun⟩
  · have hread : rt.unwrapped cls obj = some held := by simp [Runtime.unwrapped, hcreated, hheld]
    exact .inl ⟨by simp [ParamType.accepts, hcreated, hheld], held, hread, hrun⟩
  · exact .inr ⟨hrefuses, _, _, hrun, .cast what s.1.pending rfl⟩

lemma errorOccurred_run (s : Interp × Trace) : errorOccurred s = (.ok s.1.pending.isSome, s) := rfl

lemma clearError_expected_run (wanted : String) (obj : PyObj C H) (s : Interp × Trace) :
    ∃ what pending, ((clearError >>= fun _ => expected wanted obj : Body α) s) =
      (.error (.castError what), ({ s.1 with pending := pending }, s.2)) :=
  expected_run wanted obj ({ s.1 with pending := none }, s.2)

lemma double_cleared {s s' : Interp × Trace} (hfloat : floatAsDouble (rt.view obj) s = (.ok minusOne, s'))
    (hs' : s'.1.pending.isSome = true) : ∃ what pending, doubleFromPython (rt.view obj) s =
      (.error (.castError what), ({ s'.1 with pending := pending }, s'.2)) := by
  unfold doubleFromPython
  rw [Prog.run_bind_ok hfloat, Prog.run_bind_ok (errorOccurred_run s'), if_pos ⟨rfl, hs'⟩]
  exact clearError_expected_run "float" (rt.view obj) s'

lemma double_converted {s : Interp × Trace} (hs : s.1.pending = none) :
    Converted rt obj .double s (rt.view obj).float.value? (doubleFromPython (rt.view obj) s) := by
  unfold Converted ParamType.accepts FloatAnswer.value?
  cases h : (rt.view obj).float with
  | value bits =>
    have hfloat : floatAsDouble (rt.view obj) s = (.ok bits, s) := by
      rw [floatAsDouble, h]
      rfl
    refine .inl ⟨rfl, bits, rfl, ?_⟩
    unfold doubleFromPython
    rw [Prog.run_bind_ok hfloat, Prog.run_bind_ok (errorOccurred_run s), if_neg (by simp [hs])]
    rfl
  | notReal exn =>
    have hfloat : floatAsDouble (rt.view obj) s =
        (.ok minusOne, ({ s.1 with pending := some (.raised exn) }, s.2)) := by
      rw [floatAsDouble, h]
      rfl
    obtain ⟨what, pending, hrun⟩ := double_cleared rt obj hfloat rfl
    exact .inr ⟨rfl, _, _, hrun, .cast what pending (by simp [ParamType.raises, h])⟩
  | raises exn =>
    have hfloat : floatAsDouble (rt.view obj) s =
        (.ok minusOne, ({ s.1 with pending := some (.raised exn) }, { s.2 with raised := s.2.raised ++ [exn] })) := by
      rw [floatAsDouble, h]
      rfl
    obtain ⟨what, pending, hrun⟩ := double_cleared rt obj hfloat rfl
    exact .inr ⟨rfl, _, _, hrun, .cleared exn what pending (by simp [ParamType.raises, h]) rfl⟩

/-! ### Integers -/

lemma range_le {a b : ℕ} (h : a ≤ b) : range a ≤ range b := by
  have hpow : Nat.pow 2 a ≤ Nat.pow 2 b := Nat.pow_le_pow_right (by decide) h
  exact Int.ofNat_le.mpr hpow

lemma IntType.bounds (type : IntType) : -range 63 ≤ type.min ∧
    (type.signed = true ∨ type.bits < 64 → type.max < range 63) ∧ (type.signed = false → type.max < range 64) := by
  have hpred := range_le (Nat.sub_le_of_le_add (show type.bits ≤ 63 + 1 from type.le))
  have h64 := range_le type.le
  refine ⟨?_, fun h => ?_, fun h => ?_⟩
  · unfold IntType.min
    cases type.signed with
    | true => simpa using hpred
    | false => simp [range]
  · unfold IntType.max
    cases hsigned : type.signed with
    | true =>
      simp only [if_true]
      omega
    | false =>
      have hbits : type.bits ≤ 63 := by
        rcases h with h | h
        · rw [hsigned] at h
          cases h
        · omega
      have h63 := range_le hbits
      simp only [Bool.false_eq_true, if_false]
      omega
  · unfold IntType.max
    simp only [h, Bool.false_eq_true, if_false]
    omega

lemma integral_run (type : IntType) (obj : PyObj C H) {s : Interp × Trace} (hs : s.1.pending = none) {n : ℤ}
    (hlong : obj.long = some n) (hrange : type.min ≤ n ∧ n ≤ type.max) :
    integralFromPython type obj s = (.ok n, s) := by
  obtain ⟨hmin, hmax, hmax'⟩ := type.bounds
  unfold integralFromPython
  rw [hlong]
  dsimp only
  by_cases hwide : type.signed = false ∧ 64 ≤ type.bits
  · have hzero : type.min = 0 := by simp [IntType.min, hwide.1]
    have hfits : 0 ≤ n ∧ n < range 64 := ⟨hzero ▸ hrange.1, hrange.2.trans_lt (hmax' hwide.1)⟩
    have hread : asUnsignedLongLong obj n s = (.ok n, s) := by
      rw [asUnsignedLongLong, if_pos hfits]
      rfl
    rw [if_pos hwide, Prog.run_bind_ok hread, Prog.run_bind_ok (errorOccurred_run s), if_neg (by simp [hs])]
    rfl
  · have hlt : type.max < range 63 := by
      apply hmax
      cases hsigned : type.signed with
      | true => exact .inl rfl
      | false => exact .inr (not_le.mp (fun hle => hwide ⟨hsigned, hle⟩))
    have hfits : -range 63 ≤ n ∧ n < range 63 := ⟨hmin.trans hrange.1, hrange.2.trans_lt hlt⟩
    have hread : asLongLong obj n s = (.ok n, s) := by
      rw [asLongLong, if_pos hfits]
      rfl
    have hnonneg : type.signed = false → 0 ≤ n := by
      intro hsigned
      simpa [IntType.min, hsigned] using hrange.1
    rw [if_neg hwide, Prog.run_bind_ok hread, Prog.run_bind_ok (errorOccurred_run s), if_neg (by simp [hs])]
    cases hsigned : type.signed with
    | true => simp [hrange.1, hrange.2]; rfl
    | false => simp [hnonneg hsigned, hrange.2]; rfl

lemma integral_refused (type : IntType) (obj : PyObj C H) {s : Interp × Trace} (hs : s.1.pending = none) {n : ℤ}
    (hlong : obj.long = some n) (hrange : ¬(type.min ≤ n ∧ n ≤ type.max)) :
    integralFromPython type obj s = (.error (.castError "int out of range"), s) := by
  have hnone : ({ s.1 with pending := none } : Interp) = s.1 := by
    rw [← hs]
  unfold integralFromPython
  rw [hlong]
  dsimp only
  by_cases hwide : type.signed = false ∧ 64 ≤ type.bits
  · have hbits : type.bits = 64 := le_antisymm type.le hwide.2
    have hfits : ¬(0 ≤ n ∧ n < range 64) := by
      rintro ⟨hnonneg, hlt⟩
      apply hrange
      simp only [IntType.min, IntType.max, hwide.1, hbits, Bool.false_eq_true, if_false]
      omega
    have hread : asUnsignedLongLong obj n s =
        (.ok (range 64 - 1), ({ s.1 with pending := some (.raised obj.overflow) }, s.2)) := by
      rw [asUnsignedLongLong, if_neg hfits]
      rfl
    rw [if_pos hwide, Prog.run_bind_ok hread, Prog.run_bind_ok (errorOccurred_run _), if_pos ⟨rfl, rfl⟩]
    change (_, ({ s.1 with pending := none }, s.2)) = _
    rw [hnone]
  · by_cases hfits : -range 63 ≤ n ∧ n < range 63
    · have hread : asLongLong obj n s = (.ok n, s) := by
        rw [asLongLong, if_pos hfits]
        rfl
      rw [if_neg hwide, Prog.run_bind_ok hread, Prog.run_bind_ok (errorOccurred_run s), if_neg (by simp [hs])]
      rw [if_neg]
      · rfl
      · cases hsigned : type.signed with
        | true => simpa using hrange
        | false => simpa [IntType.min, hsigned] using hrange
    · have hread : asLongLong obj n s =
          (.ok (-1), ({ s.1 with pending := some (.raised obj.overflow) }, s.2)) := by
        rw [asLongLong, if_neg hfits]
        rfl
      rw [if_neg hwide, Prog.run_bind_ok hread, Prog.run_bind_ok (errorOccurred_run _), if_pos ⟨rfl, rfl⟩]
      change (_, ({ s.1 with pending := none }, s.2)) = _
      rw [hnone]

lemma integral_converted (type : IntType) {s : Interp × Trace} (hs : s.1.pending = none) :
    Converted rt obj (.integral type) s ((rt.view obj).long.filter type.fits)
      (integralFromPython type (rt.view obj) s) := by
  unfold Converted ParamType.accepts
  cases hlong : (rt.view obj).long with
  | none =>
    obtain ⟨what, pending, hrun⟩ := expected_run (α := ℤ) "int" (rt.view obj) s
    refine .inr ⟨rfl, _, _, ?_, .cast what pending rfl⟩
    rw [integralFromPython, hlong]
    exact hrun
  | some n =>
    by_cases hrange : type.min ≤ n ∧ n ≤ type.max
    · exact .inl ⟨by simp [hrange], n, by simp [IntType.fits, hrange], integral_run type _ hs hlong hrange⟩
    · exact .inr ⟨by simpa using hrange, _, _, integral_refused type _ hs hlong hrange, .cast _ s.1.pending rfl⟩

/-! ### Any caster -/

lemma Refused.optional {type : ParamType C} {s s' : Interp × Trace} {exn : CxxExn}
    (h : Refused rt obj type s exn s') (hnone : (rt.view obj).isNone = false) :
    Refused rt obj (.optional type) s exn s' := by
  have hraises : (ParamType.optional type).raises rt obj = type.raises rt obj := by
    simp [ParamType.raises, hnone]
  cases h with
  | cast what pending h => exact .cast what pending (hraises.trans h)
  | kept exn h hdouble => exact .kept exn (hraises.trans h) hdouble
  | cleared exn what pending h hdouble => exact .cleared exn what pending (hraises.trans h) hdouble

/-- Every caster, called with no error pending, reads the object and changes nothing, or refuses it. -/
lemma fromPython_converted (type : ParamType C) {s : Interp × Trace} (hs : s.1.pending = none) :
    Converted rt obj type s (type.reads rt obj) (fromPython rt obj type s) := by
  induction type with
  | bool => exact (bool_converted rt obj s).bind _
  | integral type => exact (integral_converted rt obj type hs).bind _
  | double => exact (double_converted rt obj hs).bind _
  | string => exact (utf8_converted rt obj (.inl rfl) s).bind _
  | stringView => exact (utf8_converted rt obj (.inr rfl) s).bind _
  | bytesView => exact (bytes_converted rt obj s).bind _
  | object => exact .inl ⟨rfl, _, rfl, rfl⟩
  | wrapped cls => exact (wrapped_converted rt obj cls s).bind _
  | optional type ih =>
    unfold fromPython
    cases hnone : (rt.view obj).isNone with
    | true => exact .inl ⟨by simp [ParamType.accepts, hnone], .nullopt, by simp [ParamType.reads, hnone], rfl⟩
    | false =>
      have haccepts : (ParamType.optional type).accepts rt obj = type.accepts rt obj := by
        simp [ParamType.accepts, hnone]
      have hreads : (ParamType.optional type).reads rt obj = (type.reads rt obj).map .engaged := by
        simp [ParamType.reads, hnone]
      have hconverted := ih.bind CxxArg.engaged
      rcases hconverted with ⟨h, value, hread, hrun⟩ | ⟨h, exn, s', hrun, hrefused⟩
      · exact .inl ⟨haccepts.trans h, value, hreads.trans hread, hrun⟩
      · exact .inr ⟨haccepts.trans h, exn, s', hrun, hrefused.optional rt obj hnone⟩

end SciForge.Binding
