import SciForge.Binding.Sentinels

/-!
# The integer caster on machine words

The values of an integral type as words of its width, the casts between types, and the caster written with them:
what it reads, what it makes, and what a call passes for an omitted argument with an integral default.
-/

namespace SciForge.Binding

/-! ### Words -/

namespace IntType

/-- The value of a word. -/
def value (type : IntType) (v : BitVec type.bits) : ℤ := if type.signed then v.toInt else v.toNat

/-- The word of a value, modulo two to the width. -/
def word (type : IntType) (n : ℤ) : BitVec type.bits := BitVec.ofInt type.bits n

/-- `long long`. -/
def longLong : IntType := ⟨true, 64, by decide, le_rfl⟩

/-- `unsigned long long`. -/
def unsignedLongLong : IntType := ⟨false, 64, by decide, le_rfl⟩

/-- `static_cast`. -/
def staticCast (source target : IntType) (v : BitVec source.bits) : BitVec target.bits := target.word (source.value v)

variable (type : IntType)

lemma range_pow (bits : ℕ) : range bits = 2 ^ bits := by
  change ((2 ^ bits : ℕ) : ℤ) = 2 ^ bits
  push_cast
  rfl

lemma value_mem (v : BitVec type.bits) : type.min ≤ type.value v ∧ type.value v ≤ type.max := by
  unfold min max value
  rw [range_pow, range_pow]
  cases type.signed with
  | true =>
    have hmin := BitVec.le_toInt v
    have hmax := BitVec.toInt_lt (x := v)
    simp only [if_true]
    omega
  | false =>
    have hmax : (v.toNat : ℤ) < 2 ^ type.bits := by exact_mod_cast v.isLt
    simp only [Bool.false_eq_true, if_false]
    omega

variable {type}

lemma value_word {n : ℤ} (hn : type.min ≤ n ∧ n ≤ type.max) : type.value (type.word n) = n := by
  unfold min max at hn
  unfold value word
  rw [range_pow, range_pow] at hn
  cases hsigned : type.signed with
  | true =>
    simp only [hsigned, if_true] at hn ⊢
    exact BitVec.toInt_ofInt_eq_self type.pos hn.1 (by omega)
  | false =>
    simp only [hsigned, Bool.false_eq_true, if_false] at hn ⊢
    have hlt : n < (2 ^ type.bits : ℕ) := by
      push_cast
      omega
    rw [BitVec.toNat_ofInt, Int.emod_eq_of_lt hn.1 hlt, Int.toNat_of_nonneg hn.1]

lemma value_injective {v v' : BitVec type.bits} (h : type.value v = type.value v') : v = v' := by
  unfold value at h
  cases hsigned : type.signed with
  | true =>
    rw [hsigned, if_pos rfl, if_pos rfl] at h
    exact BitVec.eq_of_toInt_eq h
  | false =>
    rw [hsigned, if_neg Bool.false_ne_true, if_neg Bool.false_ne_true] at h
    exact BitVec.eq_of_toNat_eq (Int.ofNat_inj.mp h)

lemma value_staticCast {source target : IntType} {v : BitVec source.bits}
    (h : target.min ≤ source.value v ∧ source.value v ≤ target.max) :
    target.value (staticCast source target v) = source.value v := value_word h

lemma word_eq_iff {n m : ℤ} (hn : type.min ≤ n ∧ n ≤ type.max) (hm : type.min ≤ m ∧ m ≤ type.max) :
    type.word n = type.word m ↔ n = m := by
  constructor
  · intro h
    rw [← value_word hn, h, value_word hm]
  · exact congrArg type.word

lemma longLong_mem {n : ℤ} : longLong.min ≤ n ∧ n ≤ longLong.max ↔ -range 63 ≤ n ∧ n < range 63 := by
  change -range 63 ≤ n ∧ n ≤ range 63 - 1 ↔ _
  omega

lemma unsignedLongLong_mem {n : ℤ} : unsignedLongLong.min ≤ n ∧ n ≤ unsignedLongLong.max ↔ 0 ≤ n ∧ n < range 64 := by
  change 0 ≤ n ∧ n ≤ range 64 - 1 ↔ _
  omega

end IntType

open IntType

variable {C H : Type}

/-! ### The caster -/

/-- `caster<T>::from_python`. -/
def integerFromPython (type : IntType) (obj : PyObj C H) : Body (BitVec type.bits) :=
  match obj.long with
  | none => expected "int" obj
  | some n =>
    if type.signed = false ∧ 64 ≤ type.bits then do
      let wide ← asUnsignedLongLong obj n
      let wide := unsignedLongLong.word wide
      let failed ← errorOccurred
      if wide = unsignedLongLong.word unsignedLongLong.max ∧ failed then do
        clearError
        .raise (.castError "int out of range")
      else pure (staticCast unsignedLongLong type wide)
    else do
      let wide ← asLongLong obj n
      let wide := longLong.word wide
      let failed ← errorOccurred
      if wide = longLong.word (-1) ∧ failed then do
        clearError
        .raise (.castError "int out of range")
      else
        let fits : Bool :=
          if type.signed then
            longLong.value (staticCast type longLong (type.word type.min)) ≤ longLong.value wide &&
              longLong.value wide ≤ longLong.value (staticCast type longLong (type.word type.max))
          else
            0 ≤ longLong.value wide &&
              unsignedLongLong.value (staticCast longLong unsignedLongLong wide) ≤
                unsignedLongLong.value (staticCast type unsignedLongLong (type.word type.max))
        if fits then pure (staticCast longLong type wide) else .raise (.castError "int out of range")

/-- `caster<T>::to_python`; `error` is set when the object cannot be allocated. -/
def integerToPython {ε : Type} (type : IntType) (v : BitVec type.bits) (error : Option Pending) :
    Prog Interp ε (Option (Built H)) :=
  scalarToPython (.integer
    (if type.signed then longLong.value (staticCast type longLong v)
    else unsignedLongLong.value (staticCast type unsignedLongLong v))) error

lemma IntType.min_mem (type : IntType) : type.min ≤ type.min ∧ type.min ≤ type.max :=
  ⟨le_rfl, (type.value_mem 0#_).1.trans (type.value_mem 0#_).2⟩

lemma IntType.max_mem (type : IntType) : type.min ≤ type.max ∧ type.max ≤ type.max :=
  ⟨type.min_mem.2, le_rfl⟩

lemma IntType.longLong_of_mem {type : IntType} (hnarrow : ¬(type.signed = false ∧ 64 ≤ type.bits)) {n : ℤ}
    (hn : type.min ≤ n ∧ n ≤ type.max) : longLong.min ≤ n ∧ n ≤ longLong.max := by
  obtain ⟨hmin, hmax, -⟩ := type.bounds
  have hlt : type.max < range 63 := by
    apply hmax
    cases hsigned : type.signed with
    | true => exact .inl rfl
    | false => exact .inr (not_le.mp (fun hle => hnarrow ⟨hsigned, hle⟩))
  exact longLong_mem.mpr ⟨hmin.trans hn.1, hn.2.trans_lt hlt⟩

lemma IntType.unsignedLongLong_of_mem {type : IntType} (hsigned : type.signed = false) {n : ℤ}
    (hn : type.min ≤ n ∧ n ≤ type.max) : unsignedLongLong.min ≤ n ∧ n ≤ unsignedLongLong.max := by
  obtain ⟨-, -, hmax⟩ := type.bounds
  have hzero : type.min = 0 := by
    unfold min
    rw [hsigned]
    rfl
  exact unsignedLongLong_mem.mpr ⟨hzero ▸ hn.1, hn.2.trans_lt (hmax hsigned)⟩

lemma IntType.value_wide (type : IntType) (v : BitVec type.bits) :
    (type.signed = true → longLong.value (staticCast type longLong v) = type.value v) ∧
      (type.signed = false → unsignedLongLong.value (staticCast type unsignedLongLong v) = type.value v) := by
  refine ⟨fun hsigned => value_staticCast (longLong_of_mem ?_ (type.value_mem v)),
    fun hsigned => value_staticCast (unsignedLongLong_of_mem hsigned (type.value_mem v))⟩
  rw [hsigned]
  exact fun h => Bool.false_ne_true h.1.symm

lemma asUnsignedLongLong_run (obj : PyObj C H) (n : ℤ) (s : Interp × Trace) :
    ∃ wide s', asUnsignedLongLong obj n s = (.ok wide, s') ∧
      unsignedLongLong.min ≤ wide ∧ wide ≤ unsignedLongLong.max := by
  unfold asUnsignedLongLong
  by_cases hn : 0 ≤ n ∧ n < range 64
  · rw [if_pos hn]
    exact ⟨n, s, rfl, unsignedLongLong_mem.mpr hn⟩
  · rw [if_neg hn]
    exact ⟨range 64 - 1, _, rfl, unsignedLongLong.max_mem⟩

lemma asLongLong_run (obj : PyObj C H) (n : ℤ) (s : Interp × Trace) :
    ∃ wide s', asLongLong obj n s = (.ok wide, s') ∧ longLong.min ≤ wide ∧ wide ≤ longLong.max := by
  unfold asLongLong
  by_cases hn : -range 63 ≤ n ∧ n < range 63
  · rw [if_pos hn]
    exact ⟨n, s, rfl, longLong_mem.mpr hn⟩
  · rw [if_neg hn]
    exact ⟨-1, _, rfl, by decide, by decide⟩

lemma fits_eq {type : IntType} (hnarrow : ¬(type.signed = false ∧ 64 ≤ type.bits)) {wide : ℤ}
    (hwide : longLong.min ≤ wide ∧ wide ≤ longLong.max) :
    (if type.signed then
      decide (longLong.value (staticCast type longLong (type.word type.min)) ≤ longLong.value (longLong.word wide)) &&
        decide (longLong.value (longLong.word wide) ≤ longLong.value (staticCast type longLong (type.word type.max)))
    else
      decide (0 ≤ longLong.value (longLong.word wide)) &&
        decide (unsignedLongLong.value (staticCast longLong unsignedLongLong (longLong.word wide)) ≤
          unsignedLongLong.value (staticCast type unsignedLongLong (type.word type.max)))) =
    if type.signed then decide (type.min ≤ wide) && decide (wide ≤ type.max)
    else decide (0 ≤ wide) && decide (wide ≤ type.max) := by
  have hmin := value_word type.min_mem
  have hmax := value_word type.max_mem
  rw [value_word hwide]
  cases hsigned : type.signed with
  | true =>
    have hminWide : longLong.value (staticCast type longLong (type.word type.min)) = type.min := by
      rw [value_staticCast (by rw [hmin]; exact longLong_of_mem hnarrow type.min_mem), hmin]
    have hmaxWide : longLong.value (staticCast type longLong (type.word type.max)) = type.max := by
      rw [value_staticCast (by rw [hmax]; exact longLong_of_mem hnarrow type.max_mem), hmax]
    rw [if_pos rfl, if_pos rfl, hminWide, hmaxWide]
  | false =>
    have hmaxWide : unsignedLongLong.value (staticCast type unsignedLongLong (type.word type.max)) = type.max := by
      rw [value_staticCast (by rw [hmax]; exact unsignedLongLong_of_mem hsigned type.max_mem), hmax]
    rw [if_neg Bool.false_ne_true, if_neg Bool.false_ne_true, hmaxWide]
    by_cases hnonneg : 0 ≤ wide
    · have hcast : unsignedLongLong.min ≤ wide ∧ wide ≤ unsignedLongLong.max := by
        rw [longLong_mem] at hwide
        exact unsignedLongLong_mem.mpr ⟨hnonneg, hwide.2.trans_le (range_le (by decide))⟩
      rw [value_staticCast (by rwa [value_word hwide]), value_word hwide]
    · rw [decide_eq_false hnonneg, Bool.false_and, Bool.false_and]

/-- The caster computes on words what it computes on their values. -/
lemma integerFromPython_run (type : IntType) (obj : PyObj C H) (s : Interp × Trace) :
    integerFromPython type obj s =
      ((integralFromPython type obj s).1.map type.word, (integralFromPython type obj s).2) := by
  unfold integerFromPython integralFromPython
  cases obj.long with
  | none =>
    dsimp only
    unfold expected pyTypeName
    cases obj.typeName <;> rfl
  | some n =>
    dsimp only
    by_cases hwide : type.signed = false ∧ 64 ≤ type.bits
    · obtain ⟨wide, s', hread, hmem⟩ := asUnsignedLongLong_run obj n s
      have hsentinel : unsignedLongLong.word wide = unsignedLongLong.word unsignedLongLong.max ↔
          wide = range 64 - 1 := word_eq_iff hmem unsignedLongLong.max_mem
      rw [if_pos hwide, if_pos hwide, Prog.run_bind_ok hread, Prog.run_bind_ok hread]
      rw [Prog.run_bind_ok (errorOccurred_run s'), Prog.run_bind_ok (errorOccurred_run s')]
      simp only [hsentinel]
      by_cases hfailed : wide = range 64 - 1 ∧ s'.1.pending.isSome = true
      · rw [if_pos hfailed, if_pos hfailed]
        rfl
      · rw [if_neg hfailed, if_neg hfailed]
        unfold staticCast
        rw [value_word hmem]
        rfl
    · obtain ⟨wide, s', hread, hmem⟩ := asLongLong_run obj n s
      have hminus : longLong.min ≤ -1 ∧ -1 ≤ longLong.max := by decide
      have hsentinel : longLong.word wide = longLong.word (-1) ↔ wide = -1 := word_eq_iff hmem hminus
      rw [if_neg hwide, if_neg hwide, Prog.run_bind_ok hread, Prog.run_bind_ok hread]
      rw [Prog.run_bind_ok (errorOccurred_run s'), Prog.run_bind_ok (errorOccurred_run s')]
      simp only [hsentinel]
      by_cases hfailed : wide = -1 ∧ s'.1.pending.isSome = true
      · rw [if_pos hfailed, if_pos hfailed]
        rfl
      · rw [if_neg hfailed, if_neg hfailed, fits_eq hwide hmem]
        unfold staticCast
        rw [value_word hmem]
        generalize (if type.signed then decide (type.min ≤ wide) && decide (wide ≤ type.max)
          else decide (0 ≤ wide) && decide (wide ≤ type.max)) = fits
        cases fits <;> rfl

lemma integerFromPython_exact (type : IntType) (obj : PyObj C H) {s : Interp × Trace} (hs : s.1.pending = none)
    {n : ℤ} (hlong : obj.long = some n) :
    (type.min ≤ n ∧ n ≤ type.max → ∃ v, type.value v = n ∧ integerFromPython type obj s = (.ok v, s)) ∧
      (¬(type.min ≤ n ∧ n ≤ type.max) →
        integerFromPython type obj s = (.error (.castError "int out of range"), s)) := by
  rw [integerFromPython_run]
  constructor
  · intro hrange
    rw [integral_run type obj hs hlong hrange]
    exact ⟨type.word n, value_word hrange, rfl⟩
  · intro hrange
    rw [integral_refused type obj hs hlong hrange]
    rfl

lemma integerToPython_eq {ε : Type} (type : IntType) (v : BitVec type.bits) (error : Option Pending) :
    (integerToPython type v error : Prog Interp ε (Option (Built H))) =
      scalarToPython (.integer (type.value v)) error := by
  have hwide : (if type.signed then longLong.value (staticCast type longLong v)
      else unsignedLongLong.value (staticCast type unsignedLongLong v)) = type.value v := by
    cases hsigned : type.signed with
    | true => exact (type.value_wide v).1 hsigned
    | false => exact (type.value_wide v).2 hsigned
  unfold integerToPython
  rw [hwide]

/-! ### Defaults -/

/-- The value of `arg(...) = value`, of type `bool` or another integral type. -/
inductive IntDefault
  | bool (b : Bool)
  | integral (type : IntType) (v : BitVec type.bits)

namespace IntDefault

def value : IntDefault → ℤ
  | .bool b => if b then 1 else 0
  | .integral type v => type.value v

/-- The branches of `default_object` for an integral value: `bool` is unsigned. -/
def argument : IntDefault → DefaultArg
  | .bool b => .unsigned (if b then 1 else 0)
  | .integral type v =>
    if type.signed then .signed (Int64.ofBitVec (staticCast type longLong v))
    else .unsigned (UInt64.ofBitVec (staticCast type unsignedLongLong v))

lemma argument_object (d : IntDefault) : d.argument.object = .int d.value := by
  cases d with
  | bool b => cases b <;> rfl
  | integral type v =>
    rw [argument]
    cases hsigned : type.signed with
    | true =>
      rw [if_pos rfl]
      exact congrArg PyValue.int ((type.value_wide v).1 hsigned)
    | false =>
      rw [if_neg Bool.false_ne_true]
      exact congrArg PyValue.int ((type.value_wide v).2 hsigned)

end IntDefault

/-- The argument that is exactly `n`, for a parameter of an integral type that represents it. -/
def exactArg : ParamType C → ℤ → Option (CxxArg H)
  | .bool, n => if n = 0 ∨ n = 1 then some (.bool (decide (n = 1))) else none
  | .integral type, n => if type.min ≤ n ∧ n ≤ type.max then some (.integer n) else none
  | _, _ => none

/-- What the Python API answers about an `int`: the integer it holds, and whether it is not zero. -/
structure IntsAsDocumented (rt : Runtime C H) : Prop where
  long : ∀ n, (rt.view (.int n)).long = some n
  truth : ∀ n, (rt.view (.int n)).truth = .ok (decide (n ≠ 0))

lemma exactArg_fromPython {rt : Runtime C H} (hints : IntsAsDocumented rt) {type : ParamType C} {n : ℤ}
    {value : CxxArg H} (hvalue : exactArg type n = some value) {s : Interp × Trace} (hs : s.1.pending = none) :
    fromPython rt (.int n) type s = (.ok value, s) := by
  cases type with
  | bool =>
    rw [exactArg, Option.ite_none_right_eq_some, Option.some.injEq] at hvalue
    obtain ⟨hn, rfl⟩ := hvalue
    have hbool : boolFromPython (rt.view (.int n)) s = (.ok (decide (n = 1)), s) := by
      unfold boolFromPython
      rw [hints.truth]
      rcases hn with rfl | rfl <;> rfl
    exact Prog.run_bind_ok hbool
  | integral type =>
    rw [exactArg, Option.ite_none_right_eq_some, Option.some.injEq] at hvalue
    obtain ⟨hn, rfl⟩ := hvalue
    exact Prog.run_bind_ok (integral_run type _ hs (hints.long n) hn)
  | _ => cases hvalue

/-! ### Calls -/

/-- The parser stores null for parameter `i`, and only for parameters with a default. -/
structure Omits (specs : List ArgSpec) (objs : List (Option PyValue)) (i : ℕ) : Prop where
  length : objs.length = specs.length
  defaulted : ∀ (j : ℕ) (a : ArgSpec), objs[j]? = some none → specs[j]? = some a → a.default ≠ none
  omitted : objs[i]? = some none

/-- The objects of a call, the null ones replaced by the defaults. -/
def receivedObjs (specs : List ArgSpec) (objs : List (Option PyValue)) : List PyValue :=
  (List.range specs.length).filterMap
    (fun j => objs[j]?.join.or ((specs[j]?.bind ArgSpec.default).map DefaultArg.object))

/-- Some other argument has an object that its caster does not accept. -/
def OtherRefused (rt : Runtime C H) (params : List (ParamType C)) (objs : List PyValue) (i : ℕ) : Prop :=
  ∃ j type obj, j ≠ i ∧ params[j]? = some type ∧ objs[j]? = some obj ∧ type.accepts rt obj = false

lemma receivedObjs_spec {specs : List ArgSpec} {objs : List (Option PyValue)} {i : ℕ} (h : Omits specs objs i) :
    (receivedObjs specs objs).length = specs.length ∧ ∀ j < specs.length, (receivedObjs specs objs)[j]? =
      objs[j]?.join.or ((specs[j]?.bind ArgSpec.default).map DefaultArg.object) := by
  apply StdVector.filterMap_range
  intro j hj
  have hspec := List.getElem?_eq_getElem hj
  obtain ⟨stored, hobj⟩ : ∃ stored, objs[j]? = some stored := ⟨_, List.getElem?_eq_getElem (h.length.symm ▸ hj)⟩
  cases stored with
  | some obj =>
    rw [hobj]
    rfl
  | none =>
    have hdefault := h.defaulted j _ hobj hspec
    rw [hobj, hspec, Option.bind_some]
    exact Option.isSome_map.trans (Option.isSome_iff_ne_none.mpr hdefault)

lemma resolveObjs_omits {V : Type} {parse : ParseTuple} {spec : KwSpec} {specs : List ArgSpec} {args : List PyValue}
    {kwargs : Kwargs} {objs : List (Option PyValue)} {i : ℕ} (hdefaults : spec.defaults = argDefaults specs)
    (hparse : parse spec.format spec.kwlist args kwargs = .ok objs) (h : Omits specs objs i) (s : CallState V) :
    resolveObjs parse spec specs.length args kwargs s = (.ok (some (receivedObjs specs objs)), s) := by
  obtain ⟨hlength, hget⟩ := receivedObjs_spec h
  have hparsed : parseKw parse spec specs.length args kwargs s = (.ok (some objs), s) := by
    unfold parseKw
    rw [hparse]
    dsimp only
    rw [if_pos h.length]
    rfl
  unfold resolveObjs
  rw [Prog.run_bind_ok hparsed, hdefaults]
  refine fillDefaults_spec (h.length.trans hlength.symm) (fun j obj hobj => ?_) s
  obtain ⟨hj, -⟩ := List.getElem?_eq_some_iff.mp hobj
  have hj' : j < specs.length := h.length ▸ hj
  rw [hget j hj', hobj, Nat.zero_add, argDefaults, List.getElem?_map, List.getElem?_eq_getElem hj']
  rfl

lemma omits_of_given {parse : ParseTuple} (hparse : ParsesAsDocumented parse) {specs : ArgSpecs}
    (hnodup : (specs.specs.map ArgSpec.name).Nodup) (hnames : "" ∉ (specs.specs.map ArgSpec.name).tail) (epoch : ℕ)
    (name : String) (defaults : List (Option PyValue)) {args : List PyValue} {kwargs : Kwargs}
    (hwell : WellFormed (requiredCount specs.specs) (specs.specs.map ArgSpec.name) args kwargs) {i : ℕ}
    (hi : i < specs.specs.length) (hgiven : given (specs.specs.map ArgSpec.name) args kwargs i = none) :
    ∃ objs, parse (filledSpec epoch name specs.specs defaults).format (filledSpec epoch name specs.specs defaults).kwlist
      args kwargs = .ok objs ∧ Omits specs.specs objs i := by
  rw [filledSpec_format, filledSpec_kwlist]
  refine ⟨_, hparse.stores name _ _ args kwargs (requiredCount_le specs.specs) hnodup hnames hwell, ?_, ?_, ?_⟩
  · rw [List.length_map, List.length_range, List.length_map]
  · intro j a hobj ha hnone
    obtain ⟨hj, -⟩ := List.getElem?_eq_some_iff.mp ha
    have hrequired := ((requiredBeforeOptional_false specs.ordered).2 j a ha).mpr hnone
    have hsome := hwell.complete j hrequired
    rw [List.getElem?_map, List.length_map, List.getElem?_range hj, Option.map_some, Option.some.injEq] at hobj
    rw [hobj] at hsome
    cases hsome
  · rw [List.getElem?_map, List.length_map, List.getElem?_range hi, Option.map_some, hgiven]

/-- What follows the conversions of a call with the given values: of a function, and of a constructor on an instance
that holds nothing. -/
structure Passes (rt : Runtime C H) (sig : Signature C) (spec : KwSpec) (args : List PyValue) (kwargs : Kwargs)
    (values : List (CxxArg H)) : Prop where
  function : ∀ func, rt.callWrapperKw sig func spec args kwargs (.start none, .start) =
    guarded rt .null (do
      let returned ← behave (func values)
      returnValue returned) (.start none, .start)
  constructor : ∀ name factory store,
    rt.classInit name sig factory store spec none args kwargs (.start none, .start) =
      guarded rt (.status (-1)) (do
        let _ ← behave (factory values)
        match store with
        | some thrown => .raise thrown.exn
        | none => pure (.status 0)) (.start none, .start)

lemma guarded_congr {rt : Runtime C H} {sentinel : Answer H} {p q : Body (Answer H)} {s : Interp × Trace}
    (h : p s = q s) : guarded rt sentinel p s = guarded rt sentinel q s := by
  unfold guarded Prog.attempt
  rw [h]

lemma passes_of_invoke {rt : Runtime C H} {sig : Signature C} {spec : KwSpec} {args : List PyValue} {kwargs : Kwargs}
    {objs : List PyValue} {values : List (CxxArg H)}
    (hresolved : embed (H := H) (resolveObjs rt.parse spec sig.params.length args kwargs)
      (Interp.start none, Trace.start) = (.ok (some objs), (.start none, .start)))
    (hinvoke : ∀ {R : Type} {null : R → Bool} (call : List (CxxArg H) → Behaviour R null),
      invoke rt sig call objs (Interp.start none, Trace.start) = behave (call values) (Interp.start none, Trace.start)) :
    Passes rt sig spec args kwargs values := by
  constructor
  · intro func
    unfold Runtime.callWrapperKw
    rw [Prog.run_bind_ok hresolved]
    exact guarded_congr (Prog.run_bind_congr (hinvoke func))
  · intro name factory store
    unfold Runtime.classInit
    rw [if_neg (by exact Bool.false_ne_true), Prog.run_bind_ok hresolved]
    exact guarded_congr (Prog.run_bind_congr (hinvoke factory))

lemma omitted_default {rt : Runtime C H} (hints : IntsAsDocumented rt) {specs : List ArgSpec} {sig : Signature C}
    (hparams : sig.params.length = specs.length) {spec : KwSpec} (hdefaults : spec.defaults = argDefaults specs)
    {i : ℕ} {a : ArgSpec} (ha : specs[i]? = some a) {d : IntDefault} (hd : a.default = some d.argument)
    {type : ParamType C} (htype : sig.params[i]? = some type) {value : CxxArg H}
    (hvalue : exactArg type d.value = some value) {args : List PyValue} {kwargs : Kwargs}
    {objs : List (Option PyValue)} (hparse : rt.parse spec.format spec.kwlist args kwargs = .ok objs)
    (homits : Omits specs objs i) :
    OtherRefused rt sig.params (receivedObjs specs objs) i ∨
      ∃ values, values[i]? = some value ∧ Passes rt sig spec args kwargs values := by
  obtain ⟨hlength, hget⟩ := receivedObjs_spec homits
  obtain ⟨hi, -⟩ := List.getElem?_eq_some_iff.mp ha
  have hdefault : (receivedObjs specs objs)[i]? = some (.int d.value) := by
    rw [hget i hi, homits.omitted, ha, Option.bind_some, hd, Option.map_some, d.argument_object]
    rfl
  have hstart : ((Interp.start none, Trace.start) : Interp × Trace).1.pending = none := rfl
  by_cases hrefused : OtherRefused rt sig.params (receivedObjs specs objs) i
  · exact .inl hrefused
  have hread : type.accepts rt (.int d.value) = true ∧ type.reads rt (.int d.value) = some value := by
    have hfrom := exactArg_fromPython hints hvalue hstart
    rcases fromPython_converted rt (.int d.value) type hstart with ⟨haccepts, value', hread, hrun⟩ |
      ⟨-, exn, s', hrun, -⟩
    · have hsame := Except.ok.inj (Prod.ext_iff.mp (hrun.symm.trans hfrom)).1
      exact ⟨haccepts, hread.trans (congrArg some hsame)⟩
    · rw [hfrom] at hrun
      cases hrun
  have haccepts : sig.accepts rt (receivedObjs specs objs) = true := by
    rw [accepts_iff]
    intro j type' obj htype' hobj
    by_cases hj : j = i
    · subst hj
      obtain rfl := Option.some.inj (htype.symm.trans htype')
      obtain rfl := Option.some.inj (hdefault.symm.trans hobj)
      exact hread.1
    · by_contra hfalse
      exact hrefused ⟨j, type', obj, hj, htype', hobj, eq_false_of_ne_true hfalse⟩
  have hresolved : embed (H := H) (resolveObjs rt.parse spec sig.params.length args kwargs)
      (Interp.start none, Trace.start) = (.ok (some (receivedObjs specs objs)), (.start none, .start)) := by
    unfold embed
    rw [hparams, resolveObjs_omits hdefaults hparse homits]
    rfl
  refine .inr ⟨sig.arguments rt (receivedObjs specs objs), ?_, ?_⟩
  · rw [arguments_getElem? haccepts htype hdefault, hread.2]
  · exact passes_of_invoke hresolved (fun call => invoke_accepted haccepts call hstart)

lemma fillKwSpec_quiet {T F : Type} [DecidableEq F] {f : F} {name : String} {env : KwEnv} {specs : ArgSpecs}
    {w s : World T F} (hrun : fillKwSpec f name env specs w = (.ok (), s)) (hquiet : s.pyErr = none) :
    (s.specs f).defaults = argDefaults specs.specs := by
  have hspec := fillKwSpec_spec w f name env specs w rfl
  rw [hrun] at hspec
  rcases hspec with ⟨-, rfl⟩ | ⟨-, rfl⟩
  · cases hquiet
  · have hfails : someAllocFails env.arg specs.specs = false := by
      cases hfails : someAllocFails env.arg specs.specs with
      | false => rfl
      | true =>
        rw [hfails] at hquiet
        cases hquiet
    rw [World.put_specs_self, registeredSpec, storedDefaults_eq hfails]
    rfl

/-- The integer caster, of every integral type but `bool`: it reads the integers of the type's range exactly and
throws on the others, in both cases with no error pending; it makes the integer a word stands for, and reads it back
to the same word. And an integral default reaches a parameter of an integral type, `bool` included, exactly, in a
call of the function or constructor that omits it. -/
theorem integer_caster_exact (rt : Runtime C H) :
    (∀ (type : IntType) (obj : PyObj C H) (n : ℤ) (s : Interp × Trace), obj.long = some n → s.1.pending = none →
      (type.min ≤ n ∧ n ≤ type.max → ∃ v, type.value v = n ∧ integerFromPython type obj s = (.ok v, s)) ∧
      (¬(type.min ≤ n ∧ n ≤ type.max) →
        integerFromPython type obj s = (.error (.castError "int out of range"), s))) ∧
    (∀ (type : IntType) (v : BitVec type.bits) (s : Interp),
      (integerToPython type v none : Conversion (Option (Built H))) s =
        (.ok (some (.scalar s.created (.integer (type.value v)))), { s with created := s.created + 1 }) ∧
      ∀ (obj : PyObj C H) (s : Interp × Trace), obj.long = some (type.value v) → s.1.pending = none →
        integerFromPython type obj s = (.ok v, s)) ∧
    (IntsAsDocumented rt → ∀ {T F : Type} [DecidableEq F] (f : F) (name : String) (env : KwEnv) (specs : ArgSpecs)
      (w s : World T F), fillKwSpec f name env specs w = (.ok (), s) → s.pyErr = none →
      ∀ (sig : Signature C), sig.params.length = specs.specs.length →
      ∀ (i : ℕ) (a : ArgSpec) (d : IntDefault), specs.specs[i]? = some a → a.default = some d.argument →
      ∀ (type : ParamType C) (value : CxxArg H), sig.params[i]? = some type → exactArg type d.value = some value →
      ∀ (args : List PyValue) (kwargs : Kwargs) (objs : List (Option PyValue)),
        rt.parse (s.specs f).format (s.specs f).kwlist args kwargs = .ok objs → Omits specs.specs objs i →
        OtherRefused rt sig.params (receivedObjs specs.specs objs) i ∨
          ∃ values, values[i]? = some value ∧ Passes rt sig (s.specs f) args kwargs values) := by
  refine ⟨fun type obj n s hlong hs => integerFromPython_exact type obj hs hlong, fun type v s => ⟨?_, ?_⟩, ?_⟩
  · rw [integerToPython_eq]
    rfl
  · intro obj s hlong hs
    obtain ⟨v', hv', hrun⟩ := (integerFromPython_exact type obj hs hlong).1 (type.value_mem v)
    rw [hrun, value_injective hv']
  · intro hints T F _ f name env specs w s hrun hquiet sig hparams i a d ha hd type value htype hvalue args kwargs
      objs hparse homits
    exact omitted_default hints hparams (fillKwSpec_quiet hrun hquiet) ha hd htype hvalue hparse homits

/-- What the API answers about `2 ** 64 - 1`, and any other integer where only its value and truth are asked for. -/
def integerObject (n : ℤ) : PyObj Unit Unit where
  isNone := false
  typeName := .ok "int"
  truth := .ok (decide (n ≠ 0))
  long := some n
  overflow := 0
  float := .value 0x43F0000000000000
  utf8 := none
  bytes := none
  held := fun _ => none

def integerRuntime : Runtime Unit Unit where
  view
    | .int n => integerObject n
    | _ => oddObject
  wrappedType := fun _ => ⟨true, "demo.Widget"⟩
  parse := documentedParse
  errorType := some 1

/-- `arg("n") = SIZE_MAX`. -/
def sizeDefault : IntDefault := .integral unsignedLongLong (unsignedLongLong.word unsignedLongLong.max)

def sizeSpecs : ArgSpecs := ⟨[⟨"n", some sizeDefault.argument⟩], List.cons_ne_nil _ _, rfl⟩

lemma size_order : List.Perm [0] (List.range [(.integral unsignedLongLong : ParamType Unit)].length) :=
  List.Perm.refl _

/-- A function of a `std::size_t`. -/
def sizeSignature : Signature Unit := ⟨[.integral unsignedLongLong], [0], size_order⟩

/-- `SIZE_MAX` is read, made and passed as a default; -1 is refused. -/
theorem integer_caster_exact_size :
    (∃ v, unsignedLongLong.value v = range 64 - 1 ∧ integerFromPython unsignedLongLong
        (integerObject (range 64 - 1)) (.start none, .start) = (.ok v, (.start none, .start))) ∧
    integerFromPython unsignedLongLong (integerObject (-1)) (.start none, .start) =
      (.error (.castError "int out of range"), (.start none, .start)) ∧
    ∃ s : World Unit Unit, fillKwSpec () "f" noKw sizeSpecs .initial = (.ok (), s) ∧
      ∃ values, values[0]? = some (.integer (range 64 - 1)) ∧
        Passes integerRuntime sizeSignature (s.specs ()) [] ⟨[], List.nodup_nil⟩ values := by
  obtain ⟨hread, -, hcall⟩ := integer_caster_exact integerRuntime
  obtain ⟨s, hregister, hquiet, hspec⟩ : ∃ s : World Unit Unit,
      fillKwSpec () "f" noKw sizeSpecs .initial = (.ok (), s) ∧
      s.pyErr = none ∧ s.specs () = filledSpec 0 "f" sizeSpecs.specs (argDefaults sizeSpecs.specs) :=
    ⟨_, rfl, rfl, rfl⟩
  have hnames : (sizeSpecs.specs.map ArgSpec.name).Nodup ∧ "" ∉ (sizeSpecs.specs.map ArgSpec.name).tail := by decide
  have hwell : WellFormed (requiredCount sizeSpecs.specs) (sizeSpecs.specs.map ArgSpec.name) []
      ⟨[], List.nodup_nil⟩ := by decide
  refine ⟨?_, ?_, s, hregister, ?_⟩
  · exact (hread unsignedLongLong (integerObject (range 64 - 1)) _ _ rfl rfl).1 (by decide)
  · exact (hread unsignedLongLong (integerObject (-1)) _ _ rfl rfl).2 (by decide)
  · obtain ⟨objs, hparse, homits⟩ := omits_of_given documentedParse_documented hnames.1 hnames.2 0 "f"
      (argDefaults sizeSpecs.specs) hwell Nat.zero_lt_one rfl
    rw [← hspec] at hparse
    have hpassed := hcall ⟨fun _ => rfl, fun _ => rfl⟩ () "f" noKw sizeSpecs .initial s hregister hquiet sizeSignature
      rfl 0 _ sizeDefault rfl rfl (.integral unsignedLongLong) (.integer (range 64 - 1)) rfl rfl [] ⟨[], List.nodup_nil⟩
      objs hparse homits
    refine hpassed.resolve_left ?_
    rintro ⟨j, type, obj, hj, htype, -⟩
    obtain ⟨hlt, -⟩ := List.getElem?_eq_some_iff.mp htype
    exact hj (Nat.lt_one_iff.mp hlt)

end SciForge.Binding
