import SciForge.Binding.Calls
import SciForge.Binding.KwSpecs

/-!
# Registration and call agree

The format, the names and the defaults that a registration stores line up: the parser, as documented, gives
each parameter its argument, and the stored defaults fill the rest.
-/

namespace SciForge.Binding

/-! ### The parser -/

/-- What a call gives for a parameter: by position, else under its name; a parameter whose name is empty is
positional only. -/
def given (names : List String) (args : List PyValue) (kwargs : Kwargs) (i : ℕ) : Option PyValue :=
  args[i]?.or (names[i]?.bind (fun name => if name = "" then none else kwargs.items.get name))

/-- A call that gives the parameters, the first `required` of which it must give. -/
structure WellFormed (required : ℕ) (names : List String) (args : List PyValue) (kwargs : Kwargs) : Prop where
  positional : args.length ≤ names.length
  named : ∀ key ∈ kwargs.items.keys, key ≠ "" ∧ key ∈ names
  once : ∀ name ∈ names.take args.length, name ∉ kwargs.items.keys
  complete : ∀ i < required, (given names args kwargs i).isSome

instance (required : ℕ) (names : List String) (args : List PyValue) (kwargs : Kwargs) :
    Decidable (WellFormed required names args kwargs) :=
  decidable_of_iff (args.length ≤ names.length ∧ (∀ key ∈ kwargs.items.keys, key ≠ "" ∧ key ∈ names) ∧
      (∀ name ∈ names.take args.length, name ∉ kwargs.items.keys) ∧
      ∀ i < required, (given names args kwargs i).isSome)
    ⟨fun ⟨h₁, h₂, h₃, h₄⟩ => ⟨h₁, h₂, h₃, h₄⟩, fun ⟨h₁, h₂, h₃, h₄⟩ => ⟨h₁, h₂, h₃, h₄⟩⟩

def letters : ℕ → String
  | 0 => ""
  | n + 1 => "O" ++ letters n

/-- The format of `total` parameters, the first `required` without a default. -/
def parseFormat (required total : ℕ) (name : String) : String :=
  letters required ++ (if required < total then "|" ++ letters (total - required) else "") ++ ":" ++ name

/-- What the documentation of `PyArg_ParseTupleAndKeywords` says for such a format and a null-terminated list of
distinct names, of which only the first can be empty. -/
structure ParsesAsDocumented (parse : ParseTuple) : Prop where
  stores : ∀ name required names args kwargs, required ≤ names.length → names.Nodup → "" ∉ names.tail →
    WellFormed required names args kwargs →
    parse (parseFormat required names.length name) (names.map some ++ [none]) args kwargs =
      .ok ((List.range names.length).map (given names args kwargs))
  refuses : ∀ name required names args kwargs, required ≤ names.length → names.Nodup → "" ∉ names.tail →
    ¬WellFormed required names args kwargs →
    ∃ message, parse (parseFormat required names.length name) (names.map some ++ [none]) args kwargs =
      .error (.typeError message)

/-! ### The stored spec -/

/-- The parameters before the first with a default. -/
def requiredCount (specs : List ArgSpec) : ℕ := (specs.takeWhile (fun a => a.default.isNone)).length

lemma requiredBeforeOptional_true {specs : List ArgSpec} (h : requiredBeforeOptional true specs = true) :
    argFormat true specs = letters specs.length ∧ ∀ a ∈ specs, a.default.isSome := by
  induction specs with
  | nil => exact ⟨rfl, fun _ h => by cases h⟩
  | cons a rest ih =>
    unfold requiredBeforeOptional at h
    cases ha : a.default with
    | none =>
      rw [ha] at h
      cases h
    | some value =>
      rw [ha] at h
      obtain ⟨hformat, hrest⟩ := ih h
      refine ⟨?_, fun b hb => ?_⟩
      · unfold argFormat
        rw [ha, List.length_cons, letters]
        exact congrArg ("" ++ "O" ++ ·) hformat
      · rcases List.mem_cons.mp hb with rfl | hb
        · rw [ha]
          rfl
        · exact hrest b hb

lemma requiredBeforeOptional_false {specs : List ArgSpec} (h : requiredBeforeOptional false specs = true) :
    argFormat false specs = letters (requiredCount specs) ++
      (if requiredCount specs < specs.length then "|" ++ letters (specs.length - requiredCount specs) else "") ∧
    ∀ i a, specs[i]? = some a → (i < requiredCount specs ↔ a.default = none) := by
  induction specs with
  | nil => exact ⟨rfl, fun _ _ h => by cases h⟩
  | cons a rest ih =>
    unfold requiredBeforeOptional at h
    cases ha : a.default with
    | none =>
      rw [ha] at h
      obtain ⟨hformat, hrequired⟩ := ih h
      have hcount : requiredCount (a :: rest) = requiredCount rest + 1 := by
        unfold requiredCount
        rw [List.takeWhile_cons, ha]
        rfl
      refine ⟨?_, fun i b hb => ?_⟩
      · unfold argFormat
        rw [ha, hcount, List.length_cons, letters, Nat.add_sub_add_right]
        simp only [Nat.add_lt_add_iff_right, String.append_assoc]
        exact congrArg (fun s => "" ++ ("O" ++ s)) hformat
      · rw [hcount]
        cases i with
        | zero =>
          obtain rfl := Option.some.inj hb
          exact iff_of_true (Nat.succ_pos _) ha
        | succ i => exact Nat.succ_lt_succ_iff.trans (hrequired i b hb)
    | some value =>
      rw [ha] at h
      obtain ⟨hformat, hrest⟩ := requiredBeforeOptional_true h
      have hcount : requiredCount (a :: rest) = 0 := by
        unfold requiredCount
        rw [List.takeWhile_cons, ha]
        rfl
      refine ⟨?_, fun i b hb => ?_⟩
      · unfold argFormat
        rw [ha, hcount, List.length_cons, if_pos (Nat.succ_pos _), Nat.sub_zero, letters]
        exact congrArg (fun s => "|" ++ "O" ++ s) hformat
      · rw [hcount]
        apply iff_of_false (Nat.not_lt_zero i)
        intro hnone
        have hsome : b.default.isSome := by
          rcases List.mem_cons.mp (List.mem_of_getElem? hb) with rfl | hb
          · rw [ha]
            rfl
          · exact hrest b hb
        rw [hnone] at hsome
        cases hsome

/-! ### Registration without failures -/

section Registration

variable {T F : Type} [DecidableEq F]

lemma addArgs_noThrow (f : F) (specs : List ArgSpec) {P : World T F → Prop} :
    Triple P (addArgs f (fun _ => noArg) specs) (fun _ _ => True) (fun _ _ => False) := by
  have hgrow : ∀ {P : World T F → Prop} g, Triple P (grow false g) (fun _ _ => True) (fun _ _ => False) :=
    fun g => Triple.modify (fun _ _ => trivial)
  have hbar : ∀ {P : World T F → Prop}, Triple P (startOptional f false) (fun _ _ => True) (fun _ _ => False) := by
    intro P
    unfold startOptional
    exact Triple.get (fun _ => Triple.ite (fun _ => Triple.pure (fun _ _ => trivial)) (fun _ => hgrow _))
  induction specs generalizing P with
  | nil => exact Triple.pure (fun _ _ => trivial)
  | cons a rest ih =>
    refine Triple.bind (M := fun _ _ => True) ?_ (fun _ => ih)
    unfold addArg
    cases a.default with
    | none => exact Triple.bind (hgrow _) (fun _ => Triple.bind (hgrow _) (fun _ => hgrow _))
    | some value =>
      refine Triple.bind hbar (fun _ => Triple.bind (hgrow _) (fun _ => Triple.bind (hgrow _) (fun _ => ?_)))
      refine Triple.bind (M := fun _ _ => True) ?_ (fun _ => hgrow _)
      unfold defaultObject
      rw [if_neg (fun h => Bool.false_ne_true h.1)]
      exact Triple.pure (fun _ _ => trivial)

lemma someAllocFails_noArg (specs : List ArgSpec) : someAllocFails (fun _ => noArg) specs = false := by
  induction specs with
  | nil => rfl
  | cons a rest ih =>
    unfold someAllocFails allocFails
    rw [ih]
    cases a.default <;> rfl

lemma fillKwSpec_noKw {w : World T F} {f : F} (hclaimed : ¬Claimed w f) (name : String) (specs : ArgSpecs) :
    ∃ s, fillKwSpec f name noKw specs w = (.ok (), s) ∧
      s.specs f = filledSpec w.epoch name specs.specs (argDefaults specs.specs) := by
  have hgrow : ∀ {P : World T F → Prop} g, Triple P (grow false g) (fun _ _ => True) (fun _ _ => False) :=
    fun g => Triple.modify (fun _ _ => trivial)
  have hnoThrow : Triple (fun _ : World T F => True) (fillKwSpec f name noKw specs) (fun _ _ => True)
      (fun _ _ => False) := by
    unfold fillKwSpec
    refine Triple.bind (M := fun _ _ => True) ?_ (fun claimed => Triple.ite (fun _ => ?_) (fun _ => ?_))
    · unfold claimKwSpec
      refine Triple.get (fun _ => Triple.ite (fun _ => ?_) (fun _ => ?_))
      · exact Triple.bind (M := fun _ _ => True) (Triple.modify (fun _ _ => trivial))
          (fun _ => Triple.pure (fun _ _ => trivial))
      · exact Triple.bind (M := fun _ _ => True) (Triple.modify (fun _ _ => trivial))
          (fun _ => Triple.pure (fun _ _ => trivial))
    · exact Triple.bind (addArgs_noThrow f specs.specs) (fun _ => Triple.bind (hgrow _) (fun _ =>
        Triple.bind (hgrow _) (fun _ => hgrow _)))
    · exact Triple.pure (fun _ _ => trivial)
  have hstored := (hnoThrow.both (fillKwSpec_stored_of True f name noKw specs w.epoch)) w
    ⟨trivial, rfl, fun _ => hclaimed⟩
  rcases hrun : fillKwSpec f name noKw specs w with ⟨e | u, s⟩
  · rw [hrun] at hstored
    exact absurd hstored.1 id
  · rw [hrun] at hstored
    obtain ⟨hspec, -⟩ := hstored.2 trivial
    have hdefaults : storedDefaults noKw.arg specs.specs = argDefaults specs.specs :=
      storedDefaults_eq (someAllocFails_noArg specs.specs)
    exact ⟨s, rfl, by rw [hspec, hdefaults]⟩

end Registration

/-! ### Arguments -/

variable {V W : Type}

/-- The object a parameter receives: what the call gives, else its default. -/
def argument (specs : List ArgSpec) (args : List PyValue) (kwargs : Kwargs) (i : ℕ) : Option PyValue :=
  (given (specs.map ArgSpec.name) args kwargs i).or ((specs[i]?.bind ArgSpec.default).map DefaultArg.object)

def arguments (specs : List ArgSpec) (args : List PyValue) (kwargs : Kwargs) : List PyValue :=
  (List.range specs.length).filterMap (argument specs args kwargs)

lemma arguments_spec {specs : ArgSpecs} {args : List PyValue} {kwargs : Kwargs}
    (h : WellFormed (requiredCount specs.specs) (specs.specs.map ArgSpec.name) args kwargs) :
    (arguments specs.specs args kwargs).length = specs.specs.length ∧
      ∀ i < specs.specs.length, (arguments specs.specs args kwargs)[i]? = argument specs.specs args kwargs i := by
  apply StdVector.filterMap_range
  intro i hi
  unfold argument
  by_cases hrequired : i < requiredCount specs.specs
  · rw [Option.isSome_or, h.complete i hrequired]
    rfl
  · have hget := List.getElem?_eq_getElem hi
    have hdefault := mt ((requiredBeforeOptional_false specs.ordered).2 i _ hget).mpr hrequired
    rw [Option.isSome_or, hget, Option.bind_some, Option.isSome_map, Option.isSome_iff_ne_none.mpr hdefault,
      Bool.or_true]

lemma fillDefaults_spec {defaults objs : List (Option PyValue)} {filled : List PyValue} {i : ℕ}
    (hlength : objs.length = filled.length)
    (h : ∀ (j : ℕ) (obj : Option PyValue), objs[j]? = some obj → filled[j]? = obj.or (defaults[i + j]?).join)
    (s : CallState V) :
    fillDefaults defaults i objs s = (.ok (some filled), s) := by
  induction objs generalizing i filled with
  | nil =>
    obtain rfl := List.length_eq_zero_iff.mp hlength.symm
    rfl
  | cons obj rest ih =>
    cases filled with
    | nil => cases hlength
    | cons first filled =>
      have hrest : fillDefaults defaults (i + 1) rest s = (.ok (some filled), s) := by
        apply ih (Nat.succ.inj hlength)
        intro j obj' hobj
        have hj := h (j + 1) obj' hobj
        rw [← Nat.add_assoc, Nat.add_right_comm] at hj
        exact hj
      have hfirst : some first = obj.or (defaults[i]?).join := h 0 obj rfl
      cases obj with
      | some obj =>
        obtain rfl := Option.some.inj hfirst
        rw [fillDefaults, Prog.run_bind_ok hrest]
        rfl
      | none =>
        have hdefault : defaults[i]? = some (some first) := Option.join_eq_some_iff.mp hfirst.symm
        have hindexed : indexed defaults i s = (.ok (some first), s) := by
          unfold indexed
          rw [hdefault]
          rfl
        rw [fillDefaults, Prog.run_bind_ok hindexed]
        dsimp only
        rw [Prog.run_bind_ok hrest]
        rfl

lemma filledSpec_format (specs : ArgSpecs) (epoch : ℕ) (name : String) (defaults : List (Option PyValue)) :
    (filledSpec epoch name specs.specs defaults).format =
      parseFormat (requiredCount specs.specs) (specs.specs.map ArgSpec.name).length name := by
  unfold filledSpec parseFormat
  rw [List.length_map]
  exact congrArg (· ++ ":" ++ name) (requiredBeforeOptional_false specs.ordered).1

lemma filledSpec_kwlist (specs : ArgSpecs) (epoch : ℕ) (name : String) (defaults : List (Option PyValue)) :
    (filledSpec epoch name specs.specs defaults).kwlist = (specs.specs.map ArgSpec.name).map some ++ [none] := by
  unfold filledSpec
  rw [List.map_map]
  rfl

lemma requiredCount_le (specs : List ArgSpec) : requiredCount specs ≤ (specs.map ArgSpec.name).length := by
  rw [List.length_map]
  exact (List.takeWhile_sublist _).length_le

/-- A well-formed call has its objects; any other one stops at the parser, with `TypeError`. -/
lemma resolveObjs_spec {parse : ParseTuple} (hparse : ParsesAsDocumented parse) {specs : ArgSpecs}
    (hnodup : (specs.specs.map ArgSpec.name).Nodup) (hnames : "" ∉ (specs.specs.map ArgSpec.name).tail)
    (epoch : ℕ) (name : String) (args : List PyValue) (kwargs : Kwargs) (s : CallState V) :
    (WellFormed (requiredCount specs.specs) (specs.specs.map ArgSpec.name) args kwargs →
      resolveObjs parse (filledSpec epoch name specs.specs (argDefaults specs.specs)) specs.specs.length args kwargs s =
        (.ok (some (arguments specs.specs args kwargs)), s)) ∧
    (¬WellFormed (requiredCount specs.specs) (specs.specs.map ArgSpec.name) args kwargs → ∃ message,
      resolveObjs parse (filledSpec epoch name specs.specs (argDefaults specs.specs)) specs.specs.length args kwargs s =
        (.ok none, { s with pyErr := some (.typeError message) })) := by
  have hlength : (specs.specs.map ArgSpec.name).length = specs.specs.length := List.length_map _
  have hrequired := requiredCount_le specs.specs
  unfold resolveObjs parseKw
  rw [filledSpec_format, filledSpec_kwlist]
  refine ⟨fun hwell => ?_, fun hill => ?_⟩
  · rw [hparse.stores name _ _ args kwargs hrequired hnodup hnames hwell]
    dsimp only
    rw [hlength, List.length_map, List.length_range, if_pos rfl]
    obtain ⟨hfilled, hget⟩ := arguments_spec hwell
    change fillDefaults (argDefaults specs.specs) 0 _ s = _
    refine fillDefaults_spec ?_ (fun j obj hobj => ?_) s
    · rw [List.length_map, List.length_range, hfilled]
    · obtain ⟨hj, -⟩ := List.getElem?_eq_some_iff.mp hobj
      rw [List.length_map, List.length_range] at hj
      rw [List.getElem?_map, List.getElem?_range hj, Option.map_some] at hobj
      obtain rfl := Option.some.inj hobj
      rw [hget j hj, Nat.zero_add]
      unfold argument argDefaults
      rw [List.getElem?_map, List.getElem?_eq_getElem hj]
      rfl
  · obtain ⟨message, hrefused⟩ := hparse.refuses name _ _ args kwargs hrequired hnodup hnames hill
    rw [hrefused]
    exact ⟨message, rfl⟩

/-! ### The call -/

def Converts (fromPython : ℕ → PyValue → Except CxxExn V) (objs : List PyValue) (values : List V) : Prop :=
  values.length = objs.length ∧
    ∀ i obj, objs[i]? = some obj → ∃ v, values[i]? = some v ∧ fromPython i obj = .ok v

def conversion (objs : List PyValue) (i : ℕ) : Option (CallEvent V) := objs[i]?.map (.converted i)

lemma indexed_of_some {α : Type} {cells : List α} {i : ℕ} {a : α} (h : cells[i]? = some a) (s : CallState V) :
    indexed cells i s = (.ok a, s) := by
  unfold indexed
  rw [h]
  rfl

lemma logEvent_run (event : CallEvent V) (s : CallState V) :
    logEvent event s = (.ok (), { s with log := s.log ++ [event] }) := rfl

lemma runCxx_ok {α : Type} (a : α) (s : CallState V) : runCxx (.ok a) s = (.ok a, s) := rfl

lemma runCxx_error {α : Type} (exn : CxxExn) (s : CallState V) :
    (runCxx (.error exn) : Call V α) s = (.error (.thrown exn), s) := rfl

lemma convertObjs_ok {fromPython : ℕ → PyValue → Except CxxExn V} {objs : List PyValue} {values : List V}
    (h : Converts fromPython objs values) {order : List ℕ} (horder : ∀ i ∈ order, i < objs.length)
    (s : CallState V) :
    ∃ converted, convertObjs fromPython objs order s =
        (.ok converted, { s with log := s.log ++ order.filterMap (conversion objs) }) ∧
      ∀ i ∈ order, converted.get i = values[i]? := by
  induction order generalizing s with
  | nil =>
    refine ⟨[], ?_, fun _ hi => by cases hi⟩
    rw [List.filterMap_nil, List.append_nil]
    rfl
  | cons i rest ih =>
    obtain ⟨obj, hobj⟩ : ∃ obj, objs[i]? = some obj := ⟨_, List.getElem?_eq_getElem (horder i List.mem_cons_self)⟩
    obtain ⟨v, hv, hfrom⟩ := h.2 i obj hobj
    obtain ⟨converted, hrun, hget⟩ := ih (fun j hj => horder j (List.mem_cons_of_mem i hj))
      { s with log := s.log ++ [.converted i obj] }
    have hevent : conversion objs i = some (.converted i obj : CallEvent V) := by
      unfold conversion
      rw [hobj]
      rfl
    refine ⟨(i, v) :: converted, ?_, fun j hj => ?_⟩
    · unfold convertObjs
      rw [Prog.run_bind_ok (indexed_of_some hobj s), Prog.run_bind_ok (logEvent_run _ s), hfrom,
        Prog.run_bind_ok (runCxx_ok v _), Prog.run_bind_ok hrun, List.filterMap_cons, hevent, List.append_assoc]
      rfl
    · unfold Dict.get
      by_cases he : i = j
      · rw [if_pos he, ← he, hv]
      · rw [if_neg he]
        exact hget j ((List.mem_cons.mp hj).resolve_left (fun hji => he hji.symm))

lemma convertObjs_fails {fromPython : ℕ → PyValue → Except CxxExn V} {objs : List PyValue} {order : List ℕ}
    (horder : ∀ i ∈ order, i < objs.length) {i : ℕ} (hi : i ∈ order) {obj : PyValue} (hobj : objs[i]? = some obj)
    {exn : CxxExn} (hfrom : fromPython i obj = .error exn) (s : CallState V) :
    ∃ exn' done, convertObjs fromPython objs order s =
        (.error (.thrown exn'), { s with log := s.log ++ done.filterMap (conversion objs) }) ∧ done <+: order := by
  induction order generalizing s with
  | nil => cases hi
  | cons j rest ih =>
    obtain ⟨obj', hobj'⟩ : ∃ obj', objs[j]? = some obj' := ⟨_, List.getElem?_eq_getElem (horder j List.mem_cons_self)⟩
    have hevent : conversion objs j = some (.converted j obj' : CallEvent V) := by
      unfold conversion
      rw [hobj']
      rfl
    unfold convertObjs
    rw [Prog.run_bind_ok (indexed_of_some hobj' s), Prog.run_bind_ok (logEvent_run _ s)]
    cases hfrom' : fromPython j obj' with
    | error exn' =>
      refine ⟨exn', [j], ?_, ⟨rest, rfl⟩⟩
      rw [Prog.run_bind_error (runCxx_error exn' _), List.filterMap_cons, hevent]
      rfl
    | ok v =>
      have hrest : i ∈ rest := by
        apply (List.mem_cons.mp hi).resolve_left
        intro he
        subst he
        rw [hobj] at hobj'
        obtain rfl := Option.some.inj hobj'
        rw [hfrom] at hfrom'
        cases hfrom'
      obtain ⟨exn', done, hrun, hprefix⟩ := ih (fun k hk => horder k (List.mem_cons_of_mem j hk)) hrest
        { s with log := s.log ++ [.converted j obj'] }
      refine ⟨exn', j :: done, ?_, List.cons_prefix_cons.mpr ⟨rfl, hprefix⟩⟩
      rw [Prog.run_bind_ok (runCxx_ok v _), Prog.run_bind_error hrun, List.filterMap_cons, hevent, List.append_assoc]
      rfl

lemma exists_thrown {fromPython : ℕ → PyValue → Except CxxExn V} {objs : List PyValue}
    (h : ∀ values, ¬Converts fromPython objs values) :
    ∃ i obj exn, objs[i]? = some obj ∧ fromPython i obj = .error exn := by
  by_contra hnone
  push Not at hnone
  have hsome : ∀ i < objs.length, (objs[i]?.bind (fun obj => (fromPython i obj).toOption)).isSome := by
    intro i hi
    rw [List.getElem?_eq_getElem hi, Option.bind_some]
    cases hfrom : fromPython i objs[i] with
    | error exn => exact absurd hfrom (hnone i _ exn (List.getElem?_eq_getElem hi))
    | ok v => rfl
  obtain ⟨hlength, hget⟩ := StdVector.filterMap_range hsome
  refine h _ ⟨hlength, fun i obj hobj => ?_⟩
  obtain ⟨hi, -⟩ := List.getElem?_eq_some_iff.mp hobj
  cases hfrom : fromPython i obj with
  | error exn => exact absurd hfrom (hnone i obj exn hobj)
  | ok v =>
    refine ⟨v, ?_, rfl⟩
    rw [hget i hi, hobj, Option.bind_some, hfrom]
    rfl

/-- The function is called once, after all conversions, on their values; or not at all. -/
lemma invokeObjs_spec (callee : Callee V W) {objs : List PyValue} (hlength : objs.length = callee.arity)
    (s : CallState V) :
    (∀ values, Converts callee.fromPython objs values → invokeObjs callee objs s =
      runCxx (callee.call values)
        { s with log := s.log ++ (callee.order.filterMap (conversion objs) ++ [.called values]) }) ∧
    ((∀ values, ¬Converts callee.fromPython objs values) → ∃ exn, ∃ done : List ℕ, invokeObjs callee objs s =
      (.error (.thrown exn), { s with log := s.log ++ done.filterMap (conversion objs) })) := by
  have horder : ∀ i ∈ callee.order, i < objs.length := by
    intro i hi
    rw [hlength]
    exact List.mem_range.mp (callee.order_perm.mem_iff.mp hi)
  refine ⟨fun values hvalues => ?_, fun hnone => ?_⟩
  · obtain ⟨converted, hrun, hget⟩ := convertObjs_ok hvalues horder s
    have hargs : (List.range callee.arity).filterMap converted.get = values := by
      rw [← hlength, ← hvalues.1]
      refine (List.filterMap_congr (fun i hi => ?_)).trans (StdVector.filterMap_range_getElem? le_rfl)
      refine hget i (callee.order_perm.mem_iff.mpr ?_)
      rw [← hlength, ← hvalues.1]
      exact hi
    unfold invokeObjs
    rw [Prog.run_bind_ok hrun, hargs, Prog.run_bind_ok (logEvent_run _ _), List.append_assoc]
  · obtain ⟨i, obj, exn, hobj, hfrom⟩ := exists_thrown hnone
    have hi : i ∈ callee.order := by
      obtain ⟨hi, -⟩ := List.getElem?_eq_some_iff.mp hobj
      exact callee.order_perm.mem_iff.mpr (List.mem_range.mpr (hlength ▸ hi))
    obtain ⟨exn', done, hrun, -⟩ := convertObjs_fails horder hi hobj hfrom s
    refine ⟨exn', done, ?_⟩
    unfold invokeObjs
    rw [Prog.run_bind_error hrun]

lemma translate_thrown (errorType : Option ℕ) (exn : CxxExn) (s : CallState V) :
    ∃ pyErr, translate errorType (.thrown exn) s = (.ok (), { s with pyErr := pyErr }) := by
  cases exn with
  | castError what => exact ⟨_, rfl⟩
  | errorAlreadySet => exact ⟨_, rfl⟩
  | badAlloc => exact ⟨_, rfl⟩
  | stdException what => exact ⟨_, rfl⟩
  | other => exact ⟨_, rfl⟩

lemma guarded_run {α : Type} (callee : Callee V W) (objs : List PyValue) (after : W → Call V α) (failed : α)
    (errorType : Option ℕ) (s : CallState V)
    (hafter : ∀ value s, (∃ a, after value s = (.ok a, s)) ∨ ∃ exn, after value s = (.error (.thrown exn), s))
    (hbounds : (invokeObjs callee objs s).1 ≠ .error .outOfBounds) :
    ∃ result pyErr, Prog.attempt (invokeObjs callee objs >>= after) (fun stop => do
        translate errorType stop
        pure failed) s =
      ((.ok result, { (invokeObjs callee objs s).2 with pyErr := pyErr }) : Except CallStop α × CallState V) := by
  have hcaught : ∀ exn s', ∃ pyErr, ((do
      translate errorType (.thrown exn)
      pure failed : Call V α) s') = (.ok failed, { s' with pyErr := pyErr }) := by
    intro exn s'
    obtain ⟨pyErr, hrun⟩ := translate_thrown errorType exn s'
    exact ⟨pyErr, by rw [Prog.run_bind_ok hrun]; rfl⟩
  rcases hrun : invokeObjs callee objs s with ⟨stop | value, s'⟩
  · cases stop with
    | outOfBounds =>
      rw [hrun] at hbounds
      exact absurd rfl hbounds
    | thrown exn =>
      obtain ⟨pyErr, hhandler⟩ := hcaught exn s'
      refine ⟨failed, pyErr, ?_⟩
      rw [Prog.run_attempt_error (Prog.run_bind_error hrun), hhandler]
  · rcases hafter value s' with ⟨a, hok⟩ | ⟨exn, herror⟩
    · refine ⟨a, s'.pyErr, ?_⟩
      rw [Prog.run_attempt_ok ((Prog.run_bind_ok hrun).trans hok)]
    · obtain ⟨pyErr, hhandler⟩ := hcaught exn s'
      refine ⟨failed, pyErr, ?_⟩
      rw [Prog.run_attempt_error ((Prog.run_bind_ok hrun).trans herror), hhandler]

/-! ### Agreement -/

/-- What the C++ side sees of a call on `specs`, and the Python error the call leaves. -/
structure Agrees (specs : List ArgSpec) (fromPython : ℕ → PyValue → Except CxxExn V) (args : List PyValue)
    (kwargs : Kwargs) (final : CallState V) : Prop where
  /-- On a well-formed call every parameter has its object. -/
  received : WellFormed (requiredCount specs) (specs.map ArgSpec.name) args kwargs →
    (arguments specs args kwargs).length = specs.length ∧
      ∀ i < specs.length, (arguments specs args kwargs)[i]? = argument specs args kwargs i
  /-- When all objects convert, each is converted once and the function is called once, on the results. -/
  called : WellFormed (requiredCount specs) (specs.map ArgSpec.name) args kwargs →
    ∀ values, Converts fromPython (arguments specs args kwargs) values →
      ∃ order : List ℕ, order.Perm (List.range specs.length) ∧
        final.log = order.filterMap (conversion (arguments specs args kwargs)) ++ [.called values]
  /-- When one does not, the function is not called. -/
  uncalled : WellFormed (requiredCount specs) (specs.map ArgSpec.name) args kwargs →
    (∀ values, ¬Converts fromPython (arguments specs args kwargs) values) → ∀ values, .called values ∉ final.log
  /-- On any other call `TypeError` is set and nothing is converted or called. -/
  refused : ¬WellFormed (requiredCount specs) (specs.map ArgSpec.name) args kwargs →
    final.log = [] ∧ ∃ message, final.pyErr = some (.typeError message)

lemma agrees_of_invoked {specs : ArgSpecs} {callee : Callee V W} (harity : callee.arity = specs.specs.length)
    {args : List PyValue} {kwargs : Kwargs}
    (hwell : WellFormed (requiredCount specs.specs) (specs.specs.map ArgSpec.name) args kwargs) (pyErr : Option PyErr) :
    Agrees specs.specs callee.fromPython args kwargs
        { (invokeObjs callee (arguments specs.specs args kwargs) ⟨[], none⟩).2 with pyErr := pyErr } ∧
      (invokeObjs callee (arguments specs.specs args kwargs) ⟨[], none⟩).1 ≠ .error .outOfBounds := by
  have hargs := arguments_spec hwell
  obtain ⟨hcalled, huncalled⟩ := invokeObjs_spec callee (hargs.1.trans harity.symm) ⟨[], none⟩
  refine ⟨⟨fun _ => hargs, fun _ values hvalues => ⟨callee.order, harity ▸ callee.order_perm, ?_⟩,
    fun _ hnone values => ?_, fun h => absurd hwell h⟩, ?_⟩
  · rw [hcalled values hvalues]
    cases callee.call values <;> rfl
  · obtain ⟨exn, done, hrun⟩ := huncalled hnone
    rw [hrun]
    intro hmem
    obtain ⟨i, -, hi⟩ := List.mem_filterMap.mp hmem
    obtain ⟨obj, -, hobj⟩ := Option.map_eq_some_iff.mp hi
    cases hobj
  · by_cases hvalues : ∃ values, Converts callee.fromPython (arguments specs.specs args kwargs) values
    · obtain ⟨values, hvalues⟩ := hvalues
      rw [hcalled values hvalues]
      cases callee.call values with
      | ok value => exact fun h => by cases h
      | error exn => exact fun h => by cases h
    · obtain ⟨exn, done, hrun⟩ := huncalled (not_exists.mp hvalues)
      rw [hrun]
      exact fun h => by cases h

variable {T F : Type} [DecidableEq F]

/-- Registration and call agree, for functions and for constructors: with distinct names, of which only the
first can be empty, and no failing allocation, a well-formed call reaches the function once, on the conversions
of its arguments, and any other call is refused with `TypeError`. No index leaves its vector, and the branch
for a null default is never taken. -/
theorem keyword_calls_agree (parse : ParseTuple) (hparse : ParsesAsDocumented parse) (specs : ArgSpecs)
    (hnodup : (specs.specs.map ArgSpec.name).Nodup) (hnames : "" ∉ (specs.specs.map ArgSpec.name).tail)
    (w : World T F) (f : F) (hclaimed : ¬Claimed w f) (name : String) :
    ∃ s, fillKwSpec f name noKw specs w = (.ok (), s) ∧
      ∀ (callee : Callee V W) (_ : callee.arity = specs.specs.length) (errorType : Option ℕ) (args : List PyValue)
        (kwargs : Kwargs),
        (∀ toPython, ∃ result final,
          callWrapperKw parse (s.specs f) callee toPython errorType args kwargs ⟨[], none⟩ = (.ok result, final) ∧
            Agrees specs.specs callee.fromPython args kwargs final) ∧
        (∀ newFails, ∃ result final,
          classInit parse (s.specs f) name callee newFails errorType args kwargs none ⟨[], none⟩ = (.ok result, final) ∧
            Agrees specs.specs callee.fromPython args kwargs final) ∧
        (resolveObjs (V := V) parse (s.specs f) callee.arity args kwargs ⟨[], none⟩).2.pyErr ≠ some .memoryError := by
  obtain ⟨s, hregister, hspec⟩ := fillKwSpec_noKw hclaimed name specs
  refine ⟨s, hregister, fun callee harity errorType args kwargs => ?_⟩
  obtain ⟨hwell, hill⟩ := resolveObjs_spec (V := V) hparse hnodup hnames w.epoch name args kwargs ⟨[], none⟩
  rw [hspec]
  rw [← harity] at hwell hill
  by_cases h : WellFormed (requiredCount specs.specs) (specs.specs.map ArgSpec.name) args kwargs
  · have hresolved := hwell h
    have hbounds := (agrees_of_invoked harity h none).2
    refine ⟨fun toPython => ?_, fun newFails => ?_, ?_⟩
    · obtain ⟨result, pyErr, hrun⟩ := guarded_run callee (arguments specs.specs args kwargs)
        (fun value => runCxx (toPython value)) none errorType ⟨[], none⟩
        (fun value s' => by
          cases toPython value with
          | ok a => exact .inl ⟨a, rfl⟩
          | error exn => exact .inr ⟨exn, rfl⟩) hbounds
      refine ⟨result, _, ?_, (agrees_of_invoked harity h pyErr).1⟩
      unfold callWrapperKw
      rw [Prog.run_bind_ok hresolved]
      exact hrun
    · obtain ⟨result, pyErr, hrun⟩ := guarded_run callee (arguments specs.specs args kwargs)
        (fun value => if newFails then .raise (.thrown .badAlloc) else pure (true, some value)) (false, none)
        errorType ⟨[], none⟩
        (fun value s' => by
          cases newFails with
          | false => exact .inl ⟨_, rfl⟩
          | true => exact .inr ⟨_, rfl⟩) hbounds
      refine ⟨result, _, ?_, (agrees_of_invoked harity h pyErr).1⟩
      unfold classInit
      rw [if_neg (by exact Bool.false_ne_true), Prog.run_bind_ok hresolved]
      exact hrun
    · rw [hresolved]
      exact fun h => by cases h
  · obtain ⟨message, hrefused⟩ := hill h
    have hagrees : Agrees specs.specs callee.fromPython args kwargs ⟨[], some (.typeError message)⟩ :=
      ⟨fun hw => absurd hw h, fun hw => absurd hw h, fun hw => absurd hw h, fun _ => ⟨rfl, message, rfl⟩⟩
    refine ⟨fun toPython => ⟨none, _, ?_, hagrees⟩, fun newFails => ⟨(false, none), _, ?_, hagrees⟩, ?_⟩
    · unfold callWrapperKw
      rw [Prog.run_bind_ok hrefused]
      rfl
    · unfold classInit
      rw [if_neg (by exact Bool.false_ne_true), Prog.run_bind_ok hrefused]
      rfl
    · rw [hrefused]
      exact fun h => by cases h

/-! ### A parser -/

/-- A parser that does what the documentation says, with one message for all refusals. -/
def documentedParse : ParseTuple := fun format kwlist args kwargs =>
  let names := (kwlist.takeWhile (fun name => name.isSome)).reduceOption
  let required := (format.toList.takeWhile (fun c => c = 'O')).length
  if "" ∈ names.tail then .error (.systemError "Empty keyword parameter name")
  else if WellFormed required names args kwargs then .ok ((List.range names.length).map (given names args kwargs))
  else .error (.typeError "invalid arguments")

lemma letters_toList (n : ℕ) : (letters n).toList = List.replicate n 'O' := by
  induction n with
  | zero => rfl
  | succ n ih =>
    unfold letters
    rw [String.toList_append, ih]
    rfl

lemma parseFormat_letters (required total : ℕ) (name : String) :
    ((parseFormat required total name).toList.takeWhile (fun c => c = 'O')).length = required := by
  have hafter : ∃ c rest, (if required < total then "|" ++ letters (total - required) else "").toList ++
      ':' :: name.toList = c :: rest ∧ c ≠ 'O' := by
    by_cases h : required < total
    · rw [if_pos h, String.toList_append]
      exact ⟨'|', _, rfl, by decide⟩
    · rw [if_neg h]
      exact ⟨':', _, rfl, by decide⟩
  obtain ⟨c, rest, hrest, hc⟩ := hafter
  have hlist : (parseFormat required total name).toList = List.replicate required 'O' ++ c :: rest := by
    unfold parseFormat
    rw [String.toList_append, String.toList_append, String.toList_append, letters_toList, ← hrest, List.append_assoc,
      List.append_assoc]
    rfl
  rw [hlist, List.takeWhile_append_of_pos (fun a ha => by simpa using (List.eq_of_mem_replicate ha)),
    List.takeWhile_cons_of_neg (by simpa using hc), List.append_nil, List.length_replicate]

lemma documentedParse_documented : ParsesAsDocumented documentedParse := by
  have hnames : ∀ names : List String,
      ((names.map some ++ [none]).takeWhile (fun name : Option String => name.isSome)).reduceOption = names := by
    intro names
    rw [List.takeWhile_append_of_pos (fun a ha => by obtain ⟨b, -, rfl⟩ := List.mem_map.mp ha; rfl)]
    change List.filterMap id _ = names
    simp
  constructor
  · intro name required names args kwargs _ _ htail hwell
    unfold documentedParse
    simp only [hnames, parseFormat_letters]
    rw [if_neg htail, if_pos hwell]
  · intro name required names args kwargs _ _ htail hill
    refine ⟨"invalid arguments", ?_⟩
    unfold documentedParse
    simp only [hnames, parseFormat_letters]
    rw [if_neg htail, if_neg hill]

/-- `arg("x"), arg("y") = 2`. -/
def requiredAndDefaulted : ArgSpecs := ⟨[⟨"x", none⟩, ⟨"y", some (.signed 2)⟩], List.cons_ne_nil _ _, rfl⟩

/-- A function of two integers that converts the second first. -/
def pairFunction : Callee PyValue (List PyValue) where
  arity := 2
  order := [1, 0]
  order_perm := by decide
  fromPython _ obj := .ok obj
  call args := .ok args

/-- One argument by position: the call agrees with the registration. -/
theorem keyword_calls_agree_defaulted :
    ∃ s : World Unit Unit, fillKwSpec () "f" noKw requiredAndDefaulted .initial = (.ok (), s) ∧
      ∃ result final, callWrapperKw documentedParse (s.specs ()) pairFunction (fun _ => .ok (some .none)) none
          [.int 5] ⟨[], List.nodup_nil⟩ ⟨[], none⟩ = (.ok result, final) ∧
        Agrees requiredAndDefaulted.specs pairFunction.fromPython [.int 5] ⟨[], List.nodup_nil⟩ final := by
  obtain ⟨s, hregister, hcalls⟩ := keyword_calls_agree (V := PyValue) (W := List PyValue) documentedParse
    documentedParse_documented requiredAndDefaulted (by decide) (by decide) (World.initial : World Unit Unit) ()
    (fun h => h.1 rfl) "f"
  obtain ⟨hfunction, -, -⟩ := hcalls pairFunction rfl none [.int 5] ⟨[], List.nodup_nil⟩
  exact ⟨s, hregister, hfunction _⟩

/-- `arg("")`. -/
def namelessArg : ArgSpecs := ⟨[⟨"", none⟩], List.cons_ne_nil _ _, rfl⟩

def identityFunction : Callee PyValue (List PyValue) where
  arity := 1
  order := [0]
  order_perm := List.Perm.refl _
  fromPython _ obj := .ok obj
  call args := .ok args

/-- A parameter with the empty name, given by keyword: the key names it, it is given once, and it is the only
required one, but an empty name makes it positional only, and the call is refused. -/
theorem empty_keyword_refused :
    ParsesAsDocumented documentedParse ∧
      (∀ key ∈ Dict.keys [("", PyValue.int 7)], key ∈ namelessArg.specs.map ArgSpec.name) ∧
      (∀ name ∈ namelessArg.specs.map ArgSpec.name, (Dict.get [("", PyValue.int 7)] name).isSome) ∧
      ∃ s : World Unit Unit, fillKwSpec () "f" noKw namelessArg .initial = (.ok (), s) ∧
        callWrapperKw documentedParse (s.specs ()) identityFunction (fun _ => .ok (some .none)) none []
            ⟨[("", .int 7)], List.nodup_singleton _⟩ ⟨[], none⟩ =
          (.ok none, ⟨[], some (.typeError "invalid arguments")⟩) :=
  ⟨documentedParse_documented, by decide, by decide, _, rfl, rfl⟩

end SciForge.Binding
