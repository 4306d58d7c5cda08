import SciForge.Bench.Schema

/-!
# The round trip of a run

A case and its free fields share one flat object, in which a free field of a reserved name takes the place of
the case's own. What a run and its object keep of each other follows key by key.
-/

namespace SciForge.Bench.Schema

variable {N : Type}

/-! ### Equality -/

def isContainer : Json N → Bool
  | .array _ => true
  | .object _ => true
  | _ => false

/-- Python's `==`, where `same` compares two values that are not containers. A list or a dict equals itself, and a
dict equals one with equal items in any order. -/
inductive Eqv (same : Json N → Json N → Prop) : Json N → Json N → Prop
  | refl (value : Json N) : Eqv same value value
  | scalar {x y : Json N} (hx : isContainer x = false) (hy : isContainer y = false) (h : same x y) : Eqv same x y
  | array {xs ys : List (Json N)} (h : List.Forall₂ (Eqv same) xs ys) : Eqv same (.array xs) (.array ys)
  | object {xs ys : List (PyStr × Json N)} (h : ∀ k, Option.Rel (Eqv same) (Dict.get xs k) (Dict.get ys k)) :
      Eqv same (.object xs) (.object ys)

section

variable (same : Json N → Json N → Prop)

def DictEqv (d e : Dict PyStr (Json N)) : Prop := ∀ k, Option.Rel (Eqv same) (d.get k) (e.get k)

structure CaseEqv (case case' : Case N) : Prop where
  name : Eqv same case.name case'.name
  unit : Eqv same case.unit case'.unit
  samples : List.Forall₂ (Eqv same) case.samples case'.samples
  result : Eqv same case.result case'.result
  extra : DictEqv same case.extra case'.extra

structure RunEqv (run run' : Run N) : Prop where
  metadata : DictEqv same run.metadata run'.metadata
  cases : List.Forall₂ (CaseEqv same) run.cases run'.cases

/-- The run read back equals the run. -/
def RunReturns (run : Run N) : Prop := ∃ run', runFromJson (runToJson run) = .ok run' ∧ RunEqv same run' run

/-- The object of the run read back equals the run's object. -/
def ObjectReturns (run : Run N) : Prop :=
  ∃ run', runFromJson (runToJson run) = .ok run' ∧ Eqv same (runToJson run') (runToJson run)

def CaseReturns (case : Case N) : Prop :=
  ∃ case', caseFromJson (caseToJson case) = .ok case' ∧ CaseEqv same case' case

def CaseObjectReturns (case : Case N) : Prop :=
  ∃ case', caseFromJson (caseToJson case) = .ok case' ∧ Eqv same (caseToJson case') (caseToJson case)

end

/-- No free field has the name of an attribute. -/
def FreeNames (case : Case N) : Prop := ∀ k ∈ case.extra.keys, k ∉ caseKeys

/-- A free `samples` is a list and a free `result` is not `None`. -/
def FreeValues (case : Case N) : Prop :=
  (∀ value, case.extra.get (py "samples") = some value → ∃ items, value = .array items) ∧
    case.extra.get (py "result") ≠ some .null

lemma freeValues_of_freeNames {case : Case N} (h : FreeNames case) : FreeValues case := by
  have hkeys : py "samples" ∈ caseKeys ∧ py "result" ∈ caseKeys := by decide
  have hnone : ∀ k ∈ caseKeys, case.extra.get k = none := fun k hk => Dict.get_eq_none.mpr (fun hmem => h k hmem hk)
  constructor
  · rw [hnone _ hkeys.1]
    exact fun value hvalue => nomatch hvalue
  · rw [hnone _ hkeys.2]
    exact fun hvalue => nomatch hvalue

variable {same : Json N → Json N → Prop}

lemma rel_refl (value : Option (Json N)) : Option.Rel (Eqv same) value value := by
  cases value with
  | none => exact .none
  | some value => exact .some (.refl value)

lemma dictEqv_refl (d : Dict PyStr (Json N)) : DictEqv same d d := fun k => rel_refl (d.get k)

lemma forall₂_refl (values : List (Json N)) : List.Forall₂ (Eqv same) values values :=
  List.forall₂_same.mpr (fun value _ => .refl value)

lemma caseEqv_refl (case : Case N) : CaseEqv same case case :=
  ⟨.refl _, .refl _, forall₂_refl _, .refl _, dictEqv_refl _⟩

lemma eqv_object {xs ys : List (PyStr × Json N)} (h : Eqv same (.object xs) (.object ys)) :
    DictEqv same xs ys := by
  cases h with
  | refl => exact dictEqv_refl xs
  | scalar hx _ _ => cases hx
  | object h => exact h

lemma eqv_array {xs : List (Json N)} {value : Json N} (h : Eqv same (.array xs) value) :
    ∃ ys, value = .array ys ∧ List.Forall₂ (Eqv same) xs ys := by
  cases h with
  | refl => exact ⟨xs, rfl, forall₂_refl xs⟩
  | scalar hx _ _ => cases hx
  | array h => exact ⟨_, rfl, h⟩

lemma rel_none {value : Option (Json N)} (h : Option.Rel (Eqv same) none value) : value = none := by
  cases h
  rfl

lemma rel_some {x : Json N} {value : Option (Json N)} (h : Option.Rel (Eqv same) (some x) value) :
    ∃ y, value = some y ∧ Eqv same x y := by
  cases h with
  | some h => exact ⟨_, rfl, h⟩

/-! ### What a case's object holds -/

section

variable {case : Case N}

/-- The object a case is written as. -/
def caseObject (case : Case N) : Dict PyStr (Json N) := (ownFields case).update case.extra

lemma caseToJson_object (case : Case N) : caseToJson case = .object (caseObject case) := caseToJson_eq case

lemma get_caseObject (hnodup : case.extra.keys.Nodup) (k : PyStr) :
    (caseObject case).get k = (case.extra.get k).or ((ownFields case).get k) := Dict.get_update hnodup k

lemma get_ownFields_of_not_mem {k : PyStr} (hk : k ∉ caseKeys) : (ownFields case).get k = none :=
  Dict.get_eq_none.mpr (fun hmem => hk (keys_ownFields case hmem))

lemma get_filter {d : Dict PyStr (Json N)} (p : PyStr → Bool) (k : PyStr) :
    Dict.get (d.filter (fun item => p item.1)) k = if p k then d.get k else none := by
  induction d with
  | nil => simp [Dict.get]
  | cons item d ih =>
    rcases item with ⟨k', value⟩
    by_cases hk : k' = k
    · by_cases hp : p k
      · simp [Dict.get, hk, hp]
      · simp [hk, hp, ih]
    · by_cases hp : p k'
      · simp [Dict.get, hk, hp, ih]
      · simp [Dict.get, hk, hp, ih]

lemma get_ownFields_result : (ownFields case).get (py "result") =
    if isNone case.result then none else some case.result := by
  have hresult : py "name" ≠ py "result" ∧ py "unit" ≠ py "result" ∧ py "samples" ≠ py "result" := by decide
  unfold ownFields
  cases isNone case.result <;> simp [Dict.get, hresult]

lemma keys_caseObject_nodup : (caseObject case).keys.Nodup := by
  have hkeys : ([py "name", py "unit", py "samples"] : List PyStr).Nodup ∧
      [py "name", py "unit", py "samples", py "result"].Nodup := by decide
  refine Dict.keys_update_nodup ?_ case.extra
  unfold ownFields
  cases isNone case.result with
  | true => exact hkeys.1
  | false => exact hkeys.2

/-- What a case read back holds, when it can be read at all. -/
structure ReadBack (case case' : Case N) : Prop where
  name : (caseObject case).get (py "name") = some case'.name
  unit : (caseObject case).get (py "unit") = some case'.unit
  samples : ∃ value, (caseObject case).get (py "samples") = some value ∧ iter value = .ok case'.samples
  result : case'.result = ((caseObject case).get (py "result")).getD .null
  extra : ∀ k, case'.extra.get k = if k ∈ caseKeys then none else (caseObject case).get k
  nodup : case'.extra.keys.Nodup

lemma caseFromJson_eq_ok {case' : Case N} (h : caseFromJson (caseToJson case) = .ok case') : ReadBack case case' := by
  rw [caseToJson_object, caseFromJson] at h
  obtain ⟨data, hdata, h⟩ := bind_eq_ok.mp h
  obtain rfl := Except.ok.inj hdata
  obtain ⟨name, hname, h⟩ := bind_eq_ok.mp h
  obtain ⟨unit, hunit, h⟩ := bind_eq_ok.mp h
  obtain ⟨value, hvalue, h⟩ := bind_eq_ok.mp h
  obtain ⟨samples, hsamples, h⟩ := bind_eq_ok.mp h
  obtain rfl := Except.ok.inj h
  have hget : ∀ {key value}, getItem (caseObject case) key = .ok value → (caseObject case).get key = some value := by
    intro key value hitem
    unfold getItem at hitem
    split at hitem
    · next hfound => rw [hfound, Except.ok.inj hitem]
    · cases hitem
  refine ⟨hget hname, hget hunit, ⟨value, hget hvalue, hsamples⟩, rfl, fun k => ?_, ?_⟩
  · refine (get_filter (fun key => !caseKeys.contains key) k).trans ?_
    by_cases hk : k ∈ caseKeys <;> simp [hk]
  · exact keys_caseObject_nodup.sublist (List.filter_sublist.map Prod.fst)

lemma get_caseObject_samples (hnodup : case.extra.keys.Nodup) (h : FreeValues case) :
    ∃ items, (caseObject case).get (py "samples") = some (.array items) := by
  rw [get_caseObject hnodup, (get_ownFields case).2.2.1]
  cases hextra : case.extra.get (py "samples") with
  | none => exact ⟨_, rfl⟩
  | some value =>
    obtain ⟨items, rfl⟩ := h.1 value hextra
    exact ⟨items, rfl⟩

lemma get_caseObject_result (hnodup : case.extra.keys.Nodup) :
    (caseObject case).get (py "result") ≠ some .null ↔ case.extra.get (py "result") ≠ some .null := by
  rw [get_caseObject hnodup, get_ownFields_result]
  cases hextra : case.extra.get (py "result") with
  | some value => simp
  | none =>
    by_cases hnone : isNone case.result
    · simp [hnone]
    · have hresult : case.result ≠ .null := fun hnull => hnone (isNone_iff.mpr hnull)
      simp [hnone, hresult]

lemma caseFromJson_returns (hnodup : case.extra.keys.Nodup) (h : FreeValues case) :
    ∃ case', caseFromJson (caseToJson case) = .ok case' := by
  obtain ⟨hname, hunit, -, -⟩ := get_ownFields case
  have hown : ∀ {key value}, (ownFields case).get key = some value →
      ∃ value, (caseObject case).get key = some value := by
    intro key value hkey
    rw [get_caseObject hnodup, hkey]
    cases case.extra.get key with
    | none => exact ⟨_, rfl⟩
    | some value => exact ⟨_, rfl⟩
  obtain ⟨name, hname⟩ := hown hname
  obtain ⟨unit, hunit⟩ := hown hunit
  obtain ⟨items, hitems⟩ := get_caseObject_samples hnodup h
  rw [caseToJson_object, caseFromJson]
  refine ⟨⟨name, unit, items, ((caseObject case).get (py "result")).getD .null,
    (caseObject case).filter (fun item => !caseKeys.contains item.1)⟩, bind_eq_ok.mpr ⟨caseObject case, rfl, ?_⟩⟩
  refine bind_eq_ok.mpr ⟨name, getItem_of_get hname, ?_⟩
  refine bind_eq_ok.mpr ⟨unit, getItem_of_get hunit, ?_⟩
  refine bind_eq_ok.mpr ⟨_, getItem_of_get hitems, ?_⟩
  exact bind_eq_ok.mpr ⟨items, rfl, rfl⟩

/-! ### One case -/

lemma caseReturns_iff (hnodup : case.extra.keys.Nodup) : CaseReturns same case ↔ FreeNames case := by
  constructor
  · rintro ⟨case', hread, heqv⟩ k hk hkey
    have hnone := (caseFromJson_eq_ok hread).extra k
    rw [if_pos hkey] at hnone
    have hrel := heqv.extra k
    rw [hnone] at hrel
    exact Dict.get_eq_none.mp (rel_none hrel) hk
  · intro h
    exact ⟨case, caseFromJson_caseToJson hnodup h, caseEqv_refl case⟩

lemma get_caseObject_readBack {case' : Case N} (hread : ReadBack case case') (k : PyStr) :
    (caseObject case').get k =
      if k = py "samples" then some (.array case'.samples)
      else if k = py "result" then if isNone case'.result then none else some case'.result
      else (caseObject case).get k := by
  obtain ⟨hname, hunit, hsamples, -⟩ := get_ownFields case'
  have hmem : k ∈ caseKeys ↔ k = py "name" ∨ k = py "unit" ∨ k = py "samples" ∨ k = py "result" := by
    simp [caseKeys]
  have hnames : py "name" ≠ py "samples" ∧ py "name" ≠ py "result" ∧ py "unit" ≠ py "samples" ∧
      py "unit" ≠ py "result" ∧ py "result" ≠ py "samples" := by decide
  obtain ⟨hnames, hnamer, hunits, hunitr, hresults⟩ := hnames
  rw [get_caseObject hread.nodup, hread.extra k]
  by_cases hk : k ∈ caseKeys
  · rw [if_pos hk, Option.none_or]
    rcases hmem.mp hk with rfl | rfl | rfl | rfl
    · rw [if_neg hnames, if_neg hnamer, hname, hread.name]
    · rw [if_neg hunits, if_neg hunitr, hunit, hread.unit]
    · rw [if_pos rfl, hsamples]
    · rw [if_neg hresults, if_pos rfl, get_ownFields_result]
  · have hother : k ≠ py "samples" ∧ k ≠ py "result" := by
      constructor <;> rintro rfl <;> exact hk (hmem.mpr (by simp))
    rw [if_neg hk, get_ownFields_of_not_mem hk, Option.or_none, if_neg hother.1, if_neg hother.2]

/-- With free values that are what the attributes hold, the case read back has the same object. -/
lemma get_caseObject_same {case' : Case N} (hnodup : case.extra.keys.Nodup) (h : FreeValues case)
    (hread : ReadBack case case') (k : PyStr) : (caseObject case').get k = (caseObject case).get k := by
  rw [get_caseObject_readBack hread]
  by_cases hsamples : k = py "samples"
  · obtain ⟨items, hitems⟩ := get_caseObject_samples hnodup h
    obtain ⟨value, hvalue, hiter⟩ := hread.samples
    obtain rfl := Option.some.inj (hitems.symm.trans hvalue)
    rw [if_pos hsamples, hsamples, hitems, Except.ok.inj hiter]
  · rw [if_neg hsamples]
    by_cases hresult : k = py "result"
    · have hnull := (get_caseObject_result hnodup).mpr h.2
      rw [if_pos hresult, hresult, hread.result]
      cases hvalue : (caseObject case).get (py "result") with
      | none => rfl
      | some value =>
        have hsome : ¬isNone value = true := fun hnone => hnull (by rw [hvalue, isNone_iff.mp hnone])
        rw [Option.getD_some, if_neg hsome]
    · rw [if_neg hresult]

lemma caseObjectReturns_iff (hnodup : case.extra.keys.Nodup) : CaseObjectReturns same case ↔ FreeValues case := by
  constructor
  · rintro ⟨case', hok, heqv⟩
    have hread := caseFromJson_eq_ok hok
    have hget := get_caseObject_readBack hread
    rw [caseToJson_object, caseToJson_object] at heqv
    have hrel := eqv_object heqv
    constructor
    · intro value hvalue
      have hsamples := hrel (py "samples")
      rw [hget, if_pos rfl, get_caseObject hnodup, hvalue, Option.some_or] at hsamples
      obtain ⟨y, hy, hxy⟩ := rel_some hsamples
      obtain ⟨ys, rfl, -⟩ := eqv_array hxy
      exact ⟨ys, Option.some.inj hy⟩
    · refine (get_caseObject_result hnodup).mp (fun hnull => ?_)
      have hresults : py "result" ≠ py "samples" := by decide
      have hresult := hrel (py "result")
      have hnone : case'.result = .null := by rw [hread.result, hnull, Option.getD_some]
      rw [hget, if_neg hresults, if_pos rfl, if_pos (isNone_iff.mpr hnone), hnull] at hresult
      cases rel_none hresult
  · intro h
    obtain ⟨case', hok⟩ := caseFromJson_returns hnodup h
    refine ⟨case', hok, ?_⟩
    rw [caseToJson_object, caseToJson_object]
    refine .object (fun k => ?_)
    rw [get_caseObject_same hnodup h (caseFromJson_eq_ok hok)]
    exact rel_refl _

end

/-! ### A run -/

lemma runReturns_iff {run : Run N} : RunReturns same run ↔ ∀ case ∈ run.cases, CaseReturns same case := by
  refine Iff.trans ?_ exists_forall₂
  constructor
  · rintro ⟨run', hok, heqv⟩
    exact ⟨run'.cases, forall₂_and.mpr ⟨(runFromJson_eq_ok.mp hok).2, heqv.cases.flip⟩⟩
  · rintro ⟨cases, h⟩
    obtain ⟨hok, heqv⟩ := forall₂_and.mp h
    exact ⟨⟨run.metadata, cases⟩, runFromJson_eq_ok.mpr ⟨rfl, hok⟩, dictEqv_refl _, heqv.flip⟩

lemma objectReturns_iff {run : Run N} : ObjectReturns same run ↔ ∀ case ∈ run.cases, CaseObjectReturns same case := by
  have hkey : py "meta" ≠ py "cases" := by decide
  refine Iff.trans ?_ exists_forall₂
  constructor
  · rintro ⟨run', hok, heqv⟩
    obtain ⟨hmetadata, hcases⟩ := runFromJson_eq_ok.mp hok
    have hrel := eqv_object heqv (py "cases")
    simp only [Dict.get, hkey, ↓reduceIte] at hrel
    obtain ⟨value, hvalue, hvalues⟩ := rel_some hrel
    obtain ⟨ys, rfl, hrel⟩ := eqv_array hvalues
    rw [← Json.array.inj (Option.some.inj hvalue), List.forall₂_map_left_iff, List.forall₂_map_right_iff] at hrel
    exact ⟨run'.cases, forall₂_and.mpr ⟨hcases, hrel.flip⟩⟩
  · rintro ⟨cases, h⟩
    obtain ⟨hok, heqv⟩ := forall₂_and.mp h
    refine ⟨⟨run.metadata, cases⟩, runFromJson_eq_ok.mpr ⟨rfl, hok⟩, .object (fun k => ?_)⟩
    have hcases : Eqv same (.array (cases.map caseToJson)) (.array (run.cases.map caseToJson)) := by
      refine .array ?_
      rw [List.forall₂_map_left_iff, List.forall₂_map_right_iff]
      exact heqv.flip
    simp only [Dict.get]
    split
    · exact rel_refl _
    · split
      · exact .some hcases
      · exact .none

/-- A run comes back through its object exactly when no free field has the name of an attribute, and the object
through its run exactly when free `samples` are lists and no free `result` is `None`. -/
theorem runToJson_runFromJson_iff {run : Run N} (hnodup : ∀ case ∈ run.cases, case.extra.keys.Nodup) :
    (RunReturns same run ↔ ∀ case ∈ run.cases, FreeNames case) ∧
      (ObjectReturns same run ↔ ∀ case ∈ run.cases, FreeValues case) ∧
      (RunReturns same run ∧ ObjectReturns same run ↔ ∀ case ∈ run.cases, FreeNames case) := by
  have hrun : RunReturns same run ↔ ∀ case ∈ run.cases, FreeNames case :=
    runReturns_iff.trans (forall₂_congr (fun case hcase => caseReturns_iff (hnodup case hcase)))
  have hobject : ObjectReturns same run ↔ ∀ case ∈ run.cases, FreeValues case :=
    objectReturns_iff.trans (forall₂_congr (fun case hcase => caseObjectReturns_iff (hnodup case hcase)))
  refine ⟨hrun, hobject, ?_⟩
  rw [hrun, hobject, and_iff_left_iff_imp]
  exact fun h case hcase => freeValues_of_freeNames (h case hcase)

theorem runToJson_runFromJson_family : RunReturns Eq (⟨[], [⟨.string (py "sort"), .string (py "s"),
    [.number 3, .number 5], .null, [(py "family", .string (py "list"))]⟩]⟩ : Run ℤ) ∧
    ObjectReturns Eq (⟨[], [⟨.string (py "sort"), .string (py "s"), [.number 3, .number 5], .null,
      [(py "family", .string (py "list"))]⟩]⟩ : Run ℤ) := by
  refine (runToJson_runFromJson_iff ?_).2.2.mpr ?_
  · exact List.forall_mem_singleton.mpr (List.nodup_singleton _)
  · refine List.forall_mem_singleton.mpr ?_
    have hfamily : py "family" ∉ caseKeys := by decide
    exact List.forall_mem_singleton.mpr hfamily

/-- A free field named `name` takes the place of the case's name, and is no free field of the case read back. -/
theorem runToJson_runFromJson_name : ¬RunReturns Eq (⟨[], [⟨.string (py "sort"), .string (py "s"),
    [.number 3, .number 5], .null, [(py "name", .string (py "list"))]⟩]⟩ : Run ℤ) ∧
    runFromJson (runToJson (⟨[], [⟨.string (py "sort"), .string (py "s"), [.number 3, .number 5], .null,
      [(py "name", .string (py "list"))]⟩]⟩ : Run ℤ)) =
      .ok ⟨[], [⟨.string (py "list"), .string (py "s"), [.number 3, .number 5], .null, []⟩]⟩ := by
  refine ⟨fun h => ?_, rfl⟩
  have hcase := runReturns_iff.mp h _ (List.mem_singleton_self _)
  have hname : py "name" ∈ caseKeys := by decide
  refine (caseReturns_iff ?_).mp hcase _ ?_ hname
  · exact List.nodup_singleton (py "name")
  · exact List.mem_singleton_self (py "name")

end SciForge.Bench.Schema
