import SciForge.Lib.Raising
import SciForge.Python.Json

/-!
# The benchmark exchange format

A run of cases and its plain-dict form. A Python value is what `json` reads and writes; a Python exception is the
name of its type.
-/

namespace SciForge.Bench.Schema

variable {N : Type}

/-- Case keys with a dedicated attribute. -/
def caseKeys : List PyStr := [py "name", py "unit", py "samples", py "result"]

/-- A measured case; its `result` is `null` when there is none. -/
structure Case (N : Type) where
  name : Json N
  unit : Json N
  samples : List (Json N)
  result : Json N
  extra : Dict PyStr (Json N)

structure Run (N : Type) where
  metadata : Dict PyStr (Json N)
  cases : List (Case N)

def isNone : Json N → Bool
  | .null => true
  | _ => false

def caseToJson (case : Case N) : Json N :=
  let obj : Dict PyStr (Json N) := [(py "name", case.name), (py "unit", case.unit), (py "samples", .array case.samples)]
  let obj := if isNone case.result then obj else obj.set (py "result") case.result
  .object (obj.update case.extra)

def runToJson (run : Run N) : Json N :=
  .object [(py "meta", .object run.metadata), (py "cases", .array (run.cases.map caseToJson))]

/-! ### Conversions -/

/-- The items of an iterable value. -/
def iter : Json N → Except String (List (Json N))
  | .array items => .ok items
  | .object items => .ok (items.map (fun item => .string item.1))
  | .string s => .ok (s.map (fun c => .string [c]))
  | _ => .error "TypeError"

/-- An element of the sequence that `dict` is called with. Only a `str` key is modelled. -/
def pairOf (element : Json N) : Except String (PyStr × Json N) := do
  match ← iter element with
  | [.string key, value] => .ok (key, value)
  | [_, _] => .error "TypeError"
  | _ => .error "ValueError"

def dictOf : Json N → Except String (Dict PyStr (Json N))
  | .object items => .ok items
  | value => do
    let elements ← iter value
    let items ← elements.mapM pairOf
    .ok (Dict.update [] items)

/-- `data[key]`. -/
def getItem (data : Dict PyStr (Json N)) (key : PyStr) : Except String (Json N) :=
  match data.get key with
  | some value => .ok value
  | none => .error "KeyError"

def caseFromJson (obj : Json N) : Except String (Case N) := do
  let data ← dictOf obj
  let extra := data.filter (fun item => !caseKeys.contains item.1)
  let name ← getItem data (py "name")
  let unit ← getItem data (py "unit")
  let samples ← getItem data (py "samples")
  let samples ← iter samples
  .ok { name, unit, samples, result := (data.get (py "result")).getD .null, extra }

def runFromJson : Json N → Except String (Run N)
  | .object obj => do
    let metadata ← dictOf ((Dict.get obj (py "meta")).getD (.object []))
    let cases ← iter ((Dict.get obj (py "cases")).getD (.array []))
    let cases ← cases.mapM caseFromJson
    .ok { metadata, cases }
  | _ => .error "AttributeError"

/-! ### Round trip -/

lemma isNone_iff {value : Json N} : isNone value = true ↔ value = .null := by
  cases value <;> simp [isNone]

/-- What `_case_to_json` sets before the extra fields. -/
def ownFields (case : Case N) : Dict PyStr (Json N) :=
  [(py "name", case.name), (py "unit", case.unit), (py "samples", .array case.samples)] ++
    if isNone case.result then [] else [(py "result", case.result)]

lemma keys_ownFields (case : Case N) {k : PyStr} (hk : k ∈ (ownFields case).keys) : k ∈ caseKeys := by
  unfold ownFields at hk
  cases hnone : isNone case.result with
  | true =>
    simp only [hnone, ↓reduceIte, List.append_nil, Dict.keys, List.map_cons, List.map_nil] at hk
    simp only [caseKeys, List.mem_cons] at hk ⊢
    tauto
  | false => simpa [hnone, Dict.keys, caseKeys] using hk

lemma caseToJson_eq (case : Case N) : caseToJson case = .object ((ownFields case).update case.extra) := by
  unfold caseToJson ownFields
  cases hnone : isNone case.result with
  | true => rfl
  | false =>
    have hkey : py "result" ∉
        Dict.keys [(py "name", case.name), (py "unit", case.unit), (py "samples", .array case.samples)] := by
      change py "result" ∉ [py "name", py "unit", py "samples"]
      decide
    simp only [Bool.false_eq_true, ↓reduceIte]
    rw [Dict.set_of_not_mem hkey]

lemma get_ownFields (case : Case N) :
    (ownFields case).get (py "name") = some case.name ∧ (ownFields case).get (py "unit") = some case.unit ∧
      (ownFields case).get (py "samples") = some (.array case.samples) ∧
      ((ownFields case).get (py "result")).getD .null = case.result := by
  have hunit : py "name" ≠ py "unit" := by decide
  have hsamples : py "name" ≠ py "samples" ∧ py "unit" ≠ py "samples" := by decide
  have hresult : py "name" ≠ py "result" ∧ py "unit" ≠ py "result" ∧ py "samples" ≠ py "result" := by decide
  unfold ownFields
  cases hnone : isNone case.result with
  | true => simp [Dict.get, hunit, hsamples, hresult, isNone_iff.mp hnone]
  | false => simp [Dict.get, hunit, hsamples, hresult]

lemma getItem_of_get {data : Dict PyStr (Json N)} {key : PyStr} {value : Json N} (h : data.get key = some value) :
    getItem data key = .ok value := by
  rw [getItem, h]

lemma get_append_of_not_mem {κ ν : Type} [DecidableEq κ] {d items : Dict κ ν} {k : κ} (hk : k ∉ items.keys) :
    Dict.get (d ++ items) k = d.get k := by
  induction d with
  | nil => exact Dict.get_eq_none.mpr hk
  | cons p d ih =>
    rw [List.cons_append, Dict.get, Dict.get, ih]

/-- A case whose extra fields leave the own keys alone is read back. -/
theorem caseFromJson_caseToJson {case : Case N} (hnodup : case.extra.keys.Nodup)
    (hextra : ∀ k ∈ case.extra.keys, k ∉ caseKeys) : caseFromJson (caseToJson case) = .ok case := by
  have hget : ∀ {k}, k ∈ caseKeys → Dict.get (ownFields case ++ case.extra) k = (ownFields case).get k :=
    fun hk => get_append_of_not_mem (fun h => hextra _ h hk)
  have hfilter : (ownFields case ++ case.extra).filter (fun item => !caseKeys.contains item.1) = case.extra := by
    rw [List.filter_append, List.filter_eq_nil_iff.mpr, List.nil_append, List.filter_eq_self]
    · intro item hitem
      simpa using hextra item.1 (List.mem_map_of_mem hitem)
    · intro item hitem
      simpa using keys_ownFields case (List.mem_map_of_mem hitem)
  obtain ⟨hname, hunit, hsamples, hresult⟩ := get_ownFields case
  have hkeys : py "name" ∈ caseKeys ∧ py "unit" ∈ caseKeys ∧ py "samples" ∈ caseKeys ∧ py "result" ∈ caseKeys := by
    decide
  rw [caseToJson_eq, Dict.update_of_disjoint hnodup (fun k hk hk' => hextra k hk (keys_ownFields case hk'))]
  rw [caseFromJson]
  refine bind_eq_ok.mpr ⟨ownFields case ++ case.extra, rfl, ?_⟩
  refine bind_eq_ok.mpr ⟨case.name, getItem_of_get ((hget hkeys.1).trans hname), ?_⟩
  refine bind_eq_ok.mpr ⟨case.unit, getItem_of_get ((hget hkeys.2.1).trans hunit), ?_⟩
  refine bind_eq_ok.mpr ⟨.array case.samples, getItem_of_get ((hget hkeys.2.2.1).trans hsamples), ?_⟩
  refine bind_eq_ok.mpr ⟨case.samples, rfl, ?_⟩
  rw [hfilter, hget hkeys.2.2.2, hresult]

lemma runFromJson_eq_ok {run run' : Run N} : runFromJson (runToJson run) = .ok run' ↔
    run'.metadata = run.metadata ∧
      List.Forall₂ (fun case case' => caseFromJson (caseToJson case) = .ok case') run.cases run'.cases := by
  have hkey : py "meta" ≠ py "cases" := by decide
  have hget : ∀ v v' : Json N, Dict.get [(py "meta", v), (py "cases", v')] (py "meta") = some v ∧
      Dict.get [(py "meta", v), (py "cases", v')] (py "cases") = some v' := by
    intro v v'
    simp [Dict.get, hkey]
  rw [runToJson, runFromJson, (hget _ _).1, (hget _ _).2]
  constructor
  · intro h
    obtain ⟨metadata, hmetadata, h⟩ := bind_eq_ok.mp h
    obtain ⟨objects, hobjects, h⟩ := bind_eq_ok.mp h
    obtain ⟨cases, hcases, h⟩ := bind_eq_ok.mp h
    obtain rfl := Except.ok.inj h
    obtain rfl := Except.ok.inj hmetadata
    obtain rfl := Except.ok.inj hobjects
    exact ⟨rfl, List.forall₂_map_left_iff.mp (mapM_eq_ok.mp hcases)⟩
  · rintro ⟨hmetadata, hcases⟩
    refine bind_eq_ok.mpr ⟨run.metadata, rfl, ?_⟩
    refine bind_eq_ok.mpr ⟨run.cases.map caseToJson, rfl, ?_⟩
    refine bind_eq_ok.mpr ⟨run'.cases, mapM_eq_ok.mpr (List.forall₂_map_left_iff.mpr hcases), ?_⟩
    rw [← hmetadata]

theorem runFromJson_runToJson {run : Run N} (hnodup : ∀ case ∈ run.cases, case.extra.keys.Nodup)
    (hextra : ∀ case ∈ run.cases, ∀ k ∈ case.extra.keys, k ∉ caseKeys) : runFromJson (runToJson run) = .ok run := by
  refine runFromJson_eq_ok.mpr ⟨rfl, List.forall₂_same.mpr ?_⟩
  exact fun case hcase => caseFromJson_caseToJson (hnodup case hcase) (hextra case hcase)

end SciForge.Bench.Schema
