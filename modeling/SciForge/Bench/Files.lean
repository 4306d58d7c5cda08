import SciForge.Bench.Exchange
import SciForge.Bench.RoundTrip
import SciForge.Python.JsonDump

/-!
# Runs in files

`write_run` and `load_run`: a run as the text that `json.dump` writes, and the run that is read from it.
-/

namespace SciForge.Bench.Schema

open Json

variable {N : Type} {readNumber : List Char → Option N} {writeNumber : N → List Char}

def writeRun (writeNumber : N → List Char) (run : Run N) : List Char := dump writeNumber (runToJson run)

def loadRun (readNumber : List Char → Option N) (text : List Char) : Except String (Run N) :=
  match loads readNumber text with
  | some obj => runFromJson obj
  | none => .error "JSONDecodeError"

/-! ### What a file keeps -/

/-- The dicts of a case have distinct keys. -/
structure Case.Keyed (case : Case N) : Prop where
  name : Json.Keyed case.name
  unit : Json.Keyed case.unit
  samples : KeyedElements case.samples
  result : Json.Keyed case.result
  extra : Json.Keyed (.object case.extra)

structure Run.Keyed (run : Run N) : Prop where
  metadata : Json.Keyed (.object run.metadata)
  cases : ∀ case ∈ run.cases, case.Keyed

/-- No string of a case, and none of its keys, has a high surrogate directly before a low one. -/
structure Case.Unpaired (case : Case N) : Prop where
  name : Json.Unpaired case.name
  unit : Json.Unpaired case.unit
  samples : UnpairedElements case.samples
  result : Json.Unpaired case.result
  extra : UnpairedMembers case.extra

structure Run.Unpaired (run : Run N) : Prop where
  metadata : UnpairedMembers run.metadata
  cases : ∀ case ∈ run.cases, case.Unpaired

/-- The case with its surrogate pairs joined. -/
def Case.joined (case : Case N) : Case N where
  name := Json.joined case.name
  unit := Json.joined case.unit
  samples := joinedElements case.samples
  result := Json.joined case.result
  extra := Dict.update [] (joinedMembers case.extra)

def Run.joined (run : Run N) : Run N where
  metadata := Dict.update [] (joinedMembers run.metadata)
  cases := run.cases.map Case.joined

/-! ### Names -/

lemma joinedString_mem_caseKeys {key : PyStr} (h : joinedString key ∈ caseKeys) : key ∈ caseKeys := by
  have hascii : caseKeys.all (fun name => name.all (fun c => c.val < 0x10000)) = true := by decide
  rcases joinedString_eq_or key with hkey | ⟨c, hc, hlarge⟩
  · rwa [hkey] at h
  · have hlt := List.all_eq_true.mp (List.all_eq_true.mp hascii _ h) c hc
    exact absurd (of_decide_eq_true hlt) (Nat.not_lt.mpr hlarge)

lemma joined_freeNames {case : Case N} (h : FreeNames case) : FreeNames case.joined := by
  intro key hkey hcase
  have hmem : key ∈ Dict.keys (joinedMembers case.extra) := (Dict.mem_keys_of_update hkey).resolve_left List.not_mem_nil
  rw [Dict.keys, joinedMembers_eq_map, List.map_map] at hmem
  obtain ⟨item, hitem, rfl⟩ := List.mem_map.mp hmem
  exact h item.1 (List.mem_map_of_mem hitem) (joinedString_mem_caseKeys hcase)

/-! ### Objects -/

lemma joined_isNone (v : Json N) : isNone (Json.joined v) = isNone v := by
  cases v <;> simp only [Json.joined, isNone]

lemma joined_caseToJson {case : Case N} (hnames : FreeNames case) (hnodup : case.extra.keys.Nodup) :
    Json.joined (caseToJson case) = caseToJson case.joined := by
  have hown : joinedMembers (ownFields case) = ownFields case.joined := by
    have hkeys : joinedString (py "name") = py "name" ∧ joinedString (py "unit") = py "unit" ∧
        joinedString (py "samples") = py "samples" ∧ joinedString (py "result") = py "result" := by decide
    have hnone : isNone case.joined.result = isNone case.result := joined_isNone case.result
    unfold ownFields
    rw [hnone]
    cases isNone case.result with
    | true => simp [joinedMembers, hkeys, Case.joined, Json.joined]
    | false => simp [joinedMembers, hkeys, Case.joined, Json.joined]
  have hnodup' : case.joined.extra.keys.Nodup := Dict.keys_update_nodup (d := []) List.nodup_nil _
  have hdisjoint : ∀ k ∈ case.extra.keys, k ∉ (ownFields case).keys :=
    fun k hk hk' => hnames k hk (keys_ownFields case hk')
  have hdisjoint' : ∀ k ∈ case.joined.extra.keys, k ∉ (ownFields case.joined).keys :=
    fun k hk hk' => joined_freeNames hnames k hk (keys_ownFields case.joined hk')
  rw [caseToJson_eq, caseToJson_eq, Dict.update_of_disjoint hnodup hdisjoint, Json.joined]
  have happend : joinedMembers (ownFields case ++ case.extra) =
      ownFields case.joined ++ joinedMembers case.extra := by
    rw [joinedMembers_eq_map, List.map_append, ← joinedMembers_eq_map, ← joinedMembers_eq_map, hown]
  have hempty : (Dict.keys ([] : Dict PyStr (Json N))).Nodup := List.nodup_nil
  have hupdate := Dict.update_update (ownFields case.joined) hempty (joinedMembers case.extra)
  rw [Dict.update_nil] at hupdate
  rw [happend]
  refine congrArg Json.object (Eq.trans ?_ hupdate)
  have hsplit : Dict.update [] (ownFields case.joined ++ joinedMembers case.extra) =
      (Dict.update [] (ownFields case.joined)).update (joinedMembers case.extra) := List.foldl_append
  rw [hsplit, update_ownFields]

lemma joined_runToJson {run : Run N} (hnames : ∀ case ∈ run.cases, FreeNames case)
    (hnodup : ∀ case ∈ run.cases, case.extra.keys.Nodup) : Json.joined (runToJson run) = runToJson run.joined := by
  have hkeys : joinedString (py "meta") = py "meta" ∧ joinedString (py "cases") = py "cases" := by decide
  have hne : py "meta" ≠ py "cases" := by decide
  have hcases : joinedElements (run.cases.map caseToJson) = run.joined.cases.map caseToJson := by
    rw [joinedElements_eq_map, List.map_map, Run.joined, List.map_map]
    exact List.map_congr_left fun case hcase => joined_caseToJson (hnames case hcase) (hnodup case hcase)
  unfold runToJson
  simp only [Json.joined, joinedMembers, hkeys.1, hkeys.2, hcases]
  rw [Dict.update_of_disjoint (by simpa [Dict.keys] using hne) (fun _ _ => List.not_mem_nil)]
  rfl

/-! ### Round trip -/

lemma joined_dict_iff {items : Dict PyStr (Json N)} (h : Json.Keyed (.object items)) :
    Dict.update [] (joinedMembers items) = items ↔ UnpairedMembers items := by
  have hobject := joined_eq_iff (.object items) h
  rwa [Json.joined, Json.object.injEq] at hobject

lemma Case.joined_eq_iff {case : Case N} (h : case.Keyed) : case.joined = case ↔ case.Unpaired := by
  have hname := Json.joined_eq_iff case.name h.name
  have hunit := Json.joined_eq_iff case.unit h.unit
  have hsamples := joinedElements_eq_iff case.samples h.samples
  have hresult := Json.joined_eq_iff case.result h.result
  have hextra := joined_dict_iff h.extra
  rcases case with ⟨name, unit, samples, result, extra⟩
  rw [Case.joined, Case.mk.injEq, hname, hunit, hsamples, hresult, hextra]
  exact ⟨fun ⟨h₁, h₂, h₃, h₄, h₅⟩ => ⟨h₁, h₂, h₃, h₄, h₅⟩, fun h => ⟨h.1, h.2, h.3, h.4, h.5⟩⟩

lemma Run.joined_eq_iff {run : Run N} (h : run.Keyed) : run.joined = run ↔ run.Unpaired := by
  have hmetadata := joined_dict_iff h.metadata
  have hcases : run.cases.map Case.joined = run.cases ↔ ∀ case ∈ run.cases, case.Unpaired := by
    have hid : run.cases.map id = run.cases := List.map_id _
    constructor
    · intro hmap case hcase
      exact (Case.joined_eq_iff (h.cases case hcase)).mp (List.map_inj_left.mp (hmap.trans hid.symm) case hcase)
    · intro hunpaired
      refine Eq.trans (List.map_congr_left fun case hcase => ?_) hid
      exact (Case.joined_eq_iff (h.cases case hcase)).mpr (hunpaired case hcase)
  rcases run with ⟨metadata, cases⟩
  rw [Run.joined, Run.mk.injEq, hmetadata, hcases]
  exact ⟨fun ⟨h₁, h₂⟩ => ⟨h₁, h₂⟩, fun h => ⟨h.1, h.2⟩⟩

/-- `write_run` writes ASCII whatever a run holds, and `load_run` reads the run back with its surrogate pairs joined: it is
the run that was written exactly when no string in it, a key included, has a high surrogate directly before a low one. -/
theorem loadRun_writeRun (hprints : Prints readNumber writeNumber) {run : Run N} (hkeyed : run.Keyed)
    (hnames : ∀ case ∈ run.cases, FreeNames case) :
    Ascii (writeRun writeNumber run) ∧ loadRun readNumber (writeRun writeNumber run) = .ok run.joined ∧
      (loadRun readNumber (writeRun writeNumber run) = .ok run ↔ run.Unpaired) := by
  have hnodup : ∀ case ∈ run.cases, case.extra.keys.Nodup := fun case hcase => (hkeyed.cases case hcase).extra.1
  have hload : loadRun readNumber (writeRun writeNumber run) = .ok run.joined := by
    unfold loadRun writeRun
    rw [loads_dump hprints, joined_runToJson hnames hnodup]
    refine runFromJson_runToJson ?_ ?_
    · intro case hcase
      obtain ⟨original, -, rfl⟩ := List.mem_map.mp hcase
      exact Dict.keys_update_nodup (d := []) List.nodup_nil _
    · intro case hcase
      obtain ⟨original, horiginal, rfl⟩ := List.mem_map.mp hcase
      exact joined_freeNames (hnames original horiginal)
  refine ⟨ascii_dumpValue hprints 0 _, hload, ?_⟩
  rw [hload, Except.ok.injEq]
  exact Run.joined_eq_iff hkeyed

/-- A case whose extra key is a smiley in two surrogates. -/
def pairedRun : Run Bool where
  metadata := []
  cases := [{
    name := .string (py "sort"), unit := .string (py "s"), samples := [.number true], result := .null,
    extra := [([codePoint 0xD83D, codePoint 0xDE00], .array [.number false])] }]

theorem loadRun_writeRun_paired :
    loadRun readBit (writeRun writeBit pairedRun) = .ok pairedRun.joined ∧
      loadRun readBit (writeRun writeBit pairedRun) ≠ .ok pairedRun := by
  have hkeyed : pairedRun.Keyed := by
    refine ⟨⟨List.nodup_nil, trivial⟩, fun case hcase => ?_⟩
    obtain rfl := List.mem_singleton.mp hcase
    exact ⟨trivial, trivial, ⟨trivial, trivial⟩, trivial, List.nodup_singleton _, ⟨trivial, trivial⟩, trivial⟩
  have hnames : ∀ case ∈ pairedRun.cases, FreeNames case := by
    intro case hcase key hkey
    obtain rfl := List.mem_singleton.mp hcase
    obtain rfl := List.mem_singleton.mp hkey
    decide
  obtain ⟨-, hload, hiff⟩ := loadRun_writeRun bits_print hkeyed hnames
  refine ⟨hload, fun h => ?_⟩
  have hextra := ((hiff.mp h).cases _ List.mem_cons_self).extra.1.1
  exact (List.isChain_cons_cons.mp hextra).1 ⟨by decide, by decide⟩

end SciForge.Bench.Schema
