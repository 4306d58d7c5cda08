import SciForge.Bench.Schema
import SciForge.Corpus.Schema
import SciForge.Python.JsonDump

/-!
# Corpus reports in files

`write_report` and `load_report`. An instance that is read from a file is the dict of its fields: the file may hold any
JSON there.
-/

namespace SciForge.Corpus

open Json
open Bench.Schema (getItem iter)

variable {N : Type} {readNumber : List Char → Option N} {writeNumber : N → List Char}

/-! ### Writing -/

section

variable (int : ℤ → N)

def text (s : String) : Json N := .string (py s)

def spanToJson (span : Span) : Json N := .array (span.map (fun n => .number (int n)))

/-- The entries of a match dict or of an exception. -/
def dictToJson (d : ObsDict) : List (PyStr × Json N) :=
  d.span.toList.map (fun span => (py "span", spanToJson int span)) ++
    d.groups.toList.map (fun groups => (py "groups", .array (groups.map (spanToJson int)))) ++
    d.exception.toList.map (fun name => (py "exception", text name))

mutual

def observableToJson : Observable → Json N
  | .noMatch => .null
  | .str s => text s
  | .dict d => .object (dictToJson int d)
  | .list items => .array (observablesToJson items)

def observablesToJson : List Observable → List (Json N)
  | [] => []
  | item :: items => observableToJson item :: observablesToJson items

end

/-- `vars(manifest)`. -/
def manifestVars (m : Manifest) : Dict PyStr (Json N) :=
  [(py "origin", text m.origin), (py "sha256", text m.sha256), (py "license", text m.license),
    (py "attribution", text m.attribution), (py "retrieved", text m.retrieved), (py "semantics", text m.semantics),
    (py "type", text m.type), (py "api", text m.api), (py "oracle", text m.oracle), (py "notes", text m.notes)]

/-- `vars(result)`. -/
def resultVars (r : CaseResult PyStr) : Dict PyStr (Json N) :=
  [(py "status", text r.status), (py "pattern", .string r.pattern),
    (py "real_result", observableToJson int r.realResult), (py "oracle_result", observableToJson int r.oracleResult),
    (py "note", text r.note)]

def reportToJson (report : CorpusReport PyStr) : Json N :=
  .object [(py "corpus", text report.corpus), (py "mode", text report.mode),
    (py "manifest", .object (manifestVars report.manifest)),
    (py "counts", .object (report.counts.map (fun item => (py item.1, .number (int item.2))))),
    (py "results", .array (report.results.map (fun r => .object (resultVars int r))))]

def writeReport (writeNumber : N → List Char) (report : CorpusReport PyStr) : List Char :=
  dump writeNumber (reportToJson int report)

end

/-! ### Reading -/

/-- The fields of a dataclass, with their defaults. -/
abbrev Fields (N : Type) := List (PyStr × Option (Json N))

/-- `cls(**kwargs)`. -/
def construct (fields : Fields N) : Json N → Except String (Dict PyStr (Json N))
  | .object kwargs =>
    if (Dict.keys kwargs).all (fun name => fields.any (fun field => field.1 = name)) then
      fields.mapM (fun field =>
        match (Dict.get kwargs field.1).or field.2 with
        | some value => .ok (field.1, value)
        | none => .error "TypeError")
    else .error "TypeError"
  | _ => .error "TypeError"

def manifestFields : Fields N :=
  [(py "origin", none), (py "sha256", none), (py "license", none), (py "attribution", none), (py "retrieved", none),
    (py "semantics", none), (py "type", none), (py "api", none), (py "oracle", none), (py "notes", some (text ""))]

def resultFields : Fields N :=
  [(py "status", none), (py "pattern", none), (py "real_result", some .null), (py "oracle_result", some .null),
    (py "note", some (text ""))]

/-- A report as it is read. -/
structure LoadedReport (N : Type) where
  corpus : Json N
  manifest : Dict PyStr (Json N)
  results : List (Dict PyStr (Json N))
  mode : Json N

def reportFromJson : Json N → Except String (LoadedReport N)
  | .object obj => do
    let corpus ← getItem obj (py "corpus")
    let mode := (Dict.get obj (py "mode")).getD (text "static")
    let manifest ← getItem obj (py "manifest")
    let manifest ← construct manifestFields manifest
    let results ← iter ((Dict.get obj (py "results")).getD (.array []))
    let results ← results.mapM (construct resultFields)
    .ok { corpus, manifest, results, mode }
  | _ => .error "TypeError"

def loadReport (readNumber : List Char → Option N) (t : List Char) : Except String (LoadedReport N) :=
  match loads readNumber t with
  | some obj => reportFromJson obj
  | none => .error "JSONDecodeError"

/-- The report as it would be read from its own fields. -/
def CorpusReport.loaded (int : ℤ → N) (report : CorpusReport PyStr) : LoadedReport N where
  corpus := text report.corpus
  manifest := manifestVars report.manifest
  results := report.results.map (resultVars int)
  mode := text report.mode

/-- The report with the surrogate pairs of its patterns joined. -/
def CorpusReport.joined (report : CorpusReport PyStr) : CorpusReport PyStr :=
  { report with results := report.results.map (fun r => { r with pattern := joinedString r.pattern }) }

/-! ### Texts and observables -/

lemma unpaired_py (s : String) : UnpairedString (py s) := by
  have hscalar : ∀ c : Char, isHighSurrogate (ord c).val = false := by
    intro c
    have hv := c.valid
    simp only [UInt32.isValidChar, Nat.isValidChar] at hv
    simp only [isHighSurrogate, Bool.and_eq_false_iff, decide_eq_false_iff_not]
    change ¬0xD800 ≤ c.val.toNat ∨ ¬c.val.toNat ≤ 0xDBFF
    omega
  have hany : ∀ t : List Char, UnpairedString (t.map ord) := by
    intro t
    induction t with
    | nil => exact .nil
    | cons c t ih =>
      refine List.IsChain.cons ih fun d hd => ?_
      rintro ⟨hhigh, -⟩
      rw [hscalar] at hhigh
      cases hhigh
  exact hany s.toList

lemma joinedString_py (s : String) : joinedString (py s) = py s := (joinedString_eq_iff _).mpr (unpaired_py s)

lemma joined_text (s : String) : Json.joined (text s : Json N) = text s := congrArg Json.string (joinedString_py s)

lemma joined_spanToJson (int : ℤ → N) (span : Span) : Json.joined (spanToJson int span) = spanToJson int span := by
  rw [spanToJson, Json.joined, joinedElements_eq_map, List.map_map]
  rfl

lemma joined_dict {items : Dict PyStr (Json N)} (hnodup : items.keys.Nodup) (hjoined : joinedMembers items = items) :
    Json.joined (.object items) = .object items := by
  rw [Json.joined, hjoined, Dict.update_of_disjoint hnodup (fun _ _ => List.not_mem_nil), List.nil_append]

lemma joined_dictToJson (int : ℤ → N) (d : ObsDict) :
    Json.joined (.object (dictToJson int d)) = .object (dictToJson int d) := by
  have hgroups : ∀ groups : List Span, joinedElements (groups.map (spanToJson int)) = groups.map (spanToJson int) := by
    intro groups
    rw [joinedElements_eq_map, List.map_map]
    exact List.map_congr_left fun span _ => joined_spanToJson int span
  refine joined_dict ?_ ?_
  · have hall : [py "span", py "groups", py "exception"].Nodup := by decide
    refine hall.sublist ?_
    rcases d with ⟨_ | span, _ | groups, _ | name⟩ <;> simp [dictToJson, Dict.keys]
  · rcases d with ⟨_ | span, _ | groups, _ | name⟩ <;>
      simp [dictToJson, joinedMembers, joinedString_py, hgroups, joined_spanToJson, joined_text, Json.joined]

mutual

lemma joined_observableToJson (int : ℤ → N) :
    (o : Observable) → Json.joined (observableToJson int o) = observableToJson int o
  | .noMatch => rfl
  | .str s => joined_text s
  | .dict d => joined_dictToJson int d
  | .list items => congrArg Json.array (joined_observablesToJson int items)

lemma joined_observablesToJson (int : ℤ → N) :
    (items : List Observable) → joinedElements (observablesToJson int items) = observablesToJson int items
  | [] => rfl
  | item :: items => by
    rw [observablesToJson, joinedElements, joined_observableToJson int item, joined_observablesToJson int items]

end

/-! ### Instances -/

lemma construct_vars {fields : Fields N} {items : Dict PyStr (Json N)} (hkeys : items.keys = fields.map Prod.fst)
    (hnodup : items.keys.Nodup) : construct fields (.object items) = .ok items := by
  have hknown : items.keys.all (fun name => fields.any (fun field => field.1 = name)) = true := by
    rw [List.all_eq_true]
    intro name hname
    rw [hkeys] at hname
    obtain ⟨field, hfield, rfl⟩ := List.mem_map.mp hname
    exact List.any_eq_true.mpr ⟨field, hfield, decide_eq_true rfl⟩
  have hitems : ∀ item ∈ items, items.get item.1 = some item.2 := fun _ => Dict.get_of_mem hnodup
  refine (if_pos hknown).trans (mapM_eq_ok.mpr ?_)
  clear hknown hnodup
  generalize items.get = get at hitems
  induction fields generalizing items with
  | nil =>
    obtain rfl := List.map_eq_nil_iff.mp hkeys
    exact .nil
  | cons field fields ih =>
    cases items with
    | nil => cases hkeys
    | cons item items =>
      obtain ⟨hname, hrest⟩ := List.cons.inj hkeys
      refine .cons ?_ (ih hrest fun item hitem => hitems item (List.mem_cons_of_mem _ hitem))
      rw [← hname, hitems item List.mem_cons_self]
      rfl

lemma construct_manifestVars (m : Manifest) :
    construct manifestFields (.object (manifestVars m) : Json N) = .ok (manifestVars m) := by
  refine construct_vars rfl ?_
  change [py "origin", py "sha256", py "license", py "attribution", py "retrieved", py "semantics", py "type", py "api",
    py "oracle", py "notes"].Nodup
  decide

lemma nodup_resultVars (int : ℤ → N) (r : CaseResult PyStr) : (Dict.keys (resultVars int r)).Nodup := by
  change [py "status", py "pattern", py "real_result", py "oracle_result", py "note"].Nodup
  decide

lemma construct_resultVars (int : ℤ → N) (r : CaseResult PyStr) :
    construct resultFields (.object (resultVars int r)) = .ok (resultVars int r) :=
  construct_vars rfl (nodup_resultVars int r)

lemma joined_manifestVars (m : Manifest) :
    Json.joined (.object (manifestVars m) : Json N) = .object (manifestVars m) := by
  refine joined_dict ?_ ?_
  · change [py "origin", py "sha256", py "license", py "attribution", py "retrieved", py "semantics", py "type",
      py "api", py "oracle", py "notes"].Nodup
    decide
  · simp only [manifestVars, joinedMembers, joinedString_py, joined_text]

lemma joined_resultVars (int : ℤ → N) (r : CaseResult PyStr) :
    Json.joined (.object (resultVars int r)) = .object (resultVars int { r with pattern := joinedString r.pattern }) := by
  have hmembers : joinedMembers (resultVars int r) = resultVars int { r with pattern := joinedString r.pattern } := by
    simp only [resultVars, joinedMembers, joinedString_py, joined_text, joined_observableToJson, Json.joined]
  rw [Json.joined, hmembers, Dict.update_of_disjoint (nodup_resultVars int _) (fun _ _ => List.not_mem_nil),
    List.nil_append]

lemma joined_reportToJson (int : ℤ → N) (report : CorpusReport PyStr) : ∃ counts,
    Json.joined (reportToJson int report) = .object [(py "corpus", text report.corpus), (py "mode", text report.mode),
      (py "manifest", .object (manifestVars report.manifest)), (py "counts", counts),
      (py "results", .array (report.joined.results.map (fun r => .object (resultVars int r))))] := by
  have hresults : joinedElements (report.results.map (fun r => Json.object (resultVars int r))) =
      report.joined.results.map (fun r => .object (resultVars int r)) := by
    rw [joinedElements_eq_map, List.map_map, CorpusReport.joined, List.map_map]
    exact List.map_congr_left fun r _ => joined_resultVars int r
  let counts : Json N := .object (report.counts.map (fun item => (py item.1, .number (int item.2))))
  have harray : Json.joined (.array (report.results.map (fun r => .object (resultVars int r)))) =
      .array (report.joined.results.map (fun r => .object (resultVars int r))) := congrArg Json.array hresults
  refine ⟨Json.joined counts, ?_⟩
  rw [reportToJson, Json.joined]
  simp only [joinedMembers, joinedString_py, joined_text, joined_manifestVars, harray]
  rw [Dict.update_of_disjoint _ (fun _ _ => List.not_mem_nil), List.nil_append]
  change [py "corpus", py "mode", py "manifest", py "counts", py "results"].Nodup
  decide

/-! ### Round trip -/

lemma loaded_joined_iff (int : ℤ → N) (report : CorpusReport PyStr) :
    report.joined.loaded int = report.loaded int ↔ ∀ r ∈ report.results, UnpairedString r.pattern := by
  have hresult : ∀ r : CaseResult PyStr,
      resultVars int { r with pattern := joinedString r.pattern } = resultVars int r ↔ UnpairedString r.pattern := by
    intro r
    rw [← joinedString_eq_iff]
    simp [resultVars]
  have hresults : report.joined.results.map (resultVars int) = report.results.map (resultVars int) ↔
      ∀ r ∈ report.results, UnpairedString r.pattern := by
    rw [CorpusReport.joined, List.map_map, List.map_inj_left]
    exact forall₂_congr fun r _ => hresult r
  rw [← hresults, CorpusReport.loaded, CorpusReport.loaded, LoadedReport.mk.injEq]
  exact ⟨fun h => h.2.2.1, fun h => ⟨rfl, rfl, h, rfl⟩⟩

/-- `write_report` writes ASCII, and `load_report` reads the report back with the surrogate pairs of its patterns joined:
it is the report that was written exactly when no pattern has a high surrogate directly before a low one. The counts in
the file play no part, whatever they are. -/
theorem loadReport_writeReport (hprints : Prints readNumber writeNumber) (int : ℤ → N) (report : CorpusReport PyStr) :
    Ascii (writeReport int writeNumber report) ∧
      loadReport readNumber (writeReport int writeNumber report) = .ok (report.joined.loaded int) ∧
      (loadReport readNumber (writeReport int writeNumber report) = .ok (report.loaded int) ↔
        ∀ r ∈ report.results, UnpairedString r.pattern) ∧
      ∀ (items : Dict PyStr (Json N)) (counts : Json N),
        reportFromJson (.object (items.set (py "counts") counts)) = reportFromJson (.object items) := by
  have hread : ∀ (report : CorpusReport PyStr) (counts : Json N),
      reportFromJson (.object [(py "corpus", text report.corpus), (py "mode", text report.mode),
        (py "manifest", .object (manifestVars report.manifest)), (py "counts", counts),
        (py "results", .array (report.results.map (fun r => .object (resultVars int r))))]) =
      .ok (report.loaded int) := by
    intro report counts
    refine bind_eq_ok.mpr ⟨text report.corpus, rfl, ?_⟩
    refine bind_eq_ok.mpr ⟨.object (manifestVars report.manifest), rfl, ?_⟩
    refine bind_eq_ok.mpr ⟨manifestVars report.manifest, construct_manifestVars _, ?_⟩
    refine bind_eq_ok.mpr ⟨report.results.map (fun r => .object (resultVars int r)), rfl, ?_⟩
    refine bind_eq_ok.mpr ⟨report.results.map (resultVars int), ?_, rfl⟩
    rw [mapM_eq_ok, List.forall₂_map_left_iff, List.forall₂_map_right_iff, List.forall₂_same]
    exact fun r _ => construct_resultVars int r
  have hload : loadReport readNumber (writeReport int writeNumber report) = .ok (report.joined.loaded int) := by
    obtain ⟨counts, hjoined⟩ := joined_reportToJson int report
    unfold loadReport writeReport
    rw [loads_dump hprints, hjoined]
    exact hread report.joined counts
  refine ⟨ascii_dumpValue hprints 0 _, hload, ?_, ?_⟩
  · rw [hload, Except.ok.injEq]
    exact loaded_joined_iff int report
  · intro items counts
    have hnames : py "counts" ≠ py "corpus" ∧ py "counts" ≠ py "mode" ∧ py "counts" ≠ py "manifest" ∧
        py "counts" ≠ py "results" := by decide
    simp only [reportFromJson, getItem, Dict.get_set_of_ne _ hnames.1, Dict.get_set_of_ne _ hnames.2.1,
      Dict.get_set_of_ne _ hnames.2.2.1, Dict.get_set_of_ne _ hnames.2.2.2]

/-- One crash on a pattern that is a lone surrogate. -/
def crashReport : CorpusReport PyStr where
  corpus := "corpus"
  manifest := ⟨"url", "00", "MIT", "a", "2026-01-01", "posix", "text", "search", "python_re", ""⟩
  results := [⟨bug, [codePoint 0xDC00], exceptionDict "MemoryError", matchDict [0, 1] [[]], ""⟩]
  mode := "static"

theorem loadReport_writeReport_crash :
    loadReport readBit (writeReport (fun n => n == 1) writeBit crashReport) =
      .ok (crashReport.loaded (fun n => n == 1)) := by
  have hunpaired : ∀ r ∈ crashReport.results, UnpairedString r.pattern := by
    intro r hr
    rw [List.mem_singleton.mp hr]
    exact List.isChain_singleton _
  exact (loadReport_writeReport bits_print (fun n => n == 1) crashReport).2.2.1.mpr hunpaired

end SciForge.Corpus
