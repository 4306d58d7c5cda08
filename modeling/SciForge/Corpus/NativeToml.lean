import SciForge.Corpus.FowlerLines
import SciForge.Corpus.RustOffsets
import SciForge.Lib.Flags

/-!
# The native format

`load_manifest` and `load_cases_toml`, over the values of a parsed TOML document, and what becomes of the flags of a
case that a loader gives.
-/

namespace SciForge.Corpus

/-! ### Loading -/

/-- What loading raises: a `SchemaError`, one constructor for each form of its message, or an exception of the
language. -/
inductive LoadError
  | notIn (what : String) (value : Option Toml) (allowed : List String)
  | required (field : String)
  | needsReason
  | needsLink
  | raised (name : String)

/-- `value in allowed`. -/
def Toml.isOneOf (value : Toml) (allowed : List String) : Bool :=
  match value with
  | .str s => allowed.any fun name => name.toList = s
  | _ => false

/-- The items of an iteration over the value. -/
def Toml.items : Toml → Except LoadError (List Toml)
  | .array items => .ok items
  | .str s => .ok (s.map fun char => .str [char])
  | .table entries => .ok ((Dict.keys entries).map fun key => .str key.toList)
  | .int _ | .bool _ => .error (.raised "TypeError")

structure NativeManifest where
  origin : Toml
  sha256 : Toml
  license : Toml
  attribution : Toml
  retrieved : Toml
  semantics : Toml
  type : Toml
  api : Toml
  oracle : Toml
  notes : Toml

def NativeManifest.validate (m : NativeManifest) : Except LoadError NativeManifest :=
  match [("semantics", m.semantics, semanticsNames), ("type", m.type, caseTypes),
      ("oracle", m.oracle, oracles), ("api", m.api, apis)].find? (fun (_, value, allowed) => !value.isOneOf allowed) with
  | some (name, value, allowed) => .error (.notIn ("manifest " ++ name) (some value) allowed)
  | none =>
    match [("origin", m.origin), ("sha256", m.sha256), ("license", m.license),
        ("attribution", m.attribution), ("retrieved", m.retrieved), ("api", m.api)].find?
        (fun (_, value) => !value.truthy) with
    | some (name, _) => .error (.required name)
    | none => .ok m

def loadManifest : Toml → Except LoadError NativeManifest
  | .table obj =>
    let field := fun name => (Dict.get obj name).getD (.str [])
    NativeManifest.validate ⟨field "origin", field "sha256", field "license", field "attribution", field "retrieved",
      field "semantics", field "type", field "api", field "oracle", field "notes"⟩
  | _ => .error (.raised "AttributeError")

structure NativeCase where
  pattern : Toml
  input : Option Toml
  expected : Option Toml
  flags : List Toml
  requires : Toml
  statusExpected : Option Toml

/-- The checks of an override. -/
def checkOverride (c : NativeCase) (override : Dict String Toml) : Except LoadError NativeCase :=
  let status := override.get "status"
  if (status.map fun status => status.isOneOf statuses) ≠ some true then
    .error (.notIn "status_expected.status" status statuses)
  else if truthyKey override "reason" = false then .error .needsReason
  else if (status.map fun status => status.isOneOf [intentionalDivergence]) = some true ∧
      truthyKey override "link" = false then .error .needsLink
  else .ok c

def NativeCase.validate (c : NativeCase) : Except LoadError NativeCase :=
  match c.flags.find? (fun name => !name.isOneOf flagNames) with
  | some name => .error (.notIn "case flag" (some name) flagNames)
  | none =>
    if c.requires.truthy = true ∧ c.requires.isOneOf excludedCapabilities = false then
      .error (.notIn "case requires" (some c.requires) excludedCapabilities)
    else
      match c.statusExpected with
      | none => .ok c
      | some (.table override) => checkOverride c override
      | some _ => .error (.raised "AttributeError")

/-- `entry[key]`. -/
def entryAt (entry : Dict String Toml) (key : String) : Except LoadError Toml :=
  match entry.get key with
  | some value => .ok value
  | none => .error (.raised "KeyError")

/-- The body of the loop over the entries. -/
def nativeCase : Toml → Except LoadError NativeCase
  | .table entry => do
    let pattern ← entryAt entry "pattern"
    let flags ← ((Dict.get entry "flags").getD (.array [])).items
    NativeCase.validate ⟨pattern, Dict.get entry "input", Dict.get entry "expected", flags,
      (Dict.get entry "requires").getD (.str []), Dict.get entry "status_expected"⟩
  | _ => .error (.raised "TypeError")

def loadCasesToml (doc : Dict String Toml) : Except LoadError (NativeManifest × List NativeCase) := do
  let manifest ← loadManifest ((doc.get "manifest").getD (.table []))
  let entries ← ((doc.get "case").getD (.array [])).items
  let cases ← entries.mapM nativeCase
  return (manifest, cases)

/-! ### What a loader lets through -/

lemma isOneOf_iff {value : Toml} {allowed : List String} :
    value.isOneOf allowed = true ↔ ∃ s ∈ allowed, value = .str s.toList := by
  cases value with
  | str s =>
    change (allowed.any fun name => decide (name.toList = s)) = true ↔ _
    rw [List.any_eq_true]
    refine exists_congr (fun t => and_congr_right (fun _ => ?_))
    rw [decide_eq_true_iff, Toml.str.injEq, eq_comm]
  | bool | int | array | table => exact iff_of_false Bool.false_ne_true (fun ⟨_, _, h⟩ => nomatch h)

lemma entryAt_eq_ok {entry : Dict String Toml} {key : String} {value : Toml} :
    entryAt entry key = .ok value ↔ entry.get key = some value := by
  unfold entryAt
  cases entry.get key with
  | none => simp
  | some found => simp

lemma checkOverride_self {c c' : NativeCase} {override : Dict String Toml} (h : checkOverride c override = .ok c') :
    c' = c := by
  unfold checkOverride at h
  dsimp only at h
  split at h
  · cases h
  split at h
  · cases h
  split at h
  · cases h
  · exact (Except.ok.inj h).symm

lemma nativeCase_validated {c c' : NativeCase} (h : c.validate = .ok c') :
    c' = c ∧ ∀ flag ∈ c.flags, flag.isOneOf flagNames = true := by
  unfold NativeCase.validate at h
  split at h
  · cases h
  · next hflags =>
    have hknown : ∀ flag ∈ c.flags, flag.isOneOf flagNames = true := by simpa using List.find?_eq_none.mp hflags
    refine ⟨?_, hknown⟩
    split at h
    · cases h
    split at h
    · exact (Except.ok.inj h).symm
    · exact checkOverride_self h
    · cases h

/-- The case of an entry: its fields as they stand, its flags all of the vocabulary. -/
structure FromEntry (entry : Toml) (c : NativeCase) (names : List String) : Prop where
  fields : ∃ table, entry = .table table ∧ Dict.get table "pattern" = some c.pattern ∧
    Dict.get table "input" = c.input ∧ Dict.get table "expected" = c.expected ∧
    ((Dict.get table "flags").getD (.array [])).items = .ok c.flags
  flags : c.flags = names.map fun name => .str name.toList
  known : ∀ name ∈ names, name ∈ flagNames

lemma nativeCase_fromEntry {entry : Toml} {c : NativeCase} (h : nativeCase entry = .ok c) :
    ∃ names, FromEntry entry c names := by
  cases entry with
  | table table =>
    unfold nativeCase at h
    obtain ⟨pattern, hpattern, h⟩ := bind_eq_ok.mp h
    obtain ⟨flags, hflags, h⟩ := bind_eq_ok.mp h
    obtain ⟨rfl, hknown⟩ := nativeCase_validated h
    have hnames : ∀ flag ∈ flags, ∃ name, name ∈ flagNames ∧ flag = .str name.toList :=
      fun flag hflag => isOneOf_iff.mp (hknown flag hflag)
    obtain ⟨names, hnames⟩ := exists_forall₂.mpr hnames
    refine ⟨names, ⟨table, rfl, entryAt_eq_ok.mp hpattern, rfl, rfl, hflags⟩, ?_, fun name hname => ?_⟩
    · rw [← List.forall₂_eq_eq_eq, List.forall₂_map_right_iff]
      exact hnames.imp (fun _ _ h => h.2)
    · obtain ⟨flag, -, hmem, -⟩ := forall₂_mem_right hnames hname
      exact hmem
  | bool | int | str | array => cases h

lemma validated_api {m manifest : NativeManifest} (h : m.validate = .ok manifest) :
    ∃ api ∈ apis, manifest.api = .str api.toList := by
  unfold NativeManifest.validate at h
  split at h
  · cases h
  · next hnone =>
    split at h
    · cases h
    · obtain rfl := Except.ok.inj h
      have hapi := List.find?_eq_none.mp hnone ("api", m.api, apis) (by simp)
      exact isOneOf_iff.mp (by simpa using hapi)

lemma loadManifest_api {obj : Toml} {manifest : NativeManifest} (h : loadManifest obj = .ok manifest) :
    ∃ api ∈ apis, manifest.api = .str api.toList := by
  cases obj with
  | table entries => exact validated_api h
  | bool | int | str | array => cases h

/-! ### What the engine compiles -/

section

variable {π ι ρ : Type}

/-- The module has the attribute of every flag. -/
def ReModule.Flags (module : ReModule π ι ρ) (bits : String → ℕ) : Prop :=
  ∀ name attr, (name, attr) ∈ flagAttr → module.attr attr = some (bits name)

/-- The module whose patterns are all compiled with one flag word. -/
def ReModule.withWord (module : ReModule π ι ρ) (word : ℕ) : ReModule π ι ρ :=
  { module with compile := fun pattern _ => module.compile pattern word }

/-- The flags of a case reach the engine: they raise nothing, the pattern is compiled with the word that has all of
them, and the word tells which they are. -/
structure Reaching (names : List String) : Prop where
  compiled : ∀ {π ι ρ : Type} (module : ReModule π ι ρ) (bits : String → ℕ), module.Flags bits →
    ∀ pattern text api, reLikeEngine module pattern text api names =
      reLikeEngine (module.withWord (flagWord bits 0 names)) pattern text api []
  told : ∀ bits : String → ℕ, OwnBits bits flagNames → ∀ others, (∀ name ∈ others, name ∈ flagNames) →
    flagWord bits 0 names = flagWord bits 0 others → ∀ name, name ∈ names ↔ name ∈ others

lemma flagAttr_known {name : String} (h : name ∈ flagNames) : ∃ attr, flagAttr.get name = some attr := by
  have hall : ∀ name ∈ flagNames, (flagAttr.get name).isSome := by decide
  exact Option.isSome_iff_exists.mp (hall name h)

lemma readFlags {module : ReModule π ι ρ} {bits : String → ℕ} (hbits : module.Flags bits) {names : List String}
    (hnames : ∀ name ∈ names, name ∈ flagNames) (start : ℕ) :
    names.foldlM (fun value name => do
      let attr ← subscript (flagAttr.get name)
      match module.attr attr with
      | some bits => .ok (value ||| bits)
      | none => .error "AttributeError") start = .ok (flagWord bits start names) := by
  induction names generalizing start with
  | nil => rfl
  | cons name names ih =>
    obtain ⟨attr, hattr⟩ := flagAttr_known (hnames name List.mem_cons_self)
    rw [List.foldlM_cons, subscript_eq_ok.mpr hattr, ok_bind, hbits name attr (Dict.mem_of_get hattr)]
    exact ih (fun other hother => hnames other (List.mem_cons_of_mem _ hother)) _

lemma reaching {names : List String} (hnames : ∀ name ∈ names, name ∈ flagNames) : Reaching names where
  compiled module bits hbits pattern text api := by
    unfold reLikeEngine
    exact congrArg (fun read => read >>= _) (readFlags hbits hnames 0)
  told bits hown others hothers hword := hown.same hnames hothers hword

end

/-! ### The loaders -/

lemma rustFlags_known (entry : Dict String Toml) : ∀ name ∈ rustFlags entry, name ∈ flagNames := by
  intro name hname
  unfold rustFlags at hname
  rcases List.mem_append.mp hname with hname | hname <;> split at hname
  · obtain rfl := List.mem_singleton.mp hname
    decide
  · cases hname
  · obtain rfl := List.mem_singleton.mp hname
    decide
  · cases hname

lemma rustEntry_flags {entry : Dict String Toml} {c : Case Toml PyStr} (h : rustEntry entry = .ok (some c)) :
    c.flags = rustFlags entry := by
  unfold rustEntry at h
  split at h
  · obtain ⟨found, -, h⟩ := bind_eq_ok.mp h
    obtain ⟨expected, -, h⟩ := bind_eq_ok.mp h
    split at h
    · cases h
    · obtain ⟨regex, -, h⟩ := bind_eq_ok.mp h
      obtain rfl := Option.some.inj (Except.ok.inj h)
      rfl
  · cases h

lemma loadCasesRustToml_flags {entries : List (Dict String Toml)} {cases : List (Case Toml PyStr)} {filtered : ℕ}
    (h : loadCasesRustToml entries = .ok (cases, filtered)) : ∀ c ∈ cases, ∀ name ∈ c.flags, name ∈ flagNames := by
  induction entries using List.reverseRecOn generalizing cases filtered with
  | nil =>
    obtain ⟨rfl, rfl⟩ := Prod.mk.inj (Except.ok.inj h)
    exact fun c hc => absurd hc List.not_mem_nil
  | append_singleton before entry ih =>
    obtain ⟨found, outcome, hbefore, hentry, hresult⟩ := loadCasesRustToml_snoc.mp h
    obtain ⟨rfl, rfl⟩ := Prod.mk.inj hresult
    intro c hc
    rcases List.mem_append.mp hc with hc | hc
    · exact ih hbefore c hc
    · rw [Option.mem_toList.mp hc] at hentry
      rw [rustEntry_flags hentry]
      exact rustFlags_known entry

lemma valid_flags {π ι : Type} {c : Case π ι} (h : c.validate = .ok c) : ∀ name ∈ c.flags, name ∈ flagNames := by
  unfold Case.validate at h
  split at h
  · cases h
  · next hnone => simpa using List.find?_eq_none.mp hnone

lemma loadCasesDat_flags {u : UnicodeTable} {lines : List PyStr} {cases : List (Case PyStr PyStr)} {filtered : ℕ}
    (h : loadCasesDat u lines = .ok (cases, filtered)) : ∀ c ∈ cases, ∀ name ∈ c.flags, name ∈ flagNames := by
  have hread : ∀ raw ∈ lines, ¬NullOutcome u raw := fun raw hraw hnull => loadCasesDatLoop_null hraw hnull [] 0 [] ⟨_, h⟩
  obtain ⟨entries, hentries, hload⟩ := loadCasesDatLoop_accounts hread [] 0 []
  obtain ⟨rfl, rfl⟩ := Prod.mk.inj (Except.ok.inj (h.symm.trans hload))
  intro c hc
  obtain ⟨entry, hentry, hc⟩ := List.mem_flatMap.mp hc
  obtain ⟨raw, -, hcontributes⟩ := forall₂_mem_right hentries hentry
  cases hcontributes with
  | nothing | filtered => cases hc
  | cases _ _ _ _ hcases =>
    obtain ⟨mode, -, hcase⟩ := forall₂_mem_right hcases hc
    exact valid_flags hcase.valid

/-- Whatever loader a case comes from, its flags reach the engine. -/
theorem loaders_reach (u : UnicodeTable) :
    (∀ doc manifest cases, loadCasesToml doc = .ok (manifest, cases) →
      (∃ api ∈ apis, manifest.api = .str api.toList) ∧
      ∃ entries, ((doc.get "case").getD (.array [])).items = .ok entries ∧
        List.Forall₂ (fun entry c => ∃ names, FromEntry entry c names ∧ Reaching names) entries cases) ∧
    (∀ entries cases filtered, loadCasesRustToml entries = .ok (cases, filtered) → ∀ c ∈ cases, Reaching c.flags) ∧
    ∀ lines cases filtered, loadCasesDat u lines = .ok (cases, filtered) → ∀ c ∈ cases, Reaching c.flags := by
  refine ⟨fun doc manifest cases h => ?_, fun entries cases filtered h c hc => ?_, fun lines cases filtered h c hc => ?_⟩
  · obtain ⟨found, hmanifest, h⟩ := bind_eq_ok.mp h
    obtain ⟨entries, hentries, h⟩ := bind_eq_ok.mp h
    obtain ⟨loaded, hloaded, h⟩ := bind_eq_ok.mp h
    obtain ⟨rfl, rfl⟩ := Prod.mk.inj (Except.ok.inj h)
    refine ⟨loadManifest_api hmanifest, entries, hentries, (mapM_eq_ok.mp hloaded).imp (fun entry c hc => ?_)⟩
    obtain ⟨names, hnames⟩ := nativeCase_fromEntry hc
    exact ⟨names, hnames, reaching hnames.known⟩
  · exact reaching (loadCasesRustToml_flags h c hc)
  · exact reaching (loadCasesDat_flags h c hc)

/-- One case, under two flags. -/
def flaggedDoc : Dict String Toml :=
  let text := fun value : String => Toml.str value.toList
  [("manifest", .table [("origin", text "tests"), ("sha256", text "00"), ("license", text "MIT"),
      ("attribution", text "none"), ("retrieved", text "2026-07-01"), ("semantics", text "leftmost-first"),
      ("type", text "text"), ("api", text "search"), ("oracle", text "python_re")]),
    ("case", .array [.table [("pattern", text "a.b"), ("flags", .array [text "icase", text "dotall"])]])]

theorem loaders_reach_flagged : ∃ manifest c names, loadCasesToml flaggedDoc = .ok (manifest, [c]) ∧
    names.map (fun name : String => Toml.str name.toList) = [.str "icase".toList, .str "dotall".toList] ∧
    Reaching names := by
  obtain ⟨manifest, c, hload, hflags⟩ : ∃ manifest c, loadCasesToml flaggedDoc = .ok (manifest, [c]) ∧
    c.flags = [.str "icase".toList, .str "dotall".toList] := ⟨_, _, rfl, rfl⟩
  obtain ⟨-, entries, -, hall⟩ := (loaders_reach ⟨fun _ => false, fun _ => none⟩).1 flaggedDoc manifest [c] hload
  cases hall with
  | cons hentry _ =>
    obtain ⟨names, hfrom, hreaching⟩ := hentry
    exact ⟨manifest, c, names, hload, hfrom.flags.symm.trans hflags, hreaching⟩

end SciForge.Corpus
