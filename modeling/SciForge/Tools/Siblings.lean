import SciForge.Tools.DepsList
import Mathlib.Logic.Function.Basic

/-!
# The checkout of the dependencies

The loop of the checkout action, in a workspace that earlier runs may have left as it is, and the installs of the
CMake job.
-/

namespace SciForge.Tools.Deps

open Json

/-! ### The action -/

/-- A command of the loop. A clone is shallow; the header goes with its requests and is not kept. -/
inductive Command
  | remove (path : List Char)
  | clone (header branch : Option (List Char)) (url path : List Char)

/-- The header for a token, with what `base64` prints. -/
def tokenHeader (base64 : List Char → List Char) (token : List Char) : Option (List Char) :=
  if token = [] then none
  else some ("AUTHORIZATION: basic ".toList ++ base64 ("x-access-token:".toList ++ token))

def cloneUrl (repo : List Char) : List Char := "https://github.com/".toList ++ repo ++ ".git".toList

/-- `--branch`, for a ref that is not empty. -/
def cloneBranch (ref : List Char) : Option (List Char) := if ref = [] then none else some ref

/-- One turn of the loop. -/
def commands (header : Option (List Char)) (obj : List Char) : List Command :=
  let repo := (field "repo".toList obj).getD []
  let path := (field "path".toList obj).getD []
  let ref := (field "ref".toList obj).getD []
  [.remove path, .clone header (cloneBranch ref) (cloneUrl repo) path]

variable {C : Type}

/-- The entries of the workspace's directory by their names, and what is in them. -/
abbrev Workspace (C : Type) := List Char → Option C

/-- What a clone of a url at a branch brings, when it succeeds. -/
abbrev Remote (C : Type) := Option (List Char) → Option (List Char) → List Char → Option C

/-- The workspace after a command that succeeds. git does not clone into a directory that is there. -/
def Command.run (remote : Remote C) (w : Workspace C) : Command → Option (Workspace C)
  | .remove path => some (Function.update w path none)
  | .clone header branch url path =>
    if (w path).isSome then none
    else (remote header branch url).map fun tree => Function.update w path (some tree)

/-- The commands up to the first that fails (`set -e`), and whether none did. -/
def runAll (remote : Remote C) : Workspace C → List Command → Workspace C × Bool
  | w, [] => (w, true)
  | w, command :: rest =>
    match command.run remote w with
    | some w' => runAll remote w' rest
    | none => (w, false)

/-- The step of the action; it is skipped for `[]`. -/
def checkoutSiblings (remote : Remote C) (base64 : List Char → List Char) (token deps : List Char) (w : Workspace C) :
    Workspace C × Bool :=
  if deps = "[]".toList then (w, true)
  else runAll remote w ((objects deps).flatMap (commands (tokenHeader base64 token)))

/-! ### The CMake job -/

def isIfs (c : Char) : Bool := c = ' ' || c = '\t' || c = '\n'

/-- Word splitting. -/
def words (text : List Char) : List (List Char) := (text.splitOnP isIfs).filter (· ≠ [])

/-- `for dep in $DEPS`: the words of what the scripts print, after pathname expansion. -/
def installs (expand : List Char → List (List Char)) (deps : List Char) : List (List Char) :=
  (words (['\n'].intercalate ((objectLines deps).filterMap (field "path".toList)))).flatMap expand

/-! ### Dependencies -/

/-- A dependency; one without a ref has the empty one. -/
structure Dependency where
  repo : List Char
  path : List Char
  ref : List Char

variable {N : Type} {readNumber : List Char → Option N}

/-- The object of the list that stands for a dependency. -/
structure Describes (d : Dict PyStr (Json N)) (dep : Dependency) : Prop where
  repo : d.get (py "repo") = some (.string (dep.repo.map ord))
  path : d.get (py "path") = some (.string (dep.path.map ord))
  ref : d.get (py "ref") = some (.string (dep.ref.map ord)) ∨ d.get (py "ref") = none ∧ dep.ref = []

def Dependency.fetched (remote : Remote C) (header : Option (List Char)) (dep : Dependency) : Option C :=
  remote header (cloneBranch dep.ref) (cloneUrl dep.repo)

/-- The workspace after the dependencies in turn, up to the first that cannot be fetched. -/
def settle (remote : Remote C) (header : Option (List Char)) : Workspace C → List Dependency → Workspace C × Bool
  | w, [] => (w, true)
  | w, dep :: deps =>
    match dep.fetched remote header with
    | some tree => settle remote header (Function.update w dep.path (some tree)) deps
    | none => (Function.update w dep.path none, false)

lemma field_of_reads {line : List Char} {d : Dict PyStr (Json N)} (h : Reads line d) {key s : List Char}
    (hkey : Word key) (hd : d.get (key.map ord) = some (.string (s.map ord))) : field key line = some s := by
  have htext : TextAt key d := fun v hv => ⟨_, Option.some.inj (hv.symm.trans hd)⟩
  have hfield := h.field_eq key hkey htext
  rw [hd] at hfield
  exact Option.map_injective (List.map_injective_iff.mpr ord_injective) hfield

lemma field_none_of_reads {line : List Char} {d : Dict PyStr (Json N)} (h : Reads line d) {key : List Char}
    (hkey : Word key) (hd : d.get (key.map ord) = none) : field key line = none := by
  have htext : TextAt key d := fun v hv => absurd (hd.symm.trans hv) (by simp)
  have hfield := h.field_eq key hkey htext
  rw [hd] at hfield
  exact Option.map_eq_none_iff.mp hfield

lemma commands_of_reads {line : List Char} {d : Dict PyStr (Json N)} {dep : Dependency} (h : Reads line d)
    (hd : Describes d dep) (header : Option (List Char)) :
    commands header line = [.remove dep.path, .clone header (cloneBranch dep.ref) (cloneUrl dep.repo) dep.path] := by
  have hrepo : field "repo".toList line = some dep.repo := field_of_reads h rfl hd.repo
  have hpath : field "path".toList line = some dep.path := field_of_reads h rfl hd.path
  have href : (field "ref".toList line).getD [] = dep.ref := by
    rcases hd.ref with hsome | ⟨hnone, hempty⟩
    · have hfield : field "ref".toList line = some dep.ref := field_of_reads h rfl hsome
      rw [hfield]
      rfl
    · have hfield : field "ref".toList line = none := field_none_of_reads h rfl hnone
      rw [hfield, hempty]
      rfl
  unfold commands
  rw [hrepo, hpath, href]
  rfl

lemma runAll_dependency (remote : Remote C) (header : Option (List Char)) (dep : Dependency) (w : Workspace C)
    (rest : List Command) :
    runAll remote w (.remove dep.path :: .clone header (cloneBranch dep.ref) (cloneUrl dep.repo) dep.path :: rest) =
      match dep.fetched remote header with
      | some tree => runAll remote (Function.update w dep.path (some tree)) rest
      | none => (Function.update w dep.path none, false) := by
  have hgone : ¬(Function.update w dep.path none dep.path).isSome := by simp
  unfold Dependency.fetched
  rw [runAll, Command.run]
  dsimp only
  rw [runAll, Command.run, if_neg hgone]
  cases remote header (cloneBranch dep.ref) (cloneUrl dep.repo) with
  | none => rfl
  | some tree =>
    rw [Option.map_some, Function.update_idem]

lemma runAll_dependencies (remote : Remote C) (header : Option (List Char)) {lines : List (List Char)}
    {ds : List (Dict PyStr (Json N))} {deps : List Dependency} (hlines : List.Forall₂ Reads lines ds)
    (hdeps : List.Forall₂ Describes ds deps) (w : Workspace C) :
    runAll remote w (lines.flatMap (commands header)) = settle remote header w deps := by
  induction hlines generalizing deps w with
  | nil =>
    cases hdeps
    rfl
  | @cons line d lines ds hreads hlines ih =>
    cases hdeps with
    | @cons _ dep _ deps hdep hdeps =>
      rw [List.flatMap_cons, commands_of_reads hreads hdep, List.cons_append, List.cons_append, List.nil_append,
        runAll_dependency, settle]
      cases dep.fetched remote header with
      | none => rfl
      | some tree => exact ih hdeps _

/-! ### What the step leaves -/

section

variable {remote : Remote C} {header : Option (List Char)}

lemma settle_ok (w : Workspace C) (deps : List Dependency) :
    (settle remote header w deps).2 = true ↔ ∀ dep ∈ deps, ∃ tree, dep.fetched remote header = some tree := by
  induction deps generalizing w with
  | nil => exact iff_of_true rfl (fun _ h => nomatch h)
  | cons dep deps ih =>
    rw [settle, List.forall_mem_cons]
    cases hfetched : dep.fetched remote header with
    | none => exact iff_of_false Bool.false_ne_true (fun h => by simp at h)
    | some tree =>
      rw [ih]
      exact (and_iff_right ⟨tree, rfl⟩).symm

lemma settle_other (w : Workspace C) {deps : List Dependency} {path : List Char} (h : path ∉ deps.map Dependency.path) :
    (settle remote header w deps).1 path = w path := by
  induction deps generalizing w with
  | nil => rfl
  | cons dep deps ih =>
    rw [List.map_cons, List.mem_cons, not_or] at h
    rw [settle]
    cases dep.fetched remote header with
    | none => exact Function.update_of_ne h.1 _ _
    | some tree =>
      refine (ih _ h.2).trans ?_
      exact Function.update_of_ne h.1 _ _

lemma settle_fetched {w : Workspace C} {deps : List Dependency} (hpaths : (deps.map Dependency.path).Nodup)
    (hok : (settle remote header w deps).2 = true) {dep : Dependency} (hdep : dep ∈ deps) :
    (settle remote header w deps).1 dep.path = dep.fetched remote header := by
  induction deps generalizing w with
  | nil => cases hdep
  | cons first deps ih =>
    obtain ⟨hnew, hpaths⟩ := List.nodup_cons.mp hpaths
    rw [settle] at hok ⊢
    cases hfetched : first.fetched remote header with
    | none =>
      rw [hfetched] at hok
      cases hok
    | some tree =>
      rw [hfetched] at hok
      rcases List.mem_cons.mp hdep with rfl | hdep
      · rw [hfetched]
        exact (settle_other _ hnew).trans (Function.update_self _ _ _)
      · exact ih hpaths hok hdep

/-- A run that stops leaves nothing at the path it stopped at, and what it had fetched before. -/
lemma settle_stopped {w : Workspace C} {deps : List Dependency} (hpaths : (deps.map Dependency.path).Nodup)
    {before after : List Dependency} {dep : Dependency} (hsplit : deps = before ++ dep :: after)
    (hbefore : ∀ d ∈ before, ∃ tree, d.fetched remote header = some tree) (hdep : dep.fetched remote header = none) :
    (settle remote header w deps).1 dep.path = none ∧
      (∀ d ∈ before, (settle remote header w deps).1 d.path = d.fetched remote header) ∧
        ∀ d ∈ after, (settle remote header w deps).1 d.path = w d.path := by
  subst hsplit
  induction before generalizing w with
  | nil =>
    rw [List.nil_append, settle, hdep]
    obtain ⟨hnew, -⟩ := List.nodup_cons.mp hpaths
    refine ⟨Function.update_self _ _ _, ?_, ?_⟩
    · exact fun d h => nomatch h
    · intro d hd
      refine Function.update_of_ne (fun h => ?_) _ _
      exact hnew (h ▸ List.mem_map_of_mem hd)
  | cons first before ih =>
    obtain ⟨hnew, hrest⟩ := List.nodup_cons.mp hpaths
    obtain ⟨tree, htree⟩ := hbefore first List.mem_cons_self
    obtain ⟨hstop, hfetched, hkept⟩ := ih (w := Function.update w first.path (some tree))
      (fun d hd => hbefore d (List.mem_cons_of_mem _ hd)) hrest
    rw [List.cons_append, settle, htree]
    refine ⟨hstop, fun d hd => ?_, fun d hd => ?_⟩
    · rcases List.mem_cons.mp hd with rfl | hd
      · rw [htree]
        exact (settle_other _ hnew).trans (Function.update_self _ _ _)
      · exact hfetched d hd
    · refine (hkept d hd).trans (Function.update_of_ne ?_ _ _)
      intro h
      exact hnew (h ▸ List.mem_map_of_mem (List.mem_append_right _ (List.mem_cons_of_mem _ hd)))

end

/-! ### What the CMake job installs -/

/-- The name of an entry: one word that is no option and that pathname expansion leaves, without a slash. -/
structure PlainPath (path : List Char) : Prop where
  nonempty : path ≠ []
  dot : path ≠ ['.'] ∧ path ≠ ['.', '.']
  option : path.head? ≠ some '-'
  name : '/' ∉ path
  word : ∀ c ∈ path, isIfs c = false ∧ c ∉ ['*', '?', '[', '\\']

lemma words_lines {lines : List (List Char)} (h : ∀ line ∈ lines, line ≠ [] ∧ ∀ c ∈ line, isIfs c = false) :
    words (['\n'].intercalate lines) = lines := by
  induction lines with
  | nil => rfl
  | cons line lines ih =>
    obtain ⟨hne, hline⟩ := h line List.mem_cons_self
    have hlines := ih (fun line hmem => h line (List.mem_cons_of_mem _ hmem))
    have hkeep : ∀ rest : List (List Char), (line :: rest).filter (· ≠ []) = line :: rest.filter (· ≠ []) :=
      fun rest => List.filter_cons_of_pos (decide_eq_true hne)
    cases lines with
    | nil =>
      rw [words, List.intercalate_singleton, List.splitOnP_eq_singleton hline, hkeep]
      rfl
    | cons line' lines =>
      have hjoin : ['\n'].intercalate (line :: line' :: lines) = line ++ '\n' :: ['\n'].intercalate (line' :: lines) := rfl
      rw [words, hjoin, List.splitOnP_append_cons_of_forall_mem hline '\n' rfl, hkeep]
      exact congrArg (line :: ·) hlines

lemma installs_of_reads {deps : List Char} {ds : List (Dict PyStr (Json N))} {dependencies : List Dependency}
    (hlines : List.Forall₂ Reads (objectLines deps) ds) (hdeps : List.Forall₂ Describes ds dependencies)
    (hpaths : ∀ dep ∈ dependencies, PlainPath dep.path) {expand : List Char → List (List Char)}
    (hexpand : ∀ word, (∀ c ∈ word, c ∉ ['*', '?', '[', '\\']) → expand word = [word]) :
    installs expand deps = dependencies.map Dependency.path := by
  have hfields : (objectLines deps).filterMap (field "path".toList) = dependencies.map Dependency.path := by
    generalize objectLines deps = lines at hlines
    clear hpaths
    induction hlines generalizing dependencies with
    | nil =>
      cases hdeps
      rfl
    | @cons line d lines ds hreads hlines ih =>
      cases hdeps with
      | @cons _ dep _ deps hdep hdeps =>
        have hpath : field "path".toList line = some dep.path := field_of_reads hreads rfl hdep.path
        rw [List.filterMap_cons_some hpath, ih hdeps, List.map_cons]
  have hplain : ∀ line ∈ dependencies.map Dependency.path, PlainPath line := by
    intro line hmem
    obtain ⟨dep, hdep, rfl⟩ := List.mem_map.mp hmem
    exact hpaths dep hdep
  have hall : ∀ line ∈ dependencies.map Dependency.path, expand line = [line] := fun line hmem =>
    hexpand line (fun c hc => ((hplain line hmem).word c hc).2)
  unfold installs
  rw [hfields, words_lines (fun line hmem => ⟨(hplain line hmem).nonempty, fun c hc => ((hplain line hmem).word c hc).1⟩),
    List.flatMap_congr hall, List.flatMap_singleton']

/-! ### The step on a list that json reads -/

/-- What the step comes to, from a workspace in any state. -/
structure CheckedOut (remote : Remote C) (header : Option (List Char)) (deps : List Dependency) (w : Workspace C)
    (result : Workspace C × Bool) : Prop where
  ok : result.2 = true ↔ ∀ dep ∈ deps, ∃ tree, dep.fetched remote header = some tree
  fetched : result.2 = true → ∀ dep ∈ deps, result.1 dep.path = dep.fetched remote header
  stopped : ∀ before dep after, deps = before ++ dep :: after →
    (∀ d ∈ before, ∃ tree, d.fetched remote header = some tree) → dep.fetched remote header = none →
      result.1 dep.path = none ∧ (∀ d ∈ before, result.1 d.path = d.fetched remote header) ∧
        ∀ d ∈ after, result.1 d.path = w d.path
  other : ∀ path ∉ deps.map Dependency.path, result.1 path = w path

lemma settle_checkedOut (remote : Remote C) (header : Option (List Char)) {deps : List Dependency}
    (hpaths : (deps.map Dependency.path).Nodup) (w : Workspace C) :
    CheckedOut remote header deps w (settle remote header w deps) where
  ok := settle_ok w deps
  fetched hok _ hdep := settle_fetched hpaths hok hdep
  stopped _ _ _ hsplit hbefore hdep := settle_stopped hpaths hsplit hbefore hdep
  other _ h := settle_other w h

lemma settle_again (remote : Remote C) (header : Option (List Char)) {deps : List Dependency}
    (hpaths : (deps.map Dependency.path).Nodup) {w : Workspace C} (hok : (settle remote header w deps).2 = true) :
    settle remote header (settle remote header w deps).1 deps = settle remote header w deps := by
  have hagain : (settle remote header (settle remote header w deps).1 deps).2 = true :=
    (settle_ok _ deps).mpr ((settle_ok w deps).mp hok)
  refine Prod.ext (funext fun path => ?_) (hagain.trans hok.symm)
  by_cases hmem : path ∈ deps.map Dependency.path
  · obtain ⟨dep, hdep, rfl⟩ := List.mem_map.mp hmem
    rw [settle_fetched hpaths hagain hdep, settle_fetched hpaths hok hdep]
  · exact settle_other _ hmem

/-- On a list that json reads as these dependencies, the step checks them out whatever is in the workspace, the same
way when it is run again, and the CMake job installs them in their order. -/
theorem checkoutSiblings_exact {t : List Char} {ds : List (Dict PyStr (Json N))} {deps : List Dependency}
    (h : Listed readNumber t ds) (hdeps : List.Forall₂ Describes ds deps) (hpaths : (deps.map Dependency.path).Nodup)
    (hplain : ∀ dep ∈ deps, PlainPath dep.path) (remote : Remote C) (base64 : List Char → List Char) (token : List Char)
    {expand : List Char → List (List Char)}
    (hexpand : ∀ word, (∀ c ∈ word, c ∉ ['*', '?', '[', '\\']) → expand word = [word]) (w : Workspace C) :
    CheckedOut remote (tokenHeader base64 token) deps w (checkoutSiblings remote base64 token t w) ∧
      ((checkoutSiblings remote base64 token t w).2 = true →
        checkoutSiblings remote base64 token t (checkoutSiblings remote base64 token t w).1 =
          checkoutSiblings remote base64 token t w) ∧
      installs expand t = deps.map Dependency.path := by
  obtain ⟨hobjects, hlines⟩ := h.reads
  have hlist : t ≠ "[]".toList := by
    rintro rfl
    exact h.nonempty (List.length_eq_zero_iff.mp h.braces.symm)
  have hsettle : ∀ w, checkoutSiblings remote base64 token t w = settle remote (tokenHeader base64 token) w deps :=
    fun w => (if_neg hlist).trans (runAll_dependencies remote _ hobjects hdeps w)
  refine ⟨?_, fun hok => ?_, installs_of_reads hlines hdeps hplain hexpand⟩
  · rw [hsettle]
    exact settle_checkedOut remote _ hpaths w
  · rw [hsettle] at hok ⊢
    rw [hsettle]
    exact settle_again remote _ hpaths hok

/-! ### A list of one dependency -/

def oneObject : List Char := "\x7b\"path\": \"b\", \"repo\":\"a/b\"\x7d".toList

lemma scanString_plain {w : List Char} (hw : w.all (fun c => c ≠ '\x22' && c ≠ '\\' && !(c.toNat < 0x20)) = true)
    (r : List Char) : scanString (w ++ '\x22' :: r) = some (w.map ord, r) := by
  induction w with
  | nil => rw [List.nil_append, scanString, if_pos rfl, List.map_nil]
  | cons c w ih =>
    rw [List.all_cons, Bool.and_eq_true, Bool.and_eq_true, Bool.and_eq_true] at hw
    obtain ⟨⟨⟨hquote, hback⟩, hcontrol⟩, hw⟩ := hw
    rw [List.cons_append, scanString_other (of_decide_eq_true hquote) (of_decide_eq_true hback),
      if_neg (by simpa using hcontrol), ih hw]
    rfl

lemma oneObject_parses (r : List Char) : Parses some (oneObject ++ r)
    (.value (.object [(py "path", .string (py "b")), (py "repo", .string (py "a/b"))])) r := by
  have hstring : ∀ s r, s.all (fun c => c ≠ '\x22' && c ≠ '\\' && !(c.toNat < 0x20)) = true →
      Parses some ('\x22' :: (s ++ '\x22' :: r)) (.value (.string (s.map ord))) r := by
    intro s r hs
    refine .atom ?_
    rw [matchAtom_quote, scanString_plain hs]
    rfl
  have hpath := scanString_plain (w := "path".toList) rfl (':' :: ' ' :: ("\"b\", \"repo\":\"a/b\"\x7d".toList ++ r))
  have hrepo := scanString_plain (w := "repo".toList) rfl (':' :: ("\"a/b\"\x7d".toList ++ r))
  have hmembers : Parses some (skipWs ('\x22' :: ("path".toList ++ '\x22' :: ':' :: ' ' ::
      ("\"b\", \"repo\":\"a/b\"\x7d".toList ++ r))))
      (.members [(py "path", .string (py "b")), (py "repo", .string (py "a/b"))]) r := by
    refine .nextMember hpath rfl (hstring "b".toList _ rfl) rfl ?_
    exact .lastMember hrepo rfl (hstring "a/b".toList _ rfl) rfl
  exact Parses.object hmembers

def oneList : List Char := '[' :: (oneObject ++ [']'])

lemma oneList_listed :
    Listed some oneList [[(py "path", .string (py "b")), (py "repo", .string (py "a/b"))]] where
  load := by
    refine loads_iff.mpr ⟨[], ?_, rfl⟩
    exact .array (.lastElement (oneObject_parses [']']) rfl)
  nonempty := List.cons_ne_nil _ _
  plain := by decide
  line := by decide
  tight := by
    unfold Tight
    decide
  braces := by decide

/-- A remote that has one repository. -/
def serves : Remote ℕ := fun _ _ url => if url = cloneUrl "a/b".toList then some 7 else none

/-- An older clone in the way. -/
theorem checkoutSiblings_stale :
    (checkoutSiblings serves id [] oneList (fun _ => some 3)).1 "b".toList = some 7 ∧
      installs (fun word => [word]) oneList = ["b".toList] := by
  have hdeps : List.Forall₂ Describes
      ([[(py "path", .string (py "b")), (py "repo", .string (py "a/b"))]] : List (Dict PyStr (Json (List Char))))
      [⟨"a/b".toList, "b".toList, []⟩] :=
    .cons ⟨rfl, rfl, .inr ⟨rfl, rfl⟩⟩ .nil
  have hplain : PlainPath "b".toList := ⟨List.cons_ne_nil _ _, by decide, by decide, by decide, fun c hc => by
    rw [List.mem_singleton.mp hc]
    exact ⟨rfl, by decide⟩⟩
  obtain ⟨hchecked, -, hinstalls⟩ := checkoutSiblings_exact oneList_listed hdeps (List.nodup_singleton _)
    (fun dep hdep => by rwa [List.mem_singleton.mp hdep]) serves id [] (fun word _ => rfl) (fun _ => some 3)
  have hok := hchecked.ok.mpr (fun dep hdep => ⟨7, by rw [List.mem_singleton.mp hdep]; rfl⟩)
  exact ⟨hchecked.fetched hok _ List.mem_cons_self, hinstalls⟩

end SciForge.Tools.Deps
