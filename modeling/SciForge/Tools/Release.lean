import SciForge.Lib.Git
import SciForge.Python.Dict

/-!
# The release script

`release.sh` with its repository and the remote. Each command of the script is one step; a signal runs the trap
between two commands, and others push to the remote until the script does.
-/

namespace SciForge.Tools.Release

/-- The settings in the environment. `files` is RELEASE_FILES: a name, or a directory ending in `/`. -/
structure Settings where
  notes : String
  files : List String
  workflows : List String
  precheck : List String
  advisory : List String
  skipPrecheck : Bool
  dry : Bool

/-- `"$start"*`. -/
def hasPrefix (path start : String) : Bool := start.toList.isPrefixOf path.toList

/-- `*/`. -/
def isDirectory (path : String) : Bool := path.toList.getLast? == some '/'

namespace Settings

/-- `$notes.tmp`. -/
def tmp (cfg : Settings) : String := cfg.notes ++ ".tmp"

/-- `[ -f "$notes" ]`: false of a path with a trailing slash. -/
def isFile {B C : Type} (cfg : Settings) (repo : Git.Repo String B C) : Bool :=
  (repo.work cfg.notes).isSome && !isDirectory cfg.notes

/-- What `allowed` compares a changed path with. -/
def covers (entry path : String) : Bool := if isDirectory entry then hasPrefix path entry else path == entry

/-- The bump may change the path. -/
def allowed (cfg : Settings) (path : String) : Bool := (cfg.notes :: cfg.files).any (covers · path)

/-- What git takes an entry for on its command line: the file, or everything under the directory. -/
def pathspec (entry path : String) : Bool :=
  path == entry || hasPrefix path (if isDirectory entry then entry else entry ++ "/")

/-- The paths of `git clean -- $files`: everything when there are no files. -/
def cleaned (cfg : Settings) (path : String) : Bool := cfg.files.isEmpty || cfg.files.any (pathspec · path)

/-- The paths of `git add -- "$notes" $files`. -/
def added (cfg : Settings) (path : String) : Bool := (cfg.notes :: cfg.files).any (pathspec · path)

end Settings

/-- The command the script is at. -/
inductive Pc
  | bumpNamed
  | notesThere
  | onMain
  | treeClean
  | workflows (rest : List String)
  | fetch
  | prechecks (rest : List String)
  | advisories (rest : List String)
  | version
  | unreleased
  | setTrap
  | fileNotes
  | moveNotes
  | bump
  | strayGuard
  | tagBody
  | extraTags
  | freshTags (rest : List String)
  | dryEnd
  | add
  | commit
  | setCommitted
  | tagging (rest : List String)
  | push
  | exiting (code : ℕ)
  | exited (code : ℕ)
  | killed
deriving DecidableEq

variable {B C : Type}

/-- Commits: their trees, the commits of their history (themselves included), and what `git commit` makes of a
tree and a parent (with a stamp for the rest that enters the id). -/
structure Objects (B C : Type) where
  tree : C → Git.Tree String B
  history : C → List C
  newCommit : ℕ → Git.Tree String B → C → C
  tree_newCommit : ∀ stamp index head, tree (newCommit stamp index head) = index
  history_newCommit : ∀ stamp index head,
    history (newCommit stamp index head) = newCommit stamp index head :: history head

/-- The remote's main branch and tags. -/
structure Remote (C : Type) where
  main : Option C
  tags : Dict String C

/-- The script's state. `made` is the release commit. -/
structure Script (B C : Type) where
  pc : Pc
  repo : Git.Repo String B C
  tags : Dict String C
  remote : Remote C
  names : List String
  trapped : Bool
  committed : Bool
  made : Option C

/-- What the commands of the trap, each `|| true`, get to: the files that `git checkout` and `git clean` come to before
they fail, and whether `rm` works. -/
structure Restoring where
  checkout : String → Bool
  clean : String → Bool
  rm : Bool

/-- None of them fails. -/
def Restoring.whole : Restoring := ⟨fun _ => true, fun _ => true, true⟩

/-- How a command comes out: whether it succeeds, what it leaves in the files it may write, whether `git add` wrote
the index, the date, the extra tags, the stamp of a commit, whether the remote was reached, how far the trap gets. -/
structure Outcome (B : Type) where
  ok : Bool
  work : Git.Tree String B
  staged : Bool
  month : String
  extra : List String
  stamp : ℕ
  reached : Bool
  trap : Restoring

/-- A command, a HUP, INT, PIPE or TERM, a push of someone else. -/
inductive Event (B C : Type)
  | command (o : Outcome B)
  | signal (trap : Restoring)
  | elsewhere (remote : Remote C)

/-! ### The remote -/

section

variable [DecidableEq C] (objects : Objects B C)

/-- Main holds the commit. -/
def Remote.holds (r : Remote C) (c : C) : Bool := r.main.any (fun main => c ∈ objects.history main)

/-- The commit is on main or tagged. -/
def Remote.mentions (r : Remote C) (c : C) : Bool := r.holds objects c || r.tags.any (fun tag => tag.2 = c)

/-- A branch is taken when it is a fast-forward. -/
def Remote.takesMain (r : Remote C) (head : C) : Bool := r.main.all (fun main => main ∈ objects.history head)

/-- A tag is taken when it is absent. -/
def pushTags (remote tags : Dict String C) (names : List String) : Dict String C :=
  names.foldl (fun remote name =>
    match remote.get name, tags.get name with
    | none, some c => remote.set name c
    | _, _ => remote) remote

/-- `git push` of HEAD and the tags, each ref on its own. -/
def Remote.push (r : Remote C) (head : C) (tags : Dict String C) (names : List String) : Remote C where
  main := if r.takesMain objects head then some head else r.main
  tags := pushTags r.tags tags names

end

/-! ### Commands -/

namespace Script

/-- `[ … ] || die`, or a make target `|| die`. -/
def guard (s : Script B C) (ok : Bool) (next : Pc) : Script B C := { s with pc := if ok then next else .exiting 1 }

/-- `restore`. -/
def restore (cfg : Settings) (s : Script B C) (trap : Restoring) : Script B C :=
  if s.committed then s
  else
    let repo := (s.repo.checkout trap.checkout).clean (fun path => cfg.cleaned path && trap.clean path)
    { s with repo := if trap.rm then repo.write cfg.tmp none else repo }

/-- `git fetch --tags`: the tags that are not here yet. -/
def fetch (s : Script B C) (reached : Bool) : Script B C :=
  if reached then { s with tags := s.tags.update (s.remote.tags.filter (fun tag => (s.tags.get tag.1).isNone)) } else s

/-- A make target that writes the files the release may change. -/
def target (cfg : Settings) (s : Script B C) (o : Outcome B) : Script B C :=
  { s with repo := { s.repo with work := fun path => if cfg.allowed path then o.work path else s.repo.work path } }

/-- `v$year.$month.$patch`, the patch counting the month's tags. -/
def versionTag (s : Script B C) (month : String) : String :=
  "v" ++ month ++ "." ++ toString (s.tags.keys.filter (hasPrefix · ("v" ++ month ++ "."))).length

/-- The next command. A guard that only reads comes out either way. -/
def command [DecidableEq C] (cfg : Settings) (objects : Objects B C) (s : Script B C) (o : Outcome B) :
    Option (Script B C) :=
  match s.pc with
  | .bumpNamed => some (s.guard o.ok .notesThere)
  | .notesThere => some (s.guard (cfg.isFile s.repo) .onMain)
  | .onMain => some (s.guard o.ok .treeClean)
  | .treeClean => some (s.guard o.ok (.workflows cfg.workflows))
  | .workflows [] => some { s with pc := .fetch }
  | .workflows (_ :: rest) => some (s.guard o.ok (.workflows rest))
  | .fetch =>
    let next := Pc.prechecks (if cfg.dry || cfg.skipPrecheck then [] else cfg.precheck)
    if cfg.dry then some { s with pc := next } else some ((s.fetch o.reached).guard o.ok next)
  | .prechecks [] => some { s with pc := .advisories cfg.advisory }
  | .prechecks (_ :: rest) => some (s.guard o.ok (.prechecks rest))
  | .advisories [] => some { s with pc := .version }
  | .advisories (_ :: rest) => some { s with pc := .advisories rest }
  | .version =>
    let tag := s.versionTag o.month
    some ({ s with names := [tag] }.guard (s.tags.get tag).isNone .unreleased)
  | .unreleased => some (s.guard o.ok .setTrap)
  | .setTrap => some { s with trapped := true, pc := .fileNotes }
  | .fileNotes =>
    some { s with repo := s.repo.write cfg.tmp (o.work cfg.tmp), pc := if o.ok then .moveNotes else .bump }
  | .moveNotes =>
    some { s with
      repo := if o.ok then (s.repo.write cfg.notes (s.repo.work cfg.tmp)).write cfg.tmp none else s.repo
      pc := .bump }
  | .bump => some ((s.target cfg o).guard o.ok .strayGuard)
  | .strayGuard => some (s.guard o.ok .tagBody)
  | .tagBody => some ((s.target cfg o).guard o.ok .extraTags)
  | .extraTags =>
    some ({ s.target cfg o with names := s.names ++ o.extra }.guard o.ok (.freshTags o.extra))
  | .freshTags [] => some { s with pc := .dryEnd }
  | .freshTags (tag :: rest) => some (s.guard (s.tags.get tag).isNone (.freshTags rest))
  | .dryEnd => some { s with pc := if cfg.dry then .exiting 0 else .add }
  | .add => some ({ s with repo := if o.staged then s.repo.add cfg.added else s.repo }.guard o.ok .commit)
  | .commit =>
    let c := objects.newCommit o.stamp s.repo.index s.repo.head
    if o.ok then
      -- the id of a new commit is not one the remote has
      if s.remote.mentions objects c then none
      else some { s with repo := { s.repo with head := c }, made := some c, pc := .setCommitted }
    else some { s with pc := .exiting 1 }
  | .setCommitted => some { s with committed := true, pc := .tagging s.names }
  | .tagging [] => some { s with pc := .push }
  | .tagging (tag :: rest) =>
    if o.ok && (s.tags.get tag).isNone then
      some { s with tags := s.tags.set tag s.repo.head, pc := .tagging rest }
    else some { s with pc := .exiting 1 }
  | .push =>
    if o.reached then
      let whole := s.remote.takesMain objects s.repo.head && s.names.all (fun tag => (s.remote.tags.get tag).isNone)
      some { s with
        remote := s.remote.push objects s.repo.head s.tags s.names
        pc := .exiting (if whole then 0 else 1) }
    else some { s with pc := .exiting 1 }
  | .exiting code => some { (if s.trapped then s.restore cfg o.trap else s) with pc := .exited code }
  | .exited _ | .killed => none

/-- The script has ended. -/
def ended (s : Script B C) : Bool :=
  match s.pc with
  | .exited _ | .killed => true
  | _ => false

/-- Past the push, or on the way out before it. -/
def leaving (s : Script B C) : Bool :=
  match s.pc with
  | .exiting _ | .exited _ | .killed => true
  | _ => false

def step [DecidableEq C] (cfg : Settings) (objects : Objects B C) (s : Script B C) : Event B C → Option (Script B C)
  | .command o => s.command cfg objects o
  | .signal trap =>
    if s.ended then none
    -- the handler returns, and the script goes on
    else if s.trapped then some (s.restore cfg trap)
    else some { s with pc := .killed }
  | .elsewhere remote =>
    -- nobody else has the release commit
    if s.leaving || s.made.any (fun c => remote.mentions objects c) then none
    else some { s with remote := remote }

/-- The script at its first command. -/
def start (repo : Git.Repo String B C) (tags : Dict String C) (remote : Remote C) : Script B C :=
  ⟨.bumpNamed, repo, tags, remote, [], false, false, none⟩

end Script

/-! ### Histories without merges -/

/-- A commit as the stamped trees up to it, newest first. -/
def Chain (B : Type) := List (ℕ × Git.Tree String B)

def Chain.objects (B : Type) : Objects B (Chain B) where
  tree c := (c.head?.map Prod.snd).getD (fun _ => none)
  history := List.tails
  newCommit stamp index head := (stamp, index) :: head
  tree_newCommit _ _ _ := rfl
  history_newCommit _ _ _ := rfl

noncomputable instance (B : Type) : DecidableEq (Chain B) := Classical.decEq _

/-! ### A project that keeps its version in one file -/

def plainSettings (dry : Bool) : Settings := ⟨"CHANGELOG.md", ["VERSION"], [], [], [], false, dry⟩

def plainTree : Git.Tree String ℕ := fun path => if path = "CHANGELOG.md" ∨ path = "VERSION" then some 0 else none

/-- What the release leaves in its files. -/
def bumpedTree : Git.Tree String ℕ := fun path =>
  if path = "CHANGELOG.md.tmp" ∨ path = "VERSION" then some 1 else plainTree path

def plainCommit : Chain ℕ := [(0, plainTree)]

/-- A command of a release that takes one extra tag. -/
def plainCommand (ok : Bool) : Event ℕ (Chain ℕ) :=
  .command ⟨ok, bumpedTree, true, "2026.7", ["tools/v2026.7.0"], 1, true, .whole⟩

/-- The release starts on a clean checkout. -/
def plainStart : Script ℕ (Chain ℕ) := .start ⟨plainCommit, plainTree, plainTree, fun _ _ => false⟩ [] ⟨none, []⟩

lemma plainStart_clean : plainStart.repo.Clean (Chain.objects ℕ).tree := by
  intro path
  refine Git.Repo.status_eq_nil.mpr ⟨rfl, fun _ => rfl, ?_⟩
  rintro ⟨habsent, hpresent, -⟩
  exact absurd hpresent (by simpa [plainStart, Script.start] using habsent)

/-- The first `n` commands go well, the next one fails, and the script exits. -/
def failsAt (n : ℕ) : List (Event ℕ (Chain ℕ)) :=
  List.replicate n (plainCommand true) ++ [plainCommand false, plainCommand true]

end SciForge.Tools.Release
