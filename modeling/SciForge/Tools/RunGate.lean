import Mathlib.Logic.Function.Basic
import Mathlib.Data.Nat.Notation

/-!
# The gate script

Any number of `run-gate.sh` processes on one build directory. A process is its program counter; each command of
the script is one step, taken in any order with those of the others, with signals, kills and edits of the tree. An
ended process is reaped, and its pid not used again.
-/

namespace SciForge.Tools

/-- Where a gate stands. `before` is the first snapshot, `status` the outcome of the steps so far. -/
inductive Pc (P S T : Type)
  | start
  | readHolder
  | testHolder (holder : Option P)
  | removeStale
  | mkdirAgain
  | writePid
  | setTrap
  | snapshotBefore
  | betweenSteps (before : T) (rest : List S)
  | inStep (before : T) (rest : List S)
  | snapshotAfter (before : T) (status : ℕ)
  | exitTrap (code : ℕ)
  | exited (code : ℕ)
  | killed
deriving DecidableEq

/-- A gate, and whether an INT or TERM waits for its trap. -/
structure Gate (P S T : Type) where
  pc : Pc P S T
  pending : Bool

/-- The lock directory with its pid file, the gates and the repository. -/
structure Yard (P S R T : Type) where
  lock : Option (Option P)
  gate : P → Gate P S T
  repo : R

/-- A command of `p` (with `make`'s result where it ends a step), the trap `p` runs for a signal, an INT or TERM
sent to `p`, `p` killed outright, an edit of the tree. -/
inductive Event (P R : Type)
  | advance (p : P) (green : Bool)
  | trap (p : P)
  | signal (p : P)
  | kill (p : P)
  | edit (repo : R)

variable {P S R T : Type}

/-! ### Where a gate stands -/

/-- `kill -0` finds the process. -/
def Pc.live : Pc P S T → Bool
  | .exited _ | .killed => false
  | _ => true

/-- The trap is set. -/
def Pc.trapSet : Pc P S T → Bool
  | .snapshotBefore | .betweenSteps _ _ | .inStep _ _ | .snapshotAfter _ _ | .exitTrap _ => true
  | _ => false

/-- In the loop over the make steps. -/
def Pc.runsSteps : Pc P S T → Bool
  | .betweenSteps _ _ | .inStep _ _ => true
  | _ => false

/-- After a successful `mkdir`, up to the last step. -/
def Pc.holds : Pc P S T → Bool
  | .writePid | .setTrap | .snapshotBefore | .betweenSteps _ _ | .inStep _ _ => true
  | _ => false

/-! ### Commands -/

variable [DecidableEq P] [DecidableEq T]

namespace Yard

def setPc (y : Yard P S R T) (p : P) (pc : Pc P S T) : Yard P S R T :=
  { y with gate := Function.update y.gate p { y.gate p with pc := pc } }

def setPending (y : Yard P S R T) (p : P) (pending : Bool) : Yard P S R T :=
  { y with gate := Function.update y.gate p { y.gate p with pending := pending } }

/-- `mkdir "$lock"`: to `made` when it was not there, to `taken` when it was. -/
def mkdir (y : Yard P S R T) (p : P) (made taken : Pc P S T) : Yard P S R T :=
  if y.lock.isNone then { y with lock := some none }.setPc p made else y.setPc p taken

/-- `rm -rf "$lock"`. -/
def rmLock (y : Yard P S R T) : Yard P S R T := { y with lock := none }

/-- `echo $$ > "$lock/pid"`: nothing is written when the directory is gone, and the script goes on. -/
def writePid (y : Yard P S R T) (p : P) : Yard P S R T := { y with lock := y.lock.map (fun _ => some p) }

/-- The next command of `p`. -/
def advance (steps : P → List S) (snapshot : R → T) (y : Yard P S R T) (p : P) (green : Bool) :
    Option (Yard P S R T) :=
  match (y.gate p).pc with
  | .start => some (y.mkdir p .writePid .readHolder)
  | .readHolder => some (y.setPc p (.testHolder y.lock.join))
  | .testHolder none => some (y.setPc p (.exited 1))
  | .testHolder (some holder) =>
    some (y.setPc p (if (y.gate holder).pc.live then .exited 1 else .removeStale))
  | .removeStale => some (y.rmLock.setPc p .mkdirAgain)
  | .mkdirAgain => some (y.mkdir p .writePid (.exited 1))
  | .writePid => some ((y.writePid p).setPc p .setTrap)
  | .setTrap => some (y.setPc p .snapshotBefore)
  | .snapshotBefore => some (y.setPc p (.betweenSteps (snapshot y.repo) (steps p)))
  | .betweenSteps before [] => some (y.setPc p (.snapshotAfter before 0))
  | .betweenSteps before (step :: rest) => some (y.setPc p (.inStep before (step :: rest)))
  | .inStep before rest =>
    some (y.setPc p (if green then .betweenSteps before rest.tail else .snapshotAfter before 1))
  | .snapshotAfter before status =>
    some (y.setPc p (.exitTrap (if snapshot y.repo ≠ before ∨ status ≠ 0 then 1 else 0)))
  | .exitTrap code => some (y.rmLock.setPc p (.exited code))
  | .exited _ | .killed => none

/-- A waiting trap runs before the next command, and not before the running `make` has ended. -/
def trapDue (y : Yard P S R T) (p : P) : Bool :=
  (y.gate p).pending && (y.gate p).pc.trapSet && !(match (y.gate p).pc with
    | .inStep _ _ => true
    | _ => false)

def step (steps : P → List S) (snapshot : R → T) (y : Yard P S R T) : Event P R → Option (Yard P S R T)
  | .advance p green => if y.trapDue p then none else y.advance steps snapshot p green
  | .trap p => if y.trapDue p then some (y.rmLock.setPending p false) else none
  | .signal p =>
    if !(y.gate p).pc.live then none
    else if (y.gate p).pc.trapSet then some (y.setPending p true)
    else some (y.setPc p .killed)
  | .kill p => if (y.gate p).pc.live then some (y.setPc p .killed) else none
  | .edit repo => some { y with repo := repo }

/-- No lock, no gate started. -/
def initial (repo : R) : Yard P S R T := ⟨none, fun _ => ⟨.start, false⟩, repo⟩

end Yard

end SciForge.Tools
