import SciForge.Tools.RunGate
import SciForge.Lib.Machine

/-!
# The gate lock

Which gates run their steps, and what the lock records, over all interleavings.
-/

namespace SciForge.Tools

variable {P S R T : Type}

namespace Yard

def pc (y : Yard P S R T) (p : P) : Pc P S T := (y.gate p).pc

/-- The step removes the lock: a reclaim, the trap of a signal, the trap of the exit. -/
def Removes (y : Yard P S R T) : Event P R → Prop
  | .advance p _ => y.pc p = .removeStale ∨ ∃ code, y.pc p = .exitTrap code
  | .trap _ => True
  | _ => False

/-- The lock is only removed while no gate is between its `mkdir` and the end of its last step. -/
def Safe (y : Yard P S R T) (e : Event P R) : Prop := y.Removes e → ∀ q, (y.pc q).holds = false

/-- At most one gate runs its steps, and the lock records it. -/
structure Exclusive (y : Yard P S R T) : Prop where
  unique : ∀ p q, (y.pc p).runsSteps = true → (y.pc q).runsSteps = true → p = q
  recorded : ∀ p, (y.pc p).runsSteps = true → y.lock = some (some p)

/-- One gate at most is past its `mkdir`; the lock is there, and records it once the pid is written. -/
structure Held (y : Yard P S R T) : Prop where
  unique : ∀ p q, (y.pc p).holds = true → (y.pc q).holds = true → p = q
  present : ∀ p, (y.pc p).holds = true → y.lock ≠ none
  recorded : ∀ p, (y.pc p).holds = true → y.pc p ≠ .writePid → y.lock = some (some p)

lemma Held.exclusive {y : Yard P S R T} (h : y.Held) : y.Exclusive := by
  have hholds : ∀ p, (y.pc p).runsSteps = true → (y.pc p).holds = true ∧ y.pc p ≠ .writePid := by
    intro p hp
    cases hpc : y.pc p <;> simp_all [Pc.runsSteps, Pc.holds]
  constructor
  · intro p q hp hq
    exact h.unique p q (hholds p hp).1 (hholds q hq).1
  · intro p hp
    exact h.recorded p (hholds p hp).1 (hholds p hp).2

lemma held_initial (repo : R) : (initial repo : Yard P S R T).Held := by
  constructor
  · intro p q hp
    cases hp
  · intro p hp
    cases hp
  · intro p hp
    cases hp

/-! ### What a step can do -/

variable [DecidableEq P]

lemma pc_setPc (y : Yard P S R T) (p : P) (next : Pc P S T) : (y.setPc p next).pc = Function.update y.pc p next := by
  funext q
  by_cases h : q = p
  · subst h
    simp [pc, setPc]
  · simp [pc, setPc, h]

lemma pc_setPending (y : Yard P S R T) (p : P) (pending : Bool) : (y.setPending p pending).pc = y.pc := by
  funext q
  by_cases h : q = p
  · subst h
    simp [pc, setPending]
  · simp [pc, setPending, h]

/-- The effect of a step on the lock and the program counters. -/
inductive Effect (y : Yard P S R T) (e : Event P R) (y' : Yard P S R T) : Prop
  | quiet (hlock : y'.lock = y.lock) (hpc : y'.pc = y.pc)
  | move (p : P) (next : Pc P S T) (hlock : y'.lock = y.lock) (hpc : y'.pc = Function.update y.pc p next)
      (hholds : next.holds = true → (y.pc p).holds = true ∧ y.pc p ≠ .writePid)
  | take (p : P) (hfree : y.lock = none) (hlock : y'.lock = some none)
      (hpc : y'.pc = Function.update y.pc p .writePid)
  | write (p : P) (hwrite : y.pc p = .writePid) (hlock : y'.lock = y.lock.map (fun _ => some p))
      (hpc : y'.pc = Function.update y.pc p .setTrap)
  | remove (hremoves : y.Removes e) (hlock : y'.lock = none)
      (hpc : ∀ q, (y'.pc q).holds = true → (y.pc q).holds = true)

lemma effect_mkdir {y : Yard P S R T} (e : Event P R) (p : P) {taken : Pc P S T} (htaken : taken.holds = false) :
    Effect y e (y.mkdir p .writePid taken) := by
  unfold mkdir
  split
  · next hfree =>
    exact .take p (Option.isNone_iff_eq_none.mp hfree) rfl (pc_setPc _ p _)
  · exact .move p taken rfl (pc_setPc y p taken) (fun h => by rw [htaken] at h; cases h)

variable [DecidableEq T] {steps : P → List S} {snapshot : R → T}

lemma effect_advance {y y' : Yard P S R T} {p : P} {green : Bool}
    (h : y.advance steps snapshot p green = some y') : Effect y (.advance p green) y' := by
  have hleave : ∀ next : Pc P S T, next.holds = false → Effect y (.advance p green) (y.setPc p next) :=
    fun next hnext => .move p next rfl (pc_setPc y p next) (fun h => by rw [hnext] at h; cases h)
  have hkeep : ∀ next : Pc P S T, (y.pc p).holds = true → y.pc p ≠ .writePid →
      Effect y (.advance p green) (y.setPc p next) :=
    fun next hholds hne => .move p next rfl (pc_setPc y p next) (fun _ => ⟨hholds, hne⟩)
  have hremove : ∀ next : Pc P S T, y.Removes (.advance p green) → next.holds = false →
      Effect y (.advance p green) (y.rmLock.setPc p next) := by
    intro next hremoves hnext
    apply Effect.remove hremoves rfl
    intro q hq
    rw [pc_setPc] at hq
    by_cases hqp : q = p
    · rw [hqp, Function.update_self, hnext] at hq
      cases hq
    · rw [Function.update_of_ne hqp] at hq
      exact hq
  have hpc : y.pc p = (y.gate p).pc := rfl
  unfold advance at h
  cases hat : (y.gate p).pc with
  | start | mkdirAgain =>
    rw [hat] at h
    obtain rfl := Option.some.inj h
    exact effect_mkdir _ p rfl
  | readHolder =>
    rw [hat] at h
    obtain rfl := Option.some.inj h
    exact hleave _ rfl
  | testHolder holder =>
    rw [hat] at h
    cases holder with
    | none =>
      obtain rfl := Option.some.inj h
      exact hleave _ rfl
    | some q =>
      obtain rfl := Option.some.inj h
      apply hleave
      split <;> rfl
  | removeStale =>
    rw [hat] at h
    obtain rfl := Option.some.inj h
    exact hremove _ (.inl (hpc.trans hat)) rfl
  | writePid =>
    rw [hat] at h
    obtain rfl := Option.some.inj h
    exact .write p (hpc.trans hat) rfl (pc_setPc _ p _)
  | setTrap | snapshotBefore | inStep before rest =>
    rw [hat] at h hpc
    obtain rfl := Option.some.inj h
    exact hkeep _ (by rw [hpc]; rfl) (by rw [hpc]; simp)
  | betweenSteps before rest =>
    rw [hat] at h hpc
    cases rest with
    | nil =>
      obtain rfl := Option.some.inj h
      exact hleave _ rfl
    | cons step rest =>
      obtain rfl := Option.some.inj h
      exact hkeep _ (by rw [hpc]; rfl) (by rw [hpc]; simp)
  | snapshotAfter before status =>
    rw [hat] at h
    obtain rfl := Option.some.inj h
    exact hleave _ rfl
  | exitTrap code =>
    rw [hat] at h
    obtain rfl := Option.some.inj h
    exact hremove _ (.inr ⟨code, hpc.trans hat⟩) rfl
  | exited code | killed =>
    rw [hat] at h
    cases h

lemma step_effect {y y' : Yard P S R T} {e : Event P R} (h : y.step steps snapshot e = some y') :
    Effect y e y' := by
  have hkill : ∀ p, Effect y e (y.setPc p .killed) :=
    fun p => .move p .killed rfl (pc_setPc y p .killed) (fun h => nomatch h)
  unfold step at h
  cases e with
  | advance p green =>
    dsimp only at h
    split at h
    · cases h
    · exact effect_advance h
  | trap p =>
    dsimp only at h
    split at h
    · obtain rfl := Option.some.inj h
      have hremoves : y.Removes (.trap p : Event P R) := trivial
      apply Effect.remove hremoves rfl
      intro q hq
      rw [pc_setPending] at hq
      exact hq
    · cases h
  | signal p =>
    dsimp only at h
    split at h
    · cases h
    · split at h
      · obtain rfl := Option.some.inj h
        exact .quiet rfl (pc_setPending y p true)
      · obtain rfl := Option.some.inj h
        exact hkill p
  | kill p =>
    dsimp only at h
    split at h
    · obtain rfl := Option.some.inj h
      exact hkill p
    · cases h
  | edit repo =>
    obtain rfl := Option.some.inj h
    exact .quiet rfl rfl

/-! ### Safe runs -/

/-- A safe step keeps the lock with its one gate. -/
lemma held_step {y y' : Yard P S R T} {e : Event P R} (hy : y.Held) (hsafe : y.Safe e)
    (h : y.step steps snapshot e = some y') : y'.Held := by
  cases step_effect h with
  | quiet hlock hpc =>
    constructor
    · rw [hpc]
      exact hy.unique
    · rw [hpc, hlock]
      exact hy.present
    · rw [hpc, hlock]
      exact hy.recorded
  | move p next hlock hpc hholds =>
    have hback : ∀ q, (y'.pc q).holds = true → (y.pc q).holds = true ∧ (y'.pc q ≠ .writePid → y.pc q ≠ .writePid) := by
      intro q hq
      rw [hpc] at hq ⊢
      by_cases hqp : q = p
      · subst hqp
        rw [Function.update_self] at hq
        exact ⟨(hholds hq).1, fun _ => (hholds hq).2⟩
      · rw [Function.update_of_ne hqp] at hq ⊢
        exact ⟨hq, id⟩
    constructor
    · intro q r hq hr
      exact hy.unique q r (hback q hq).1 (hback r hr).1
    · intro q hq
      rw [hlock]
      exact hy.present q (hback q hq).1
    · intro q hq hne
      rw [hlock]
      exact hy.recorded q (hback q hq).1 ((hback q hq).2 hne)
  | take p hfree hlock hpc =>
    have honly : ∀ q, (y'.pc q).holds = true → q = p := by
      intro q hq
      by_contra hqp
      rw [hpc, Function.update_of_ne hqp] at hq
      exact hy.present q hq hfree
    constructor
    · intro q r hq hr
      rw [honly q hq, honly r hr]
    · intro q _
      simp [hlock]
    · intro q hq hne
      rw [honly q hq, hpc, Function.update_self] at hne
      exact absurd rfl hne
  | write p hwrite hlock hpc =>
    have hp : (y.pc p).holds = true := by
      rw [hwrite]
      rfl
    have honly : ∀ q, (y'.pc q).holds = true → q = p := by
      intro q hq
      by_contra hqp
      rw [hpc, Function.update_of_ne hqp] at hq
      exact hqp (hy.unique q p hq hp)
    obtain ⟨pid, hpid⟩ := Option.ne_none_iff_exists'.mp (hy.present p hp)
    have hsome : y'.lock = some (some p) := by
      rw [hlock, hpid]
      rfl
    constructor
    · intro q r hq hr
      rw [honly q hq, honly r hr]
    · intro q _
      simp [hsome]
    · intro q hq _
      rw [hsome, honly q hq]
  | remove hremoves hlock hpc =>
    have hnone : ∀ q, (y'.pc q).holds = true → False := by
      intro q hq
      have hfalse := hsafe hremoves q
      rw [hpc q hq] at hfalse
      cases hfalse
    constructor
    · intro q r hq
      exact absurd hq (fun h => hnone q h)
    · intro q hq
      exact absurd hq (fun h => hnone q h)
    · intro q hq
      exact absurd hq (fun h => hnone q h)

/-! ### Unsafe removals -/

omit [DecidableEq P] [DecidableEq T] in
lemma not_exclusive {y : Yard P S R T} {q : P} (hlock : y.lock = none) (hq : (y.pc q).runsSteps = true) :
    ¬y.Exclusive := by
  intro h
  have hrecorded := h.recorded q hq
  rw [hlock] at hrecorded
  cases hrecorded

/-- A run from `y` reaches a state in which the lock does not say who runs. -/
def Doomed (steps : P → List S) (snapshot : R → T) (y : Yard P S R T) : Prop :=
  ∃ events y', Machine.run (step steps snapshot) y events = some y' ∧ ¬y'.Exclusive

lemma Doomed.step {y y' : Yard P S R T} {e : Event P R} (h : y.step steps snapshot e = some y')
    (hy' : y'.Doomed steps snapshot) : y.Doomed steps snapshot := by
  obtain ⟨events, y'', hrun, hexclusive⟩ := hy'
  exact ⟨e :: events, y'', (Machine.run_cons h events).trans hrun, hexclusive⟩

lemma doomed_snapshotBefore {y : Yard P S R T} {q : P} (hlock : y.lock = none)
    (hq : y.pc q = .snapshotBefore) : y.Doomed steps snapshot := by
  have hnext : ∀ y : Yard P S R T, y.lock = none → y.pc q = .snapshotBefore → y.trapDue q = false →
      y.Doomed steps snapshot := by
    intro y hlock hq hdue
    have hpc : (y.gate q).pc = .snapshotBefore := hq
    have hstep : y.step steps snapshot (.advance q true) =
        some (y.setPc q (.betweenSteps (snapshot y.repo) (steps q))) := by
      simp [Yard.step, hdue, advance, hpc]
    apply Doomed.step hstep
    refine ⟨[], _, rfl, not_exclusive (q := q) hlock ?_⟩
    rw [pc_setPc, Function.update_self]
    rfl
  by_cases hdue : y.trapDue q = true
  · have hstep : y.step steps snapshot (.trap q) = some (y.rmLock.setPending q false) := if_pos hdue
    apply Doomed.step hstep
    apply hnext _ rfl
    · rw [pc_setPending]
      exact hq
    · simp [trapDue, setPending]
  · exact hnext y hlock hq (by simpa using hdue)

/-- A gate past its `mkdir` whose lock is gone goes on to its steps all the same. -/
lemma doomed_of_holds {y : Yard P S R T} {q : P} (hlock : y.lock = none) (hq : (y.pc q).holds = true) :
    y.Doomed steps snapshot := by
  have hsetTrap : ∀ y : Yard P S R T, y.lock = none → y.pc q = .setTrap → y.Doomed steps snapshot := by
    intro y hlock hq
    have hpc : (y.gate q).pc = .setTrap := hq
    have hstep : y.step steps snapshot (.advance q true) = some (y.setPc q .snapshotBefore) := by
      simp [Yard.step, trapDue, advance, hpc, Pc.trapSet]
    apply Doomed.step hstep
    apply doomed_snapshotBefore (q := q)
    · exact hlock
    · rw [pc_setPc, Function.update_self]
  have hpc : (y.gate q).pc = y.pc q := rfl
  cases hat : y.pc q with
  | writePid =>
    rw [hat] at hpc
    have hstep : y.step steps snapshot (.advance q true) = some ((y.writePid q).setPc q .setTrap) := by
      simp [Yard.step, trapDue, advance, hpc, Pc.trapSet]
    apply Doomed.step hstep
    apply hsetTrap
    · simp [setPc, writePid, hlock]
    · rw [pc_setPc, Function.update_self]
  | setTrap => exact hsetTrap y hlock hat
  | snapshotBefore => exact doomed_snapshotBefore hlock hat
  | betweenSteps before rest => exact ⟨[], y, rfl, not_exclusive hlock (by rw [hat]; rfl)⟩
  | inStep before rest => exact ⟨[], y, rfl, not_exclusive hlock (by rw [hat]; rfl)⟩
  | start => rw [hat] at hq; cases hq
  | readHolder => rw [hat] at hq; cases hq
  | testHolder holder => rw [hat] at hq; cases hq
  | removeStale => rw [hat] at hq; cases hq
  | mkdirAgain => rw [hat] at hq; cases hq
  | snapshotAfter before status => rw [hat] at hq; cases hq
  | exitTrap code => rw [hat] at hq; cases hq
  | exited code => rw [hat] at hq; cases hq
  | killed => rw [hat] at hq; cases hq

lemma step_of_removes {y y' : Yard P S R T} {e : Event P R} (h : y.step steps snapshot e = some y')
    (hremoves : y.Removes e) : y'.lock = none ∧ ∀ q, (y.pc q).holds = true → (y'.pc q).holds = true := by
  cases e with
  | advance p green =>
    have hset : ∀ next : Pc P S T, (y.pc p).holds = false →
        ∀ q, (y.pc q).holds = true → (((y.rmLock.setPc p next).pc q).holds = true) := by
      intro next hp q hq
      have hqp : q ≠ p := by
        rintro rfl
        rw [hp] at hq
        cases hq
      rw [pc_setPc, Function.update_of_ne hqp]
      exact hq
    unfold step at h
    dsimp only at h
    split at h
    · cases h
    · unfold advance at h
      rcases hremoves with hpc | ⟨code, hpc⟩
      · have hgate : (y.gate p).pc = .removeStale := hpc
        rw [hgate] at h
        obtain rfl := Option.some.inj h
        exact ⟨rfl, hset _ (by rw [hpc]; rfl)⟩
      · have hgate : (y.gate p).pc = .exitTrap code := hpc
        rw [hgate] at h
        obtain rfl := Option.some.inj h
        exact ⟨rfl, hset _ (by rw [hpc]; rfl)⟩
  | trap p =>
    unfold step at h
    dsimp only at h
    split at h
    · obtain rfl := Option.some.inj h
      apply And.intro rfl
      intro q hq
      rw [pc_setPending]
      exact hq
    · cases h
  | signal p => cases hremoves
  | kill p => cases hremoves
  | edit repo => cases hremoves

lemma doomed_of_unsafe {y y' : Yard P S R T} {e : Event P R} (h : y.step steps snapshot e = some y')
    (hviolated : ¬y.Safe e) : y'.Doomed steps snapshot := by
  obtain ⟨hremoves, hholds⟩ := Classical.not_imp.mp hviolated
  obtain ⟨q, hq⟩ := not_forall.mp hholds
  obtain ⟨hlock, hkept⟩ := step_of_removes h hremoves
  exact doomed_of_holds hlock (hkept q (by simpa using hq))

/-- A run whose removals of the lock are all safe keeps the gates exclusive, and a run with an unsafe one can be
continued to a state in which they are not. -/
theorem exclusive_of_safe (steps : P → List S) (snapshot : R → T) (repo : R) :
    (∀ events y, Machine.Meets (step steps snapshot) Safe (initial repo) events →
      Machine.run (step steps snapshot) (initial repo) events = some y → y.Exclusive) ∧
    ∀ events y e y', Machine.run (step steps snapshot) (initial repo) events = some y →
      y.step steps snapshot e = some y' → ¬y.Safe e → y'.Doomed steps snapshot := by
  apply And.intro
  · intro events y hmeets hrun
    exact (Machine.run_invariant (fun _ _ _ hy hsafe h => held_step hy hsafe h) (held_initial repo) hmeets
      hrun).exclusive
  · intro events y e y' _ h hviolated
    exact doomed_of_unsafe h hviolated

/-- The commands of one gate from the start to its first `make`. -/
def toFirstStep (p : Bool) : List (Event Bool Unit) := List.replicate 5 (.advance p true)

def inMake {P S R T : Type} (y : Yard P S R T) (p : P) : Bool :=
  match y.pc p with
  | .inStep _ _ => true
  | _ => false

/-- A gate that ends before another one starts removes its lock safely. -/
theorem exclusive_of_safe_turns : ∃ y,
    Machine.run (step (fun _ => ["ok"]) (fun _ => ())) (initial ())
      (toFirstStep false ++ List.replicate 4 (.advance false true) ++ toFirstStep true) = some y ∧
      y.inMake true = true ∧ y.Exclusive := by
  refine ⟨_, rfl, rfl, ?_⟩
  refine (exclusive_of_safe (fun _ : Bool => ["ok"]) (fun _ : Unit => ()) ()).1
    (toFirstStep false ++ List.replicate 4 (.advance false true) ++ toFirstStep true) _ ?_ rfl
  have hquiet : ∀ {y : Yard Bool String Unit Unit} {p : Bool}, y.pc p ≠ .removeStale →
      (∀ code, y.pc p ≠ .exitTrap code) → y.Safe (.advance p true) := by
    rintro y p hstale hexit (hremoves | ⟨code, hremoves⟩)
    · exact absurd hremoves hstale
    · exact absurd hremoves (hexit code)
  iterate 8 refine Machine.meets_cons rfl (hquiet nofun nofun) ?_
  refine Machine.meets_cons rfl (fun _ q => by cases q <;> rfl) ?_
  iterate 5 refine Machine.meets_cons rfl (hquiet nofun nofun) ?_
  trivial

/-! ### Two gates at once -/

/-- A TERM reaches the first gate during a step: its trap removes the lock, it goes on with its next step, and a
second gate starts. -/
def termRun : List (Event Bool Unit) :=
  toFirstStep false ++ [.signal false, .advance false true, .trap false, .advance false true] ++ toFirstStep true

/-- Two gates read the pid of a killed one; the second removes the lock the first has just taken. -/
def reclaimRun : List (Event (Fin 3) Unit) :=
  [.advance 0 true, .advance 0 true, .kill 0, .advance 1 true, .advance 1 true, .advance 2 true, .advance 2 true,
    .advance 1 true, .advance 2 true] ++ List.replicate 6 (.advance 1 true) ++ List.replicate 6 (.advance 2 true)

/-- In both runs two gates run `make` at once. -/
theorem two_gates_run :
    (Machine.run (step (fun _ => ["ok-a", "ok-b"]) (fun _ => ())) (initial ()) termRun).map
        (fun y => (y.inMake false, y.inMake true, y.lock)) = some (true, true, some (some true)) ∧
    (Machine.run (step (fun _ => ["ok-a"]) (fun _ => ())) (initial ()) reclaimRun).map
        (fun y => (y.inMake 1, y.inMake 2, y.lock)) = some (true, true, some (some 2)) := by
  decide

end Yard

end SciForge.Tools
