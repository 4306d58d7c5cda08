import SciForge.Tools.GateLock

/-!
# A gate started alone

What a gate does when the others have ended, whatever lock they left: which locks it takes over, and which ones stop it.
-/

namespace SciForge.Tools

namespace Yard

variable {P S R T : Type} [DecidableEq P] [DecidableEq T] {steps : P → List S} {snapshot : R → T}

/-- No gate is killed, or ended by a signal, between its `mkdir` and the write of its pid. -/
def Spares (y : Yard P S R T) (e : Event P R) : Prop := ∀ p, e = .kill p ∨ e = .signal p → y.pc p ≠ .writePid

/-- What a lock and a waiting signal say of the gates. -/
structure Recorded (y : Yard P S R T) : Prop where
  started : ∀ q, y.lock = some (some q) → y.pc q ≠ .start
  waiting : ∀ p, (y.gate p).pending = true → y.pc p ≠ .start

/-- A lock without a pid is one whose gate is about to write it. -/
def Signed (y : Yard P S R T) : Prop := y.lock = some none → ∃ p, y.pc p = .writePid

/-! ### No gate starts twice -/

omit [DecidableEq T] in
lemma pending_setPc (y : Yard P S R T) (p q : P) (next : Pc P S T) :
    ((y.setPc p next).gate q).pending = (y.gate q).pending := by
  by_cases h : q = p
  · subst h
    simp [setPc]
  · simp [setPc, h]

lemma advance_moves {y y' : Yard P S R T} {p : P} {green : Bool} (h : y.advance steps snapshot p green = some y') :
    (∃ next, next ≠ .start ∧ y'.pc = Function.update y.pc p next) ∧
      ∀ q, (y'.gate q).pending = (y.gate q).pending := by
  have hset : ∀ {z : Yard P S R T} {next : Pc P S T}, y' = z.setPc p next → z.gate = y.gate → next ≠ .start →
      (∃ next, next ≠ .start ∧ y'.pc = Function.update y.pc p next) ∧
        ∀ q, (y'.gate q).pending = (y.gate q).pending := by
    rintro z next rfl hz hne
    have hpc : z.pc = y.pc := funext fun q => congrArg (fun gate => (gate q).pc) hz
    refine ⟨⟨next, hne, ?_⟩, fun q => ?_⟩
    · rw [pc_setPc, hpc]
    · rw [pending_setPc, hz]
  have hmkdir : ∀ {taken : Pc P S T}, y' = y.mkdir p .writePid taken → taken ≠ .start →
      (∃ next, next ≠ .start ∧ y'.pc = Function.update y.pc p next) ∧
        ∀ q, (y'.gate q).pending = (y.gate q).pending := by
    intro taken heq htaken
    unfold mkdir at heq
    split at heq
    · exact hset heq rfl (fun h => nomatch h)
    · exact hset heq rfl htaken
  unfold advance at h
  cases hat : (y.gate p).pc with
  | start | mkdirAgain =>
    rw [hat] at h
    exact hmkdir (Option.some.inj h).symm (fun h => nomatch h)
  | readHolder | removeStale | writePid | setTrap | snapshotBefore | exitTrap code | snapshotAfter before status =>
    rw [hat] at h
    exact hset (Option.some.inj h).symm rfl (fun h => nomatch h)
  | testHolder holder =>
    rw [hat] at h
    cases holder with
    | none => exact hset (Option.some.inj h).symm rfl (fun h => nomatch h)
    | some q =>
      refine hset (Option.some.inj h).symm rfl (fun hnext => ?_)
      split at hnext <;> cases hnext
  | betweenSteps before rest =>
    rw [hat] at h
    cases rest <;> exact hset (Option.some.inj h).symm rfl (fun h => nomatch h)
  | inStep before rest =>
    rw [hat] at h
    refine hset (Option.some.inj h).symm rfl (fun hnext => ?_)
    split at hnext <;> cases hnext
  | exited code | killed =>
    rw [hat] at h
    cases h

lemma step_started {y y' : Yard P S R T} {e : Event P R} (h : y.step steps snapshot e = some y') (q : P) :
    (y.pc q ≠ .start → y'.pc q ≠ .start) ∧
      ((y'.gate q).pending = true → (y.gate q).pending = true ∨ y.pc q ≠ .start) := by
  have hmove : ∀ (p : P) (next : Pc P S T), next ≠ .start → y'.pc = Function.update y.pc p next →
      y.pc q ≠ .start → y'.pc q ≠ .start := by
    intro p next hne hpc hq
    rw [hpc]
    by_cases hqp : q = p
    · rw [hqp, Function.update_self]
      exact hne
    · rw [Function.update_of_ne hqp]
      exact hq
  have hkilled : ∀ p, y' = y.setPc p .killed → (y.pc q ≠ .start → y'.pc q ≠ .start) ∧
      ((y'.gate q).pending = true → (y.gate q).pending = true ∨ y.pc q ≠ .start) := by
    rintro p rfl
    refine ⟨hmove p .killed (fun h => nomatch h) (pc_setPc y p _), fun hq => .inl ?_⟩
    rwa [pending_setPc] at hq
  unfold step at h
  cases e with
  | advance p green =>
    dsimp only at h
    split at h
    · cases h
    · obtain ⟨⟨next, hne, hpc⟩, hpending⟩ := advance_moves h
      exact ⟨hmove p next hne hpc, fun hq => .inl ((hpending q).symm.trans hq)⟩
  | trap p =>
    dsimp only at h
    split at h
    · obtain rfl := Option.some.inj h
      rw [pc_setPending]
      refine ⟨fun hq => hq, fun hq => .inl ?_⟩
      by_cases hqp : q = p
      · subst hqp
        simp [setPending] at hq
      · simpa [setPending, hqp, rmLock] using hq
    · cases h
  | signal p =>
    dsimp only at h
    split at h
    · cases h
    · split at h
      · next hset =>
        obtain rfl := Option.some.inj h
        rw [pc_setPending]
        refine ⟨fun hq => hq, fun hq => ?_⟩
        by_cases hqp : q = p
        · subst hqp
          refine .inr fun hstart => ?_
          have hpc : (y.gate q).pc = .start := hstart
          rw [hpc] at hset
          cases hset
        · exact .inl (by simpa [setPending, hqp] using hq)
      · exact hkilled p (Option.some.inj h).symm
  | kill p =>
    dsimp only at h
    split at h
    · exact hkilled p (Option.some.inj h).symm
    · cases h
  | edit repo =>
    obtain rfl := Option.some.inj h
    exact ⟨fun hq => hq, .inl⟩

/-! ### What a run keeps -/

lemma recorded_step {y y' : Yard P S R T} {e : Event P R} (hy : y.Recorded)
    (h : y.step steps snapshot e = some y') : y'.Recorded := by
  refine ⟨fun q hlock' => ?_, fun p hpending => ?_⟩
  · have hkept : y.lock = some (some q) → y'.pc q ≠ .start := fun hlock => (step_started h q).1 (hy.started q hlock)
    cases step_effect h with
    | quiet hlock => exact hkept (hlock.symm.trans hlock')
    | move p next hlock => exact hkept (hlock.symm.trans hlock')
    | take p hfree hlock =>
      rw [hlock] at hlock'
      cases hlock'
    | write p hwrite hlock hpc =>
      rw [hlock'] at hlock
      obtain ⟨old, -, hq⟩ := Option.map_eq_some_iff.mp hlock.symm
      obtain rfl := Option.some.inj hq
      rw [hpc, Function.update_self]
      exact fun h => nomatch h
    | remove hremoves hlock =>
      rw [hlock] at hlock'
      cases hlock'
  · rcases (step_started h p).2 hpending with hold | hstarted
    · exact (step_started h p).1 (hy.waiting p hold)
    · exact (step_started h p).1 hstarted

lemma recorded_run {repo : R} {events : List (Event P R)} {y : Yard P S R T}
    (hrun : Machine.run (step steps snapshot) (initial repo) events = some y) : y.Recorded := by
  have hinitial : (initial repo : Yard P S R T).Recorded :=
    ⟨fun q h => (nomatch h : False).elim, fun p h => (nomatch h : False).elim⟩
  exact Machine.run_invariant (C := fun _ _ => True) (fun _ _ _ hy _ hstep => recorded_step hy hstep) hinitial
    (Machine.meets_of_forall (fun _ _ => trivial) events _) hrun

lemma signed_step {y y' : Yard P S R T} {e : Event P R} (hy : y.Signed) (hspares : y.Spares e)
    (h : y.step steps snapshot e = some y') : y'.Signed := by
  intro hlock'
  -- a gate that is about to write stays there when another one moves
  have hkept : ∀ (p : P) (next : Pc P S T), y.lock = some none → y.pc p ≠ .writePid →
      y'.pc = Function.update y.pc p next → ∃ w, y'.pc w = .writePid := by
    intro p next hlock hp hpc
    obtain ⟨w, hw⟩ := hy hlock
    have hne : w ≠ p := fun heq => hp (heq ▸ hw)
    refine ⟨w, ?_⟩
    rw [hpc, Function.update_of_ne hne]
    exact hw
  have hkilled : ∀ p, y.pc p ≠ .writePid → y' = y.setPc p .killed → ∃ w, y'.pc w = .writePid := by
    rintro p hp rfl
    exact hkept p .killed hlock' hp (pc_setPc y p _)
  cases e with
  | advance p green =>
    by_cases hp : y.pc p = .writePid
    · have hwrite : y' = (y.writePid p).setPc p .setTrap := by
        have hpc : (y.gate p).pc = .writePid := hp
        unfold step at h
        dsimp only at h
        split at h
        · cases h
        · unfold advance at h
          rw [hpc] at h
          exact (Option.some.inj h).symm
      rw [hwrite] at hlock'
      have hsigned : y.lock.map (fun _ => some p) = some none := hlock'
      obtain ⟨old, -, hnone⟩ := Option.map_eq_some_iff.mp hsigned
      cases hnone
    · have hadvance : y.advance steps snapshot p green = some y' := by
        unfold step at h
        dsimp only at h
        split at h
        · cases h
        · exact h
      obtain ⟨⟨next, -, hpc⟩, -⟩ := advance_moves hadvance
      cases effect_advance hadvance with
      | quiet hlock => exact hkept p next (hlock.symm.trans hlock') hp hpc
      | move p' next' hlock => exact hkept p next (hlock.symm.trans hlock') hp hpc
      | take p' hfree hlock hpc' => exact ⟨p', by rw [hpc', Function.update_self]⟩
      | write p' hwrite hlock =>
        rw [hlock'] at hlock
        obtain ⟨old, -, hnone⟩ := Option.map_eq_some_iff.mp hlock.symm
        cases hnone
      | remove hremoves hlock =>
        rw [hlock] at hlock'
        cases hlock'
  | trap p =>
    unfold step at h
    dsimp only at h
    split at h
    · obtain rfl := Option.some.inj h
      cases hlock'
    · cases h
  | signal p =>
    unfold step at h
    dsimp only at h
    split at h
    · cases h
    · split at h
      · obtain rfl := Option.some.inj h
        obtain ⟨w, hw⟩ := hy hlock'
        exact ⟨w, by rw [pc_setPending]; exact hw⟩
      · exact hkilled p (hspares p (.inr rfl)) (Option.some.inj h).symm
  | kill p =>
    unfold step at h
    dsimp only at h
    split at h
    · exact hkilled p (hspares p (.inl rfl)) (Option.some.inj h).symm
    · cases h
  | edit repo =>
    obtain rfl := Option.some.inj h
    exact hy hlock'

lemma signed_run {repo : R} {events : List (Event P R)} {y : Yard P S R T}
    (hmeets : Machine.Meets (step steps snapshot) Spares (initial repo) events)
    (hrun : Machine.run (step steps snapshot) (initial repo) events = some y) : y.Signed := by
  have hinitial : (initial repo : Yard P S R T).Signed := fun h => by cases h
  exact Machine.run_invariant (fun _ _ _ hy hC hstep => signed_step hy hC hstep) hinitial hmeets hrun

/-! ### One gate alone -/

section Alone

variable (gates : P → Gate P S T) (p : P)

/-- One gate stands at `pc`, with no signal waiting; the others stand where they stood. -/
def alone (lock : Option (Option P)) (pc : Pc P S T) (repo : R) : Yard P S R T :=
  ⟨lock, Function.update gates p ⟨pc, false⟩, repo⟩

variable {gates p}

omit [DecidableEq T] in
lemma setPc_alone (lock : Option (Option P)) (pc next : Pc P S T) (repo : R) :
    (alone gates p lock pc repo).setPc p next = alone gates p lock next repo := by
  simp [alone, setPc]

lemma step_alone {lock lock' : Option (Option P)} {pc pc' : Pc P S T} {repo : R}
    (h : (alone gates p lock pc repo).advance steps snapshot p true = some (alone gates p lock' pc' repo)) :
    step steps snapshot (alone gates p lock pc repo) (.advance p true) = some (alone gates p lock' pc' repo) := by
  have hdue : (alone gates p lock pc repo).trapDue p = false := by
    simp [trapDue, alone]
  unfold step
  dsimp only
  rw [hdue]
  exact h

omit [DecidableEq T] in
lemma pc_alone (lock : Option (Option P)) (pc : Pc P S T) (repo : R) :
    ((alone gates p lock pc repo).gate p).pc = pc := by
  simp [alone]

/-- The gate gets from one state to another, its make steps green. -/
def Leads (steps : P → List S) (snapshot : R → T) (p : P) (y y' : Yard P S R T) : Prop :=
  ∃ n, Machine.run (step steps snapshot) y (List.replicate n (.advance p true)) = some y'

lemma Leads.trans {y₁ y₂ y₃ : Yard P S R T} (h : Leads steps snapshot p y₁ y₂) (h' : Leads steps snapshot p y₂ y₃) :
    Leads steps snapshot p y₁ y₃ := by
  obtain ⟨n, hn⟩ := h
  obtain ⟨m, hm⟩ := h'
  refine ⟨n + m, ?_⟩
  rw [← List.replicate_append_replicate, Machine.run_append, hn]
  exact hm

lemma leads_command {lock lock' : Option (Option P)} {pc pc' : Pc P S T} {repo : R}
    (h : (alone gates p lock pc repo).advance steps snapshot p true = some (alone gates p lock' pc' repo)) :
    Leads steps snapshot p (alone gates p lock pc repo) (alone gates p lock' pc' repo) :=
  ⟨1, by rw [List.replicate_one, Machine.run_cons (step_alone h)]; rfl⟩

variable {repo : R}

lemma leads_setPc {lock : Option (Option P)} {pc pc' : Pc P S T}
    (h : (alone gates p lock pc repo).advance steps snapshot p true =
      some ((alone gates p lock pc repo).setPc p pc')) :
    Leads steps snapshot p (alone gates p lock pc repo) (alone gates p lock pc' repo) :=
  leads_command (h.trans (congrArg some (setPc_alone lock pc pc' repo)))

lemma leads_mkdir {pc : Pc P S T} (hpc : pc = .start ∨ pc = .mkdirAgain) :
    Leads steps snapshot p (alone gates p none pc repo) (alone gates p (some none) .writePid repo) := by
  apply leads_command
  unfold advance
  rw [pc_alone]
  rcases hpc with rfl | rfl
  · exact congrArg some (setPc_alone (some none) _ _ repo)
  · exact congrArg some (setPc_alone (some none) _ _ repo)

lemma leads_through : Leads steps snapshot p (alone gates p (some none) .writePid repo)
    (alone gates p none (.exited 0) repo) := by
  have hwrite : Leads steps snapshot p (alone gates p (some none) .writePid repo)
      (alone gates p (some (some p)) .setTrap repo) := by
    apply leads_command
    unfold advance
    rw [pc_alone]
    exact congrArg some (setPc_alone (some (some p)) _ _ repo)
  have htrap : Leads steps snapshot p (alone gates p (some (some p)) .setTrap repo)
      (alone gates p (some (some p)) .snapshotBefore repo) := by
    apply leads_setPc
    unfold advance
    rw [pc_alone]
  have hbefore : Leads steps snapshot p (alone gates p (some (some p)) .snapshotBefore repo)
      (alone gates p (some (some p)) (.betweenSteps (snapshot repo) (steps p)) repo) := by
    apply leads_setPc
    unfold advance
    rw [pc_alone]
    rfl
  have hloop : ∀ rest, Leads steps snapshot p
      (alone gates p (some (some p)) (.betweenSteps (snapshot repo) rest) repo)
      (alone gates p (some (some p)) (.snapshotAfter (snapshot repo) 0) repo) := by
    intro rest
    induction rest with
    | nil =>
      apply leads_setPc
      unfold advance
      rw [pc_alone]
    | cons step rest ih =>
      have hmake : Leads steps snapshot p
          (alone gates p (some (some p)) (.betweenSteps (snapshot repo) (step :: rest)) repo)
          (alone gates p (some (some p)) (.inStep (snapshot repo) (step :: rest)) repo) := by
        apply leads_setPc
        unfold advance
        rw [pc_alone]
      have hgreen : Leads steps snapshot p
          (alone gates p (some (some p)) (.inStep (snapshot repo) (step :: rest)) repo)
          (alone gates p (some (some p)) (.betweenSteps (snapshot repo) rest) repo) := by
        apply leads_setPc
        unfold advance
        rw [pc_alone]
        rfl
      exact hmake.trans (hgreen.trans ih)
  have hafter : Leads steps snapshot p (alone gates p (some (some p)) (.snapshotAfter (snapshot repo) 0) repo)
      (alone gates p (some (some p)) (.exitTrap 0) repo) := by
    apply leads_setPc
    unfold advance
    rw [pc_alone]
    simp [alone]
  have hexit : Leads steps snapshot p (alone gates p (some (some p)) (.exitTrap 0) repo)
      (alone gates p none (.exited 0) repo) := by
    apply leads_command
    unfold advance
    rw [pc_alone]
    exact congrArg some (setPc_alone none _ _ repo)
  exact hwrite.trans (htrap.trans (hbefore.trans ((hloop _).trans (hafter.trans hexit))))

lemma leads_reclaim {q : P} (hne : q ≠ p) (hgone : (gates q).pc.live = false) :
    Leads steps snapshot p (alone gates p (some (some q)) .start repo) (alone gates p (some none) .writePid repo) := by
  have hread : Leads steps snapshot p (alone gates p (some (some q)) .start repo)
      (alone gates p (some (some q)) .readHolder repo) := by
    apply leads_setPc
    unfold advance
    rw [pc_alone]
    rfl
  have htest : Leads steps snapshot p (alone gates p (some (some q)) .readHolder repo)
      (alone gates p (some (some q)) (.testHolder (some q)) repo) := by
    apply leads_setPc
    unfold advance
    rw [pc_alone]
    rfl
  have hstale : Leads steps snapshot p (alone gates p (some (some q)) (.testHolder (some q)) repo)
      (alone gates p (some (some q)) .removeStale repo) := by
    apply leads_setPc
    have hholder : ((alone gates p (some (some q)) (.testHolder (some q)) repo).gate q).pc.live = false := by
      simp [alone, hne, hgone]
    unfold advance
    rw [pc_alone]
    dsimp only
    rw [hholder]
    rfl
  have hremove : Leads steps snapshot p (alone gates p (some (some q)) .removeStale repo)
      (alone gates p none .mkdirAgain repo) := by
    apply leads_command
    unfold advance
    rw [pc_alone]
    exact congrArg some (setPc_alone none _ _ repo)
  exact hread.trans (htest.trans (hstale.trans (hremove.trans (leads_mkdir (.inr rfl)))))

lemma refused {pc : Pc P S T} (hpc : pc ∈ [.start, .readHolder, .testHolder none, .exited 1]) {y : Yard P S R T}
    (h : Leads steps snapshot p (alone gates p (some none) pc repo) y) : y.pc p ≠ .exited 0 := by
  obtain ⟨n, hn⟩ := h
  induction n generalizing pc with
  | zero =>
    obtain rfl := Option.some.inj hn
    change ((alone gates p (some none) pc repo).gate p).pc ≠ .exited 0
    rw [pc_alone]
    rintro rfl
    simp at hpc
  | succ n ih =>
    have hnext : ∀ pc' : Pc P S T, (alone gates p (some none) pc repo).advance steps snapshot p true =
        some ((alone gates p (some none) pc repo).setPc p pc') →
        pc' ∈ [.start, .readHolder, .testHolder none, .exited 1] → y.pc p ≠ .exited 0 := by
      intro pc' hadvance hpc'
      rw [List.replicate_succ, Machine.run_cons (step_alone
        (hadvance.trans (congrArg some (setPc_alone (some none) pc pc' repo))))] at hn
      exact ih hpc' hn
    simp only [List.mem_cons, List.not_mem_nil, or_false] at hpc
    rcases hpc with rfl | rfl | rfl | rfl
    · refine hnext .readHolder ?_ (by simp)
      unfold advance
      rw [pc_alone]
      rfl
    · refine hnext (.testHolder none) ?_ (by simp)
      unfold advance
      rw [pc_alone]
      rfl
    · refine hnext (.exited 1) ?_ (by simp)
      unfold advance
      rw [pc_alone]
    · have hnone : (alone gates p (some none) (.exited 1) repo).step steps snapshot (.advance p true) = none := by
        unfold step advance
        dsimp only
        rw [pc_alone]
        split <;> rfl
      rw [List.replicate_succ, Machine.run, hnone] at hn
      cases hn

end Alone

/-- After any run, a gate that starts when the others have ended, and runs alone on green steps and a still tree, passes
and leaves no lock, unless it finds a lock without a pid, which it refuses; and such a lock is only left when a gate was
killed or ended by a signal before it could write its pid. -/
theorem recovers_iff (steps : P → List S) (snapshot : R → T) {repo : R} {events : List (Event P R)}
    {y : Yard P S R T} (hrun : Machine.run (step steps snapshot) (initial repo) events = some y) {p : P}
    (hstart : y.pc p = .start) (hothers : ∀ q, q ≠ p → y.pc q = .start ∨ (y.pc q).live = false) :
    ((∃ y', Leads steps snapshot p y y' ∧ y'.pc p = .exited 0 ∧ y'.lock = none) ↔ y.lock ≠ some none) ∧
      (Machine.Meets (step steps snapshot) Spares (initial repo) events → y.lock ≠ some none) := by
  have hrecorded := recorded_run hrun
  have hgate : y.gate p = ⟨.start, false⟩ := by
    have hpending : (y.gate p).pending = false := Bool.eq_false_iff.mpr fun h => hrecorded.waiting p h hstart
    have hpc : (y.gate p).pc = .start := hstart
    rw [← hpc, ← hpending]
  have hy : y = alone y.gate p y.lock .start y.repo := by
    unfold alone
    rw [← hgate, Function.update_eq_self]
  refine ⟨⟨?_, fun hlock => ?_⟩, fun hmeets hnone => ?_⟩
  · rintro ⟨y', hleads, hexited, -⟩ hnone
    rw [hnone] at hy
    rw [hy] at hleads
    exact refused (by simp) hleads hexited
  · have hends : ∀ {lock}, Leads steps snapshot p (alone y.gate p lock .start y.repo)
        (alone y.gate p (some none) .writePid y.repo) → y.lock = lock →
        ∃ y', Leads steps snapshot p y y' ∧ y'.pc p = .exited 0 ∧ y'.lock = none := by
      intro lock hleads heq
      rw [heq] at hy
      have hthrough := hleads.trans leads_through
      rw [← hy] at hthrough
      exact ⟨_, hthrough, pc_alone _ _ _, rfl⟩
    cases hheld : y.lock with
    | none => exact hends (leads_mkdir (.inl rfl)) hheld
    | some pid =>
      cases pid with
      | none => exact absurd hheld hlock
      | some q =>
        have hstarted := hrecorded.started q hheld
        have hne : q ≠ p := fun heq => hstarted (heq ▸ hstart)
        exact hends (leads_reclaim hne ((hothers q hne).resolve_left hstarted)) hheld
  · obtain ⟨w, hw⟩ := signed_run hmeets hrun hnone
    have hne : w ≠ p := by
      rintro rfl
      rw [hw] at hstart
      cases hstart
    rcases hothers w hne with h | h
    · rw [hw] at h
      cases h
    · rw [hw] at h
      cases h

/-- One gate is killed in its first step, and another one starts. -/
theorem recovers_iff_killed : ∃ y y' : Yard Bool Unit Unit Unit,
    Machine.run (step (fun _ => [()]) id) (initial ()) (toFirstStep false ++ [.kill false]) = some y ∧
      Leads (fun _ => [()]) id true y y' ∧ y'.pc true = .exited 0 ∧ y'.lock = none := by
  have hrun : Machine.run (step (fun _ => [()]) id) (initial ()) (toFirstStep false ++ [.kill false]) =
      some (⟨some (some false), fun p => if p then ⟨.start, false⟩ else ⟨.killed, false⟩, ()⟩ :
        Yard Bool Unit Unit Unit) := by
    refine congrArg some (congrArg (fun gate => (⟨some (some false), gate, ()⟩ : Yard Bool Unit Unit Unit)) ?_)
    funext p
    cases p <;> rfl
  obtain ⟨y', hleads, hexited, hlock⟩ := (recovers_iff (fun _ => [()]) id hrun (p := true) rfl (fun q hq => by
    cases q
    · exact .inr rfl
    · exact absurd rfl hq)).1.mpr (by simp)
  exact ⟨_, y', hrun, hleads, hexited, hlock⟩

end Yard

end SciForge.Tools
