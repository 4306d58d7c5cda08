import SciForge.Tools.Published

/-!
# Releases that do not commit

What the trap of the release script undoes, and what it does not: the index, a tracked `$notes.tmp`, the files that
its commands do not get to, and those that an ignore rule of the bump hides from them.
-/

namespace SciForge.Tools.Release

variable {B C : Type}

/-! ### The work of the trap -/

def restored (cfg : Settings) (trap : Restoring) (r : Git.Repo String B C) : Git.Repo String B C :=
  let repo := (r.checkout trap.checkout).clean (fun path => cfg.cleaned path && trap.clean path)
  if trap.rm then repo.write cfg.tmp none else repo

/-- `rm` removes the file, or `git clean` by the rules of the index's files. -/
def Restoring.removes (cfg : Settings) (trap : Restoring) (r : Git.Repo String B C) (path : String) : Bool :=
  (path == cfg.tmp && trap.rm) ||
    ((r.index path).isNone && !r.ignore r.overlaid path && (cfg.cleaned path && trap.clean path))

/-- The files of the index, and the untracked ones that are not removed. -/
def Restoring.spared (cfg : Settings) (trap : Restoring) (r : Git.Repo String B C) : Git.Tree String B :=
  fun path => if trap.removes cfg r path then none else r.overlaid path

/-- Every tracked file that differs from the index is checked out, a tracked `$notes.tmp` is not removed, and an
untracked file is removed, or ignored by the rules of the files spared. -/
structure Restores (cfg : Settings) (trap : Restoring) (r : Git.Repo String B C) : Prop where
  tracked : ∀ path, (r.index path).isSome = true → r.work path ≠ r.index path → trap.checkout path = true
  tmp : (r.index cfg.tmp).isSome = true → trap.rm = false
  untracked : ∀ path, r.index path = none → (r.work path).isSome = true → trap.removes cfg r path = false →
    r.ignore (trap.spared cfg r) path = true

section

variable {cfg : Settings} {trap : Restoring} {r r₀ : Git.Repo String B C}

lemma restored_eq (cfg : Settings) (trap : Restoring) (r : Git.Repo String B C) :
    ∃ work, restored cfg trap r = { r with work := work } := by
  unfold restored
  cases trap.rm
  · exact ⟨_, rfl⟩
  · exact ⟨_, rfl⟩

lemma index_restored (cfg : Settings) (trap : Restoring) (r : Git.Repo String B C) :
    (restored cfg trap r).index = r.index := by
  obtain ⟨work, h⟩ := restored_eq cfg trap r
  rw [h]

lemma work_clean (cfg : Settings) (trap : Restoring) (r : Git.Repo String B C) {path : String}
    (h : ¬(path = cfg.tmp ∧ trap.rm = true)) : (restored cfg trap r).work path =
      ((r.checkout trap.checkout).clean (fun path => cfg.cleaned path && trap.clean path)).work path := by
  unfold restored
  cases hrm : trap.rm with
  | false => rfl
  | true => exact Function.update_of_ne (fun htmp => h ⟨htmp, hrm⟩) _ _

lemma work_tracked {path : String} (htracked : (r.index path).isSome = true) (h : ¬(path = cfg.tmp ∧ trap.rm = true)) :
    (restored cfg trap r).work path = if trap.checkout path then r.index path else r.work path := by
  rw [work_clean cfg trap r h]
  obtain ⟨b, hb⟩ := Option.isSome_iff_exists.mp htracked
  cases hreach : trap.checkout path <;> simp [Git.Repo.clean, Git.Repo.checkout, hb, hreach]

lemma rm_of_tracked (h : (r.index cfg.tmp).isSome = true → trap.rm = false) {path : String}
    (htracked : (r.index path).isSome = true) : ¬(path = cfg.tmp ∧ trap.rm = true) := by
  rintro ⟨rfl, hrm⟩
  rw [h htracked] at hrm
  cases hrm

lemma work_tmp (hrm : trap.rm = true) : (restored cfg trap r).work cfg.tmp = none := by
  unfold restored Git.Repo.write
  rw [hrm, if_pos rfl]
  exact Function.update_self _ _ _

lemma ignore_restored (cfg : Settings) (trap : Restoring) (r : Git.Repo String B C) :
    (restored cfg trap r).ignore = r.ignore := by
  obtain ⟨work, h⟩ := restored_eq cfg trap r
  rw [h]

lemma work_restored (h : ∀ path, (r.index path).isSome = true → r.work path ≠ r.index path → trap.checkout path = true) :
    (restored cfg trap r).work = trap.spared cfg r := by
  funext path
  unfold Restoring.spared Restoring.removes
  by_cases htmp : path = cfg.tmp ∧ trap.rm = true
  · obtain ⟨rfl, hrm⟩ := htmp
    rw [work_tmp hrm, hrm, beq_self_eq_true, Bool.and_self, Bool.true_or, if_pos rfl]
  · have hstays : (path == cfg.tmp && trap.rm) = false := by
      rw [Bool.and_eq_false_iff, beq_eq_false_iff_ne]
      by_contra hboth
      push Not at hboth
      exact htmp ⟨hboth.1, by simpa using hboth.2⟩
    rw [work_clean cfg trap r htmp, hstays, Bool.false_or, ← Git.Repo.work_checkout h]
    rfl

lemma work_spared {path : String} (huntracked : r.index path = none) (h : trap.removes cfg r path = false) :
    trap.spared cfg r path = r.work path := by
  unfold Restoring.spared Git.Repo.overlaid
  rw [h, if_neg Bool.false_ne_true, huntracked, Option.none_or]

/-- The trap leaves the tree as the index has it exactly when it restores. -/
lemma settled_restored_iff : (restored cfg trap r).Settled ↔ Restores cfg trap r := by
  constructor
  · intro h
    have htracked : ∀ path, (r.index path).isSome = true → (restored cfg trap r).work path = r.index path := by
      intro path hpath
      rw [h.tracked path (by rwa [index_restored]), index_restored]
    have htmp : (r.index cfg.tmp).isSome = true → trap.rm = false := by
      intro hindexed
      by_contra hrm
      rw [← htracked _ hindexed, work_tmp (by simpa using hrm)] at hindexed
      cases hindexed
    have hreached : ∀ path, (r.index path).isSome = true → r.work path ≠ r.index path → trap.checkout path = true := by
      intro path hpath hdiffers
      by_contra hreach
      have hstays := (work_tracked hpath (rm_of_tracked htmp hpath)).symm.trans (htracked path hpath)
      rw [if_neg hreach] at hstays
      exact hdiffers hstays
    refine ⟨hreached, htmp, fun path hpath hthere hgone => ?_⟩
    by_contra hvisible
    have hnone := h.untracked path (by rwa [index_restored])
      (by rw [Git.Repo.ignored, ignore_restored, work_restored hreached]; simpa using hvisible)
    rw [work_restored hreached, work_spared hpath hgone] at hnone
    rw [hnone] at hthere
    cases hthere
  · intro h
    constructor
    · intro path hpath
      rw [index_restored] at hpath ⊢
      rw [work_tracked hpath (rm_of_tracked h.tmp hpath)]
      split
      · rfl
      · next hreach =>
        by_contra hdiffers
        exact hreach (h.tracked path hpath hdiffers)
    · intro path hpath hvisible
      rw [index_restored] at hpath
      rw [Git.Repo.ignored, ignore_restored, work_restored h.tracked] at hvisible
      rw [work_restored h.tracked]
      cases hgone : trap.removes cfg r path with
      | true => exact if_pos hgone
      | false =>
        rw [work_spared hpath hgone]
        cases hthere : r.work path with
        | none => rfl
        | some b =>
          rw [h.untracked path hpath (by rw [hthere]; rfl) hgone] at hvisible
          cases hvisible

end

/-! ### Before the commit -/

/-- HEAD, the index and the visible files are those at the start, the tags too, but for those that were fetched. -/
structure AsFound (offered : String → C → Prop) (start s : Script B C) : Prop where
  head : s.repo.head = start.repo.head
  kept : ∀ name c, start.tags.get name = some c → s.tags.get name = some c
  tags : ∀ name c, s.tags.get name = some c → start.tags.get name = some c ∨ offered name c
  index : s.repo.index = start.repo.index
  content : ∀ path, s.repo.content path = start.repo.content path

/-- Nothing is staged, and the work tree changes under the trap only. -/
structure Rolls (start s : Script B C) : Prop where
  index : s.repo.index = start.repo.index
  uncommitted : s.committed = false
  early : s.trapped = false → s.repo = start.repo
  armed : s.pc.phase = .changing → s.trapped = true
  unpublished : s.pc.phase ≠ .publishing
  settled : s.pc.phase = .ended → s.repo.Settled

/-- Before the release commit, `git add` stages nothing new, and the trap of the exit restores. -/
def Undoable (cfg : Settings) (s : Script B C) (e : Event B C) : Prop :=
  s.made = none → ∀ o, e = .command o →
    (s.pc = .add → o.staged = true → (s.repo.add cfg.added).index = s.repo.index) ∧
    (s.pc.phase = .leaving → s.trapped = true → Restores cfg o.trap s.repo)

section

variable {cfg : Settings} {start s s' : Script B C}

lemma restore_of_uncommitted (h : s.committed = false) (trap : Restoring) :
    s.restore cfg trap = { s with repo := restored cfg trap s.repo } := by
  unfold Script.restore restored
  rw [h, if_neg Bool.false_ne_true]

lemma phase_of_within {pc next : Pc} (hbefore : pc.beforeCommit = true) (hwithin : pc.Within next) :
    next.phase ≠ .publishing ∧ next.phase ≠ .ended ∧ (next.phase = .changing → pc.phase = .changing) := by
  unfold Pc.beforeCommit at hbefore
  rcases hwithin with hsame | hleave
  · rw [hsame]
    refine ⟨?_, ?_, id⟩ <;> intro hphase <;> rw [hphase] at hbefore <;> cases hbefore
  · rw [hleave]
    exact ⟨nofun, nofun, nofun⟩

lemma Rolls.go (h : Rolls start s) (hbefore : s.pc.beforeCommit = true) (hwithin : s.pc.Within s'.pc)
    (hindex : s'.repo.index = s.repo.index) (hcommitted : s'.committed = s.committed)
    (htrapped : s'.trapped = s.trapped) (hrepo : s.trapped = true ∨ s'.repo = s.repo) : Rolls start s' := by
  obtain ⟨hpublishing, hended, hchanging⟩ := phase_of_within hbefore hwithin
  refine ⟨hindex.trans h.index, hcommitted.trans h.uncommitted, fun huntrapped => ?_,
    fun hphase => htrapped.trans (h.armed (hchanging hphase)), hpublishing, fun hphase => absurd hphase hended⟩
  rw [htrapped] at huntrapped
  rcases hrepo with harmed | hrepo
  · rw [harmed] at huntrapped
    cases huntrapped
  · exact hrepo.trans (h.early huntrapped)

lemma rolls_start (repo : Git.Repo String B C) (tags : Dict String C) (remote : Remote C) :
    Rolls (Script.start repo tags remote) (Script.start repo tags remote) :=
  ⟨rfl, rfl, fun _ => rfl, nofun, nofun, nofun⟩

variable [DecidableEq C] {objects : Objects B C}

lemma made_of_step {e : Event B C} (hstep : s.step cfg objects e = some s') (hmade : s'.made = none) :
    s.made = none := by
  cases e with
  | command o =>
    cases command_effect hstep with
    | fetched _ _ _ _ hs =>
      obtain ⟨tags, hfetch, -, -⟩ := fetch_spec s o.reached
      rw [hs, hfetch] at hmade
      exact hmade
    | left _ _ hs =>
      obtain ⟨work, hrestore⟩ := restore_eq cfg s o.trap
      rw [hs, hrestore] at hmade
      split at hmade <;> exact hmade
    | committed _ _ _ _ hs =>
      rw [hs] at hmade
      cases hmade
    | pass _ _ _ _ hs | opened _ _ hs | armed _ hs | wrote _ _ _ _ _ _ hs | staged _ _ _ hs | marked _ hs
      | tagged _ _ _ _ hs | tagsMade _ hs | unpublished _ hs | pushed _ _ _ hs =>
      rw [hs] at hmade
      exact hmade
  | signal trap =>
    obtain ⟨-, ⟨-, rfl⟩ | ⟨-, rfl⟩⟩ := signal_cases hstep
    · obtain ⟨work, hrestore⟩ := restore_eq cfg s trap
      rw [hrestore] at hmade
      exact hmade
    · exact hmade
  | elsewhere remote =>
    obtain ⟨-, -, rfl⟩ := elsewhere_cases hstep
    exact hmade

lemma rolls_command {o : Outcome B} (h : Rolls start s) (hmade : s.made = none)
    (hundo : Undoable cfg s (.command o : Event B C)) (hsettled : start.repo.Settled)
    (hstep : s.command cfg objects o = some s') (hmade' : s'.made = none) : Rolls start s' := by
  obtain ⟨hadd, hrestores⟩ := hundo hmade o rfl
  cases command_effect hstep with
  | pass next names hbefore hwithin hs =>
    subst hs
    exact h.go hbefore hwithin rfl rfl rfl (.inr rfl)
  | opened hat hfile hs =>
    subst hs
    exact ⟨h.index, h.uncommitted, h.early, nofun, nofun, nofun⟩
  | fetched hat _ next hwithin hs =>
    obtain ⟨tags, hfetch, -, -⟩ := fetch_spec s o.reached
    rw [hfetch] at hs
    subst hs
    exact h.go (by rw [hat]; rfl) hwithin rfl rfl rfl (.inr rfl)
  | armed hat hs =>
    subst hs
    exact ⟨h.index, h.uncommitted, nofun, fun _ => rfl, nofun, nofun⟩
  | wrote work next names hphase hwithin hwork hs =>
    subst hs
    exact h.go (beforeCommit_of_changing hphase) hwithin rfl rfl rfl (.inl (h.armed hphase))
  | staged hat next hnext hs =>
    subst hs
    have hphase : s.pc.phase = .changing := by rw [hat]; rfl
    have hwithin : s.pc.Within next := by
      rw [hat]
      rcases hnext with rfl | rfl
      · exact .inl rfl
      · exact .inr rfl
    refine h.go (beforeCommit_of_changing hphase) hwithin ?_ rfl rfl (.inl (h.armed hphase))
    dsimp only
    split
    · next hstaged => exact hadd hat hstaged
    · rfl
  | committed hat c hc hnew hs =>
    subst hs
    cases hmade'
  | marked hat hs | tagged _ _ hat _ hs | tagsMade hat hs | pushed hat _ _ hs =>
    exact absurd (by rw [hat]; rfl) h.unpublished
  | unpublished hphase hs => exact absurd hphase h.unpublished
  | left code hat hs =>
    subst hs
    cases htrapped : s.trapped with
    | false =>
      have hrepo := h.early htrapped
      exact ⟨h.index, h.uncommitted, fun _ => hrepo, nofun, nofun, fun _ => hrepo ▸ hsettled⟩
    | true =>
      rw [if_pos rfl, restore_of_uncommitted h.uncommitted]
      refine ⟨(index_restored cfg o.trap s.repo).trans h.index, h.uncommitted, fun huntrapped => ?_, nofun, nofun,
        fun _ => settled_restored_iff.mpr (hrestores (by rw [hat]; rfl) htrapped)⟩
      cases htrapped.symm.trans huntrapped

lemma rolls_step {e : Event B C} (h : s.made = none → Rolls start s) (hundo : Undoable cfg s e)
    (hsettled : start.repo.Settled) (hstep : s.step cfg objects e = some s') (hmade' : s'.made = none) :
    Rolls start s' := by
  have hmade := made_of_step hstep hmade'
  have hrolls := h hmade
  cases e with
  | command o => exact rolls_command hrolls hmade hundo hsettled hstep hmade'
  | signal trap =>
    obtain ⟨hgoing, ⟨htrapped, rfl⟩ | ⟨huntrapped, rfl⟩⟩ := signal_cases hstep
    · rw [restore_of_uncommitted hrolls.uncommitted]
      refine ⟨(index_restored cfg trap s.repo).trans hrolls.index, hrolls.uncommitted, fun huntrapped => ?_,
        hrolls.armed, hrolls.unpublished, fun hphase => absurd hphase hgoing⟩
      cases htrapped.symm.trans huntrapped
    · have hrepo := hrolls.early huntrapped
      exact ⟨hrolls.index, hrolls.uncommitted, hrolls.early, nofun, nofun, fun _ => hrepo ▸ hsettled⟩
  | elsewhere remote =>
    obtain ⟨-, -, rfl⟩ := elsewhere_cases hstep
    exact ⟨hrolls.index, hrolls.uncommitted, hrolls.early, hrolls.armed, hrolls.unpublished, hrolls.settled⟩

/-! ### What restoring does not undo -/

/-- The index holds what was staged, up to the end, or the script ended over files that differ. -/
def Spoiled (start s : Script B C) : Prop :=
  (s.repo.index ≠ start.repo.index ∧ (s.pc = .commit ∨ s.pc.phase = .leaving ∨ s.pc.phase = .ended)) ∨
    (s.repo.index = start.repo.index ∧ ¬s.repo.Settled ∧ s.pc.phase = .ended)

lemma command_commit {o : Outcome B} (hat : s.pc = .commit) (h : s.command cfg objects o = some s') :
    s'.made ≠ none ∨ s' = { s with pc := .exiting 1 } := by
  unfold Script.command at h
  rw [hat] at h
  dsimp only at h
  split at h
  · split at h
    · cases h
    · obtain rfl := Option.some.inj h
      exact .inl (Option.some_ne_none _)
  · obtain rfl := Option.some.inj h
    exact .inr rfl

lemma command_exit {o : Outcome B} (hphase : s.pc.phase = .leaving) (h : s.command cfg objects o = some s') :
    ∃ code, s' = { (if s.trapped then s.restore cfg o.trap else s) with pc := .exited code } := by
  unfold Script.command at h
  cases hat : s.pc with
  | exiting code =>
    rw [hat] at h
    exact ⟨code, (Option.some.inj h).symm⟩
  | _ =>
    rw [hat] at hphase
    cases hphase

lemma spoiled_step {e : Event B C} (h : s.made = none → Spoiled start s) (hstep : s.step cfg objects e = some s')
    (hmade : s'.made = none) : Spoiled start s' := by
  have hspoiled := h (made_of_step hstep hmade)
  cases e with
  | command o =>
    have hover : s.pc.phase ≠ .ended := by
      intro hphase
      cases (no_command_of_ended hphase).symm.trans hstep
    obtain ⟨hindex, hpc⟩ := hspoiled.resolve_right (fun hended => hover hended.2.2)
    rcases hpc with hat | hphase | hphase
    · obtain rfl := (command_commit hat hstep).resolve_left (fun hmade' => hmade' hmade)
      exact .inl ⟨hindex, .inr (.inl rfl)⟩
    · obtain ⟨code, rfl⟩ := command_exit hphase hstep
      obtain ⟨work, hrestore⟩ := restore_eq cfg s o.trap
      rw [hrestore]
      refine .inl ⟨?_, .inr (.inr rfl)⟩
      split <;> exact hindex
    · exact absurd hphase hover
  | signal trap =>
    obtain ⟨hgoing, hcases⟩ := signal_cases hstep
    obtain ⟨hindex, hpc⟩ := hspoiled.resolve_right (fun hended => hgoing hended.2.2)
    obtain ⟨-, rfl⟩ | ⟨-, rfl⟩ := hcases
    · obtain ⟨work, hrestore⟩ := restore_eq cfg s trap
      rw [hrestore]
      exact .inl ⟨hindex, hpc⟩
    · exact .inl ⟨hindex, .inr (.inr rfl)⟩
  | elsewhere remote =>
    obtain ⟨-, -, rfl⟩ := elsewhere_cases hstep
    exact hspoiled

/-- A step that is not undoable spoils the repository. -/
lemma spoiled_of_not_undoable {e : Event B C} (h : s.made = none → Rolls start s) (hundo : ¬Undoable cfg s e)
    (hstep : s.step cfg objects e = some s') : Spoiled start s' := by
  unfold Undoable at hundo
  push Not at hundo
  obtain ⟨hmade, o, rfl, hundo⟩ := hundo
  have hrolls := h hmade
  by_cases hadd : s.pc = .add ∧ o.staged = true ∧ (s.repo.add cfg.added).index ≠ s.repo.index
  · obtain ⟨hat, hstaged, hindex⟩ := hadd
    rw [hrolls.index] at hindex
    obtain ⟨next, hnext, rfl⟩ := command_add hat hstep
    rw [hstaged, if_pos rfl]
    refine .inl ⟨hindex, ?_⟩
    rcases hnext with rfl | rfl
    · exact .inl rfl
    · exact .inr (.inl rfl)
  · obtain ⟨hphase, htrapped, hfails⟩ := hundo (fun hat hstaged => by_contra (fun hindex => hadd ⟨hat, hstaged, hindex⟩))
    obtain ⟨code, rfl⟩ := command_exit hphase hstep
    rw [htrapped, if_pos rfl, restore_of_uncommitted hrolls.uncommitted]
    exact .inr ⟨(index_restored cfg o.trap s.repo).trans hrolls.index, fun hsettled =>
      hfails (settled_restored_iff.mp hsettled), rfl⟩

omit [DecidableEq C] in
lemma Spoiled.not_asFound {offered : String → C → Prop} (h : Spoiled start s) (hsettled : start.repo.Settled) :
    ¬AsFound offered start s := by
  intro hfound
  rcases h with ⟨hindex, -⟩ | ⟨-, hlost, -⟩
  · exact hindex hfound.index
  · refine hlost (Git.Repo.settled_iff.mpr (fun path => ?_))
    rw [hfound.content, hfound.index, Git.Repo.settled_iff.mp hsettled]

omit [DecidableEq C] in
lemma Rolls.content (h : Rolls start s) (hsettled : start.repo.Settled) (hended : s.ended = true) (path : String) :
    s.repo.content path = start.repo.content path := by
  rw [Git.Repo.settled_iff.mp (h.settled (ended_iff.mp hended)), h.index, Git.Repo.settled_iff.mp hsettled]

end

/-- From a clean repository, a script that ends without a release commit leaves everything as it found it exactly
when its commands were undoable. -/
theorem asFound_iff_undoable [DecidableEq B] [DecidableEq C] (cfg : Settings) (objects : Objects B C)
    {repo : Git.Repo String B C} (tags : Dict String C) (remote : Remote C) {events : List (Event B C)}
    {s : Script B C} (hclean : repo.Clean objects.tree)
    (hrun : Machine.run (Script.step cfg objects) (Script.start repo tags remote) events = some s)
    (hended : s.ended = true) (hmade : s.made = none) :
    AsFound (Offered remote events) (Script.start repo tags remote) s ↔
      Machine.Meets (Script.step cfg objects) (Undoable cfg) (Script.start repo tags remote) events := by
  have hsettled : repo.Settled := hclean.settled
  have hrolls : ∀ {events : List (Event B C)} {s : Script B C},
      Machine.Meets (Script.step cfg objects) (Undoable cfg) (Script.start repo tags remote) events →
      Machine.run (Script.step cfg objects) (Script.start repo tags remote) events = some s → s.made = none →
      Rolls (Script.start repo tags remote) s := by
    intro events s hmeets hrun
    exact Machine.run_invariant (I := fun s => s.made = none → Rolls (Script.start repo tags remote) s)
      (fun _ _ _ h hundo hstep => rolls_step h hundo hsettled hstep) (fun _ => rolls_start repo tags remote) hmeets hrun
  constructor
  · intro hfound
    by_contra hmeets
    obtain ⟨done, s₁, e, s₂, rest, hdone, hreach, hundo, hstep, hlast⟩ := Machine.exists_of_not_meets hmeets hrun
    have hspoiled := Machine.run_invariant (C := fun _ _ => True)
      (I := fun s => s.made = none → Spoiled (Script.start repo tags remote) s)
      (fun _ _ _ h _ hstep => spoiled_step h hstep)
      (fun _ => spoiled_of_not_undoable (hrolls hdone hreach) hundo hstep)
      (Machine.meets_of_forall (fun _ _ => trivial) rest s₂) hlast hmade
    exact hspoiled.not_asFound hsettled hfound
  · intro hmeets
    have hkept := hrolls hmeets hrun hmade
    have hsound := sound_run hrun
    refine ⟨?_, hsound.kept, fun name c htag => ?_, hkept.index, hkept.content hsettled hended⟩
    · rw [hsound.head, hmade, Option.getD_none]
    · refine (hsound.own name c htag).imp id (fun hown => hown.resolve_right (fun hnew => ?_))
      rw [hmade] at hnew
      cases hnew.1

/-! ### A trap whose commands work -/

lemma pathspec_of_covers {entry path : String} (h : Settings.covers entry path = true) :
    Settings.pathspec entry path = true := by
  unfold Settings.covers at h
  unfold Settings.pathspec
  split at h
  · next hdir => rw [if_pos hdir, h, Bool.or_true]
  · rw [h, Bool.true_or]

lemma allowed_cases {cfg : Settings} (hnotes : isDirectory cfg.notes = false) {path : String}
    (h : cfg.allowed path = true) : path = cfg.notes ∨ cfg.cleaned path = true := by
  unfold Settings.allowed at h
  rw [List.any_cons, Bool.or_eq_true] at h
  rcases h with h | h
  · left
    simpa [Settings.covers, hnotes] using h
  · right
    obtain ⟨entry, hentry, hcovers⟩ := List.any_eq_true.mp h
    unfold Settings.cleaned
    rw [Bool.or_eq_true]
    exact .inr (List.any_eq_true.mpr ⟨entry, hentry, pathspec_of_covers hcovers⟩)

/-- The repository differs from the first only in files the script may write. -/
structure Touched (cfg : Settings) (r₀ r : Git.Repo String B C) : Prop where
  index : r.index = r₀.index
  ignore : r.ignore = r₀.ignore
  work : ∀ path, cfg.touches path = false → r.work path = r₀.work path

/-- No ignore rule lies in a file the script may write. -/
def Settings.Apart (cfg : Settings) (r : Git.Repo String B C) : Prop :=
  ∀ work, (∀ path, cfg.touches path = false → work path = r.work path) → r.ignore work = r.ignore r.work

/-- Before the release commit, `git add` stages nothing new, and the commands of the trap work at the exit. -/
def Whole (cfg : Settings) (s : Script B C) (e : Event B C) : Prop :=
  s.made = none → ∀ o, e = .command o →
    (s.pc = .add → o.staged = true → (s.repo.add cfg.added).index = s.repo.index) ∧
    (s.pc.phase = .leaving → s.trapped = true → o.trap = .whole)

/-- The release writes its own files, over a notes file that was there. -/
structure Tidy (cfg : Settings) (start s : Script B C) : Prop where
  touched : Touched cfg start.repo s.repo
  file : s.pc.phase = .checking ∨ s.trapped = true → cfg.isFile start.repo = true

section

variable {cfg : Settings} {r₀ r : Git.Repo String B C}

lemma Touched.ignored (h : Touched cfg r₀ r) (hapart : cfg.Apart r₀) (path : String) :
    r.ignored path = r₀.ignored path := by
  unfold Git.Repo.ignored
  rw [h.ignore, hapart r.work h.work]

lemma Touched.wrote {work : Git.Tree String B} (h : Touched cfg r₀ r)
    (hwork : ∀ path, cfg.touches path = false → work path = r.work path) : Touched cfg r₀ { r with work := work } :=
  ⟨h.index, h.ignore, fun path hpath => (hwork path hpath).trans (h.work path hpath)⟩

lemma Touched.checkout (h : Touched cfg r₀ r) (hsettled : r₀.Settled) (scope : String → Bool) :
    Touched cfg r₀ (r.checkout scope) := by
  refine ⟨h.index, h.ignore, fun path hpath => ?_⟩
  unfold Git.Repo.checkout
  dsimp only
  split
  · next hscope =>
    have htracked := (Bool.and_eq_true_iff.mp hscope).2
    rw [h.index] at htracked ⊢
    exact (hsettled.tracked path htracked).symm
  · exact h.work path hpath

lemma touched_restored (hsettled : r₀.Settled) (hapart : cfg.Apart r₀) (h : Touched cfg r₀ r) (trap : Restoring) :
    Touched cfg r₀ (restored cfg trap r) := by
  refine ⟨(index_restored cfg trap r).trans h.index, (ignore_restored cfg trap r).trans h.ignore, fun path hpath => ?_⟩
  have hchecked := h.checkout hsettled trap.checkout
  rw [work_clean cfg trap r (fun htmp => (touches_ne hpath).1 htmp.1)]
  unfold Git.Repo.clean
  dsimp only
  split
  · next hgone =>
    simp only [Bool.and_eq_true, Bool.not_eq_true', Option.isNone_iff_eq_none] at hgone
    rw [hchecked.index, hchecked.ignored hapart] at hgone
    rw [hsettled.untracked path hgone.1.1 hgone.1.2]
  · exact hchecked.work path hpath

/-- The trap undoes all that the release may write. -/
lemma restores_of_touched (hsettled : r₀.Settled) (hapart : cfg.Apart r₀) (hnotes : cfg.isFile r₀ = true)
    (htmp : r₀.index cfg.tmp = none) (h : Touched cfg r₀ r) : Restores cfg .whole r := by
  obtain ⟨hthere, hslash⟩ := Bool.and_eq_true_iff.mp hnotes
  refine ⟨fun _ _ _ => rfl, fun htracked => ?_, fun path huntracked hpresent hstays => ?_⟩
  · rw [h.index, htmp] at htracked
    cases htracked
  · rw [← work_restored (fun _ _ _ => rfl), ← ignore_restored cfg .whole r]
    change (restored cfg .whole r).ignored path = true
    rw [(touched_restored hsettled hapart h .whole).ignored hapart]
    by_contra hvisible
    have hindex : r₀.index path = none := h.index ▸ huntracked
    have hgone : r₀.work path = none := hsettled.untracked path hindex (by simpa using hvisible)
    have htouched : cfg.touches path = true := by
      by_contra huntouched
      rw [h.work path (by simpa using huntouched), hgone] at hpresent
      cases hpresent
    have hoverlaid : r.overlaid = (r.checkout (fun _ => true)).work := (Git.Repo.work_checkout (fun _ _ _ => rfl)).symm
    have hrules : r.ignore r.overlaid path = false := by
      rw [hoverlaid]
      change (r.checkout (fun _ => true)).ignored path = false
      rw [(h.checkout hsettled _).ignored hapart]
      simpa using hvisible
    have hne_tmp : path ≠ cfg.tmp := by
      rintro rfl
      simp [Restoring.removes, Restoring.whole] at hstays
    have hne_notes : path ≠ cfg.notes := by
      rintro rfl
      rw [hgone] at hthere
      cases hthere
    have hallowed : cfg.allowed path = true := by simpa [Settings.touches, hne_tmp, hne_notes] using htouched
    have hscope := (allowed_cases (by simpa using hslash) hallowed).resolve_left hne_notes
    simp [Restoring.removes, Restoring.whole, huntracked, hrules, hscope] at hstays

variable {start s s' : Script B C}

lemma tidy_start (repo : Git.Repo String B C) (tags : Dict String C) (remote : Remote C) :
    Tidy cfg (Script.start repo tags remote) (Script.start repo tags remote) :=
  ⟨⟨rfl, rfl, fun _ _ => rfl⟩, nofun⟩

lemma Tidy.go (h : Tidy cfg start s) (hwithin : s.pc.Within s'.pc)
    (htrapped : s'.trapped = s.trapped) (htouched : Touched cfg start.repo s'.repo) : Tidy cfg start s' := by
  refine ⟨htouched, fun hpc => h.file ?_⟩
  rw [htrapped] at hpc
  refine hpc.imp (fun hphase => ?_) id
  rcases hwithin with hsame | hleave
  · rw [← hsame, hphase]
  · rw [hleave] at hphase
    cases hphase

variable [DecidableEq C] {objects : Objects B C}

lemma tidy_command {o : Outcome B} (hrolls : Rolls start s) (h : Tidy cfg start s) (hmade : s.made = none)
    (hwhole : Whole cfg s (.command o : Event B C)) (hsettled : start.repo.Settled) (hapart : cfg.Apart start.repo)
    (hstep : s.command cfg objects o = some s') (hmade' : s'.made = none) : Tidy cfg start s' := by
  obtain ⟨hadd, -⟩ := hwhole hmade o rfl
  cases command_effect hstep with
  | pass next names hbefore hwithin hs =>
    subst hs
    exact h.go hwithin rfl h.touched
  | opened hat hfile hs =>
    subst hs
    refine ⟨h.touched, fun _ => ?_⟩
    cases htrapped : s.trapped with
    | false => rwa [← hrolls.early htrapped]
    | true => exact h.file (.inr htrapped)
  | fetched hat _ next hwithin hs =>
    obtain ⟨tags, hfetch, -, -⟩ := fetch_spec s o.reached
    rw [hfetch] at hs
    subst hs
    exact h.go hwithin rfl h.touched
  | armed hat hs =>
    subst hs
    exact ⟨h.touched, fun _ => h.file (.inl (by rw [hat]; rfl))⟩
  | wrote work next names hphase hwithin hwork hs =>
    subst hs
    exact h.go hwithin rfl (h.touched.wrote hwork)
  | staged hat next hnext hs =>
    subst hs
    have hphase : s.pc.phase = .changing := by rw [hat]; rfl
    refine ⟨?_, fun _ => h.file (.inr (hrolls.armed hphase))⟩
    dsimp only
    split
    · next hstaged => exact ⟨(hadd hat hstaged).trans h.touched.index, h.touched.ignore, h.touched.work⟩
    · exact h.touched
  | committed hat c hc hnew hs =>
    subst hs
    cases hmade'
  | marked hat hs | tagged _ _ hat _ hs | tagsMade hat hs | pushed hat _ _ hs =>
    exact absurd (by rw [hat]; rfl) hrolls.unpublished
  | unpublished hphase hs => exact absurd hphase hrolls.unpublished
  | left code hat hs =>
    subst hs
    cases htrapped : s.trapped with
    | false => exact ⟨h.touched, fun hpc => absurd hpc (by simp [Pc.phase, htrapped])⟩
    | true =>
      rw [if_pos rfl, restore_of_uncommitted hrolls.uncommitted]
      exact ⟨touched_restored hsettled hapart h.touched o.trap, fun _ => h.file (.inr htrapped)⟩

lemma tidy_step {e : Event B C} (hrolls : Rolls start s) (h : Tidy cfg start s) (hmade : s.made = none)
    (hwhole : Whole cfg s e) (hsettled : start.repo.Settled) (hapart : cfg.Apart start.repo)
    (hstep : s.step cfg objects e = some s') (hmade' : s'.made = none) : Tidy cfg start s' := by
  cases e with
  | command o => exact tidy_command hrolls h hmade hwhole hsettled hapart hstep hmade'
  | signal trap =>
    obtain ⟨-, ⟨-, rfl⟩ | ⟨huntrapped, rfl⟩⟩ := signal_cases hstep
    · rw [restore_of_uncommitted hrolls.uncommitted]
      exact ⟨touched_restored hsettled hapart h.touched trap, h.file⟩
    · exact ⟨h.touched, fun hpc => absurd hpc (by simp [Pc.phase, huntrapped])⟩
  | elsewhere remote =>
    obtain ⟨-, -, rfl⟩ := elsewhere_cases hstep
    exact ⟨h.touched, h.file⟩

/-- Over no tracked `$notes.tmp` and ignore rules of its own, the trap only has to work. -/
lemma meets_undoable_of_whole {repo : Git.Repo String B C} {tags : Dict String C} {remote : Remote C}
    {events : List (Event B C)} (hsettled : repo.Settled) (hapart : cfg.Apart repo) (htmp : repo.index cfg.tmp = none)
    (hwhole : Machine.Meets (Script.step cfg objects) (Whole cfg) (Script.start repo tags remote) events) :
    Machine.Meets (Script.step cfg objects) (Undoable cfg) (Script.start repo tags remote) events := by
  have hundo : ∀ (s : Script B C) (e : Event B C),
      (s.made = none → Rolls (Script.start repo tags remote) s ∧ Tidy cfg (Script.start repo tags remote) s) →
      Whole cfg s e → Undoable cfg s e := by
    intro s e h hwhole hmade o he
    obtain ⟨-, htidy⟩ := h hmade
    obtain ⟨hadd, htrap⟩ := hwhole hmade o he
    refine ⟨hadd, fun hphase htrapped => ?_⟩
    rw [htrap hphase htrapped]
    exact restores_of_touched hsettled hapart (htidy.file (.inr htrapped)) htmp htidy.touched
  refine Machine.meets_of_invariant (I := fun s => s.made = none →
    Rolls (Script.start repo tags remote) s ∧ Tidy cfg (Script.start repo tags remote) s) ?_ hundo
    (fun _ => ⟨rolls_start repo tags remote, tidy_start repo tags remote⟩) hwhole
  intro s e s' h hwhole hstep hmade'
  have hmade := made_of_step hstep hmade'
  exact ⟨rolls_step (fun hmade => (h hmade).1) (hundo s e h hwhole) hsettled hstep hmade',
    tidy_step (h hmade).1 (h hmade).2 hmade hwhole hsettled hapart hstep hmade'⟩

end

/-! ### A bump that fails, a commit that fails -/

theorem failed_bump_undone : ∃ s,
    Machine.run (Script.step (plainSettings false) (Chain.objects ℕ)) plainStart (failsAt 13) = some s ∧
      AsFound (Offered ⟨none, []⟩ (failsAt 13)) plainStart s := by
  refine ⟨_, rfl, ?_⟩
  refine (asFound_iff_undoable (plainSettings false) (Chain.objects ℕ) [] _ plainStart_clean
    (rfl : Machine.run _ plainStart (failsAt 13) = _) rfl rfl).mpr ?_
  refine meets_undoable_of_whole plainStart_clean.settled (fun _ _ => rfl) rfl ?_
  have hgo : ∀ {s : Script ℕ (Chain ℕ)}, s.pc ≠ .add → Whole (plainSettings false) s (plainCommand true) := by
    intro s hadd _ o ho
    cases ho
    exact ⟨fun hat => absurd hat hadd, fun _ _ => rfl⟩
  iterate 13 refine Machine.meets_cons rfl (hgo nofun) ?_
  refine Machine.meets_cons rfl (fun _ _ _ => ⟨nofun, nofun⟩) ?_
  refine Machine.meets_cons rfl (hgo nofun) ?_
  trivial

/-- `git commit` fails after `git add`: the script exits without a commit, and the index keeps the new version. -/
theorem failed_commit_stays_staged : ∃ s,
    Machine.run (Script.step (plainSettings false) (Chain.objects ℕ)) plainStart (failsAt 21) = some s ∧
      s.ended = true ∧ s.made = none ∧ s.repo.index "VERSION" ≠ plainStart.repo.index "VERSION" :=
  ⟨_, rfl, rfl, rfl, by decide⟩

end SciForge.Tools.Release
