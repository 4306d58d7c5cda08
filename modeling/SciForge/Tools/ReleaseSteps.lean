import SciForge.Tools.Release

/-!
# The commands of a release

What each command of the release script does to the repository, the tags and the remote.
-/

namespace SciForge.Tools.Release

variable {B C : Type}

/-- The paths the script may write before the commit. -/
def Settings.touches (cfg : Settings) (path : String) : Bool := cfg.allowed path || path == cfg.tmp || path == cfg.notes

/-- The stretches of the script: until the notes are found, until the trap is set, until the commit, after it, in
the exit and ended. -/
inductive Phase
  | opening
  | checking
  | changing
  | publishing
  | leaving
  | ended
deriving DecidableEq

def Pc.phase : Pc → Phase
  | .bumpNamed | .notesThere => .opening
  | .onMain | .treeClean | .workflows _ | .fetch | .prechecks _ | .advisories _ | .version | .unreleased | .setTrap =>
    .checking
  | .fileNotes | .moveNotes | .bump | .strayGuard | .tagBody | .extraTags | .freshTags _ | .dryEnd | .add | .commit =>
    .changing
  | .setCommitted | .tagging _ | .push => .publishing
  | .exiting _ => .leaving
  | .exited _ | .killed => .ended

def Pc.beforeCommit (pc : Pc) : Bool :=
  match pc.phase with
  | .opening | .checking | .changing => true
  | .publishing | .leaving | .ended => false

/-- Within a stretch, or out of it to the exit. -/
def Pc.Within (pc next : Pc) : Prop := next.phase = pc.phase ∨ next.phase = .leaving

/-- The effect of a command. -/
inductive Effect [DecidableEq C] (cfg : Settings) (objects : Objects B C) (s : Script B C) (o : Outcome B)
    (s' : Script B C) : Prop
  | pass (next : Pc) (names : List String) (hbefore : s.pc.beforeCommit = true)
      (hwithin : s.pc.Within next) (hs : s' = { s with pc := next, names := names })
  | fetched (hat : s.pc = .fetch) (hdry : cfg.dry = false) (next : Pc) (hwithin : s.pc.Within next)
      (hs : s' = { s.fetch o.reached with pc := next })
  | opened (hat : s.pc = .notesThere) (hfile : cfg.isFile s.repo = true) (hs : s' = { s with pc := .onMain })
  | armed (hat : s.pc = .setTrap) (hs : s' = { s with trapped := true, pc := .fileNotes })
  | wrote (work : Git.Tree String B) (next : Pc) (names : List String) (hphase : s.pc.phase = .changing)
      (hwithin : s.pc.Within next) (hwork : ∀ path, cfg.touches path = false → work path = s.repo.work path)
      (hs : s' = { s with repo := { s.repo with work := work }, pc := next, names := names })
  | staged (hat : s.pc = .add) (next : Pc) (hnext : next = .commit ∨ next = .exiting 1)
      (hs : s' = { s with repo := if o.staged then s.repo.add cfg.added else s.repo, pc := next })
  | committed (hat : s.pc = .commit) (c : C) (hc : c = objects.newCommit o.stamp s.repo.index s.repo.head)
      (hnew : s.remote.mentions objects c = false)
      (hs : s' = { s with repo := { s.repo with head := c }, made := some c, pc := .setCommitted })
  | marked (hat : s.pc = .setCommitted) (hs : s' = { s with committed := true, pc := .tagging s.names })
  | tagged (tag : String) (rest : List String) (hat : s.pc = .tagging (tag :: rest)) (hnew : s.tags.get tag = none)
      (hs : s' = { s with tags := s.tags.set tag s.repo.head, pc := .tagging rest })
  | tagsMade (hat : s.pc = .tagging []) (hs : s' = { s with pc := .push })
  | unpublished (hphase : s.pc.phase = .publishing) (hs : s' = { s with pc := .exiting 1 })
  | pushed (hat : s.pc = .push) (hreached : o.reached = true) (code : ℕ)
      (hs : s' = { s with remote := s.remote.push objects s.repo.head s.tags s.names, pc := .exiting code })
  | left (code : ℕ) (hat : s.pc = .exiting code)
      (hs : s' = { (if s.trapped then s.restore cfg o.trap else s) with pc := .exited code })

lemma beforeCommit_of_changing {pc : Pc} (h : pc.phase = .changing) : pc.beforeCommit = true := by
  unfold Pc.beforeCommit
  rw [h]

lemma touches_ne {cfg : Settings} {path : String} (h : cfg.touches path = false) :
    path ≠ cfg.tmp ∧ path ≠ cfg.notes := by
  unfold Settings.touches at h
  simp only [Bool.or_eq_false_iff, beq_eq_false_iff_ne] at h
  exact ⟨h.1.2, h.2⟩

lemma touches_allowed {cfg : Settings} {path : String} (h : cfg.touches path = false) : cfg.allowed path = false := by
  unfold Settings.touches at h
  rw [Bool.or_eq_false_iff, Bool.or_eq_false_iff] at h
  exact h.1.1

/-! ### The trap and the fetch -/

lemma restore_eq (cfg : Settings) (s : Script B C) (trap : Restoring) :
    ∃ work, s.restore cfg trap = { s with repo := { s.repo with work := work } } := by
  unfold Script.restore
  split
  · exact ⟨s.repo.work, rfl⟩
  · cases hrm : trap.rm
    · exact ⟨_, rfl⟩
    · exact ⟨_, rfl⟩

/-- Fetching only writes the tags: those that are here stay, the others are the remote's. -/
lemma fetch_spec (s : Script B C) (reached : Bool) :
    ∃ tags, s.fetch reached = { s with tags := tags } ∧
      (∀ name c, s.tags.get name = some c → tags.get name = some c) ∧
      ∀ name c, tags.get name = some c → s.tags.get name = some c ∨ (name, c) ∈ s.remote.tags := by
  unfold Script.fetch
  cases reached with
  | false => exact ⟨s.tags, rfl, fun _ _ => id, fun _ _ => .inl⟩
  | true =>
    refine ⟨_, rfl, fun name c hname => ?_, fun name c hname => ?_⟩
    · rw [Dict.get_update_of_not_mem, hname]
      intro hmem
      obtain ⟨⟨name', c'⟩, htag, rfl⟩ := List.mem_map.mp hmem
      have habsent := (List.mem_filter.mp htag).2
      rw [hname] at habsent
      cases habsent
    · by_cases hmem : name ∈ Dict.keys (s.remote.tags.filter (fun tag => (s.tags.get tag.1).isNone))
      · rcases Dict.mem_of_mem_update (Dict.mem_of_get hname) with hhere | hthere
        · obtain ⟨⟨name', c'⟩, htag, rfl⟩ := List.mem_map.mp hmem
          have habsent : s.tags.get name' = none := by simpa using (List.mem_filter.mp htag).2
          exact absurd (List.mem_map_of_mem hhere) (Dict.get_eq_none.mp habsent)
        · exact .inr (List.mem_filter.mp hthere).1
      · rw [Dict.get_update_of_not_mem _ hmem] at hname
        exact .inl hname

/-! ### What a command does -/

section

variable [DecidableEq C] {cfg : Settings} {objects : Objects B C} {s s' : Script B C} {o : Outcome B}

lemma effect_guard {names : List String} (hbefore : s.pc.beforeCommit = true) {next : Pc}
    (hnext : next.phase = s.pc.phase) (ok : Bool) :
    Effect cfg objects s o ({ s with names := names }.guard ok next) := by
  cases ok with
  | false => exact .pass (.exiting 1) names hbefore (.inr rfl) rfl
  | true => exact .pass next names hbefore (.inl hnext) rfl

lemma effect_go (hbefore : s.pc.beforeCommit = true) {next : Pc}
    (hnext : next.phase = s.pc.phase) : Effect cfg objects s o { s with pc := next } :=
  .pass next s.names hbefore (.inl hnext) rfl

lemma effect_target {names : List String} (hphase : s.pc.phase = .changing) {next : Pc}
    (hnext : next.phase = .changing) (ok : Bool) :
    Effect cfg objects s o ({ s.target cfg o with names := names }.guard ok next) := by
  have hwork : ∀ path, cfg.touches path = false → (s.target cfg o).repo.work path = s.repo.work path :=
    fun path hpath => if_neg (by simp [touches_allowed hpath])
  cases ok with
  | false => exact .wrote _ (.exiting 1) names hphase (.inr rfl) hwork rfl
  | true => exact .wrote _ next names hphase (.inl (hnext.trans hphase.symm)) hwork rfl

lemma effect_opening (hphase : s.pc.phase = .opening) (h : s.command cfg objects o = some s') :
    Effect cfg objects s o s' := by
  unfold Script.command at h
  cases hat : s.pc with
  | bumpNamed =>
    rw [hat] at h
    obtain rfl := Option.some.inj h
    exact effect_guard (by rw [hat]; rfl) (by rw [hat]; rfl) _
  | notesThere =>
    rw [hat] at h
    obtain rfl := Option.some.inj h
    cases hfile : cfg.isFile s.repo with
    | false => exact .pass (.exiting 1) s.names (by rw [hat]; rfl) (.inr rfl) rfl
    | true => exact .opened hat hfile rfl
  | _ =>
    rw [hat] at hphase
    cases hphase

lemma effect_checking (hphase : s.pc.phase = .checking) (h : s.command cfg objects o = some s') :
    Effect cfg objects s o s' := by
  unfold Script.command at h
  cases hat : s.pc with
  | onMain | treeClean | version | unreleased =>
    rw [hat] at h
    obtain rfl := Option.some.inj h
    exact effect_guard (by rw [hat]; rfl) (by rw [hat]; rfl) _
  | workflows rest | prechecks rest =>
    rw [hat] at h
    cases rest with
    | nil =>
      obtain rfl := Option.some.inj h
      exact effect_go (by rw [hat]; rfl) (by rw [hat]; rfl)
    | cons first rest =>
      obtain rfl := Option.some.inj h
      exact effect_guard (by rw [hat]; rfl) (by rw [hat]; rfl) _
  | fetch =>
    rw [hat] at h
    dsimp only at h
    split at h
    · obtain rfl := Option.some.inj h
      exact effect_go (by rw [hat]; rfl) (by rw [hat]; rfl)
    · next hdry =>
      obtain rfl := Option.some.inj h
      cases hok : o.ok with
      | false => exact .fetched hat (by simpa using hdry) (.exiting 1) (.inr rfl) rfl
      | true => exact .fetched hat (by simpa using hdry) _ (.inl (by rw [hat]; rfl)) rfl
  | advisories rest =>
    rw [hat] at h
    cases rest with
    | nil =>
      obtain rfl := Option.some.inj h
      exact effect_go (by rw [hat]; rfl) (by rw [hat]; rfl)
    | cons first rest =>
      obtain rfl := Option.some.inj h
      exact effect_go (by rw [hat]; rfl) (by rw [hat]; rfl)
  | setTrap =>
    rw [hat] at h
    obtain rfl := Option.some.inj h
    exact .armed hat rfl
  | _ =>
    rw [hat] at hphase
    cases hphase

lemma effect_filing (hfiling : s.pc = .fileNotes ∨ s.pc = .moveNotes) (h : s.command cfg objects o = some s') :
    Effect cfg objects s o s' := by
  unfold Script.command at h
  rcases hfiling with hat | hat
  · rw [hat] at h
    obtain rfl := Option.some.inj h
    refine .wrote _ _ s.names (by rw [hat]; rfl) (.inl ?_) ?_ rfl
    · rw [hat]
      split <;> rfl
    · intro path hpath
      exact Function.update_of_ne (touches_ne hpath).1 _ _
  · rw [hat] at h
    obtain rfl := Option.some.inj h
    cases hok : o.ok with
    | false => exact effect_go (by rw [hat]; rfl) (by rw [hat]; rfl)
    | true =>
      refine .wrote _ _ s.names (by rw [hat]; rfl) (.inl (by rw [hat]; rfl)) ?_ rfl
      intro path hpath
      obtain ⟨htmp, hnotes⟩ := touches_ne hpath
      exact (Function.update_of_ne htmp _ _).trans (Function.update_of_ne hnotes _ _)

lemma command_add (hat : s.pc = .add) (h : s.command cfg objects o = some s') :
    ∃ next, (next = .commit ∨ next = .exiting 1) ∧
      s' = { s with repo := if o.staged then s.repo.add cfg.added else s.repo, pc := next } := by
  unfold Script.command at h
  rw [hat] at h
  obtain rfl := Option.some.inj h
  cases hok : o.ok with
  | false => exact ⟨.exiting 1, .inr rfl, rfl⟩
  | true => exact ⟨.commit, .inl rfl, rfl⟩

lemma effect_changing (hphase : s.pc.phase = .changing) (h : s.command cfg objects o = some s') :
    Effect cfg objects s o s' := by
  cases hat : s.pc with
  | fileNotes => exact effect_filing (.inl hat) h
  | moveNotes => exact effect_filing (.inr hat) h
  | bump | tagBody | extraTags =>
    unfold Script.command at h
    rw [hat] at h
    obtain rfl := Option.some.inj h
    exact effect_target hphase rfl _
  | strayGuard =>
    unfold Script.command at h
    rw [hat] at h
    obtain rfl := Option.some.inj h
    exact effect_guard (beforeCommit_of_changing hphase) (by rw [hat]; rfl) _
  | freshTags rest =>
    unfold Script.command at h
    rw [hat] at h
    cases rest with
    | nil =>
      obtain rfl := Option.some.inj h
      exact effect_go (beforeCommit_of_changing hphase) (by rw [hat]; rfl)
    | cons tag rest =>
      obtain rfl := Option.some.inj h
      exact effect_guard (beforeCommit_of_changing hphase) (by rw [hat]; rfl) _
  | dryEnd =>
    unfold Script.command at h
    rw [hat] at h
    obtain rfl := Option.some.inj h
    cases hdry : cfg.dry with
    | false => exact effect_go (beforeCommit_of_changing hphase) (by rw [hat]; rfl)
    | true => exact .pass (.exiting 0) s.names (beforeCommit_of_changing hphase) (.inr rfl) rfl
  | add =>
    obtain ⟨next, hnext, hs⟩ := command_add hat h
    exact .staged hat next hnext hs
  | commit =>
    unfold Script.command at h
    rw [hat] at h
    dsimp only at h
    split at h
    · split at h
      · cases h
      · next hnew =>
        obtain rfl := Option.some.inj h
        exact .committed hat _ rfl (by simpa using hnew) rfl
    · obtain rfl := Option.some.inj h
      exact .pass (.exiting 1) s.names (beforeCommit_of_changing hphase) (.inr rfl) rfl
  | _ =>
    rw [hat] at hphase
    cases hphase

lemma effect_publishing (hphase : s.pc.phase = .publishing) (h : s.command cfg objects o = some s') :
    Effect cfg objects s o s' := by
  unfold Script.command at h
  cases hat : s.pc with
  | setCommitted =>
    rw [hat] at h
    obtain rfl := Option.some.inj h
    exact .marked hat rfl
  | tagging rest =>
    rw [hat] at h
    cases rest with
    | nil =>
      obtain rfl := Option.some.inj h
      exact .tagsMade hat rfl
    | cons tag rest =>
      dsimp only at h
      split at h
      · next hnew =>
        obtain rfl := Option.some.inj h
        exact .tagged tag rest hat (by simpa using (Bool.and_eq_true_iff.mp hnew).2) rfl
      · obtain rfl := Option.some.inj h
        exact .unpublished hphase rfl
  | push =>
    rw [hat] at h
    dsimp only at h
    split at h
    · next hreached =>
      obtain rfl := Option.some.inj h
      exact .pushed hat hreached _ rfl
    · obtain rfl := Option.some.inj h
      exact .unpublished hphase rfl
  | _ =>
    rw [hat] at hphase
    cases hphase

lemma effect_leaving (hphase : s.pc.phase = .leaving) (h : s.command cfg objects o = some s') :
    Effect cfg objects s o s' := by
  cases hat : s.pc with
  | exiting code =>
    unfold Script.command at h
    rw [hat] at h
    obtain rfl := Option.some.inj h
    exact .left code hat rfl
  | _ =>
    rw [hat] at hphase
    cases hphase

lemma no_command_of_ended (hphase : s.pc.phase = .ended) : s.command cfg objects o = none := by
  unfold Script.command
  cases hat : s.pc with
  | exited code | killed => rfl
  | _ =>
    rw [hat] at hphase
    cases hphase

lemma command_effect (h : s.command cfg objects o = some s') : Effect cfg objects s o s' := by
  cases hphase : s.pc.phase with
  | opening => exact effect_opening hphase h
  | checking => exact effect_checking hphase h
  | changing => exact effect_changing hphase h
  | publishing => exact effect_publishing hphase h
  | leaving => exact effect_leaving hphase h
  | ended =>
    rw [no_command_of_ended hphase] at h
    cases h

/-! ### Signals and pushes of others -/

omit [DecidableEq C] in
lemma ended_iff : s.ended = true ↔ s.pc.phase = .ended := by
  unfold Script.ended
  cases s.pc <;> simp [Pc.phase]

/-- A signal runs the trap, or ends a script that has not set it. -/
lemma signal_cases {trap : Restoring} (h : s.step cfg objects (.signal trap) = some s') :
    s.pc.phase ≠ .ended ∧ ((s.trapped = true ∧ s' = s.restore cfg trap) ∨
      (s.trapped = false ∧ s' = { s with pc := .killed })) := by
  unfold Script.step at h
  dsimp only at h
  split at h
  · cases h
  · next hgoing =>
    refine ⟨fun hover => hgoing (ended_iff.mpr hover), ?_⟩
    split at h
    · next htrapped => exact .inl ⟨htrapped, (Option.some.inj h).symm⟩
    · next htrapped => exact .inr ⟨by simpa using htrapped, (Option.some.inj h).symm⟩

/-- Others push until the script does, and nothing that holds the release commit. -/
lemma elsewhere_cases {remote : Remote C} (h : s.step cfg objects (.elsewhere remote) = some s') :
    s.leaving = false ∧ (∀ c, s.made = some c → remote.mentions objects c = false) ∧
      s' = { s with remote := remote } := by
  unfold Script.step at h
  dsimp only at h
  split at h
  · cases h
  · next hfree =>
    rw [Bool.or_eq_true, not_or] at hfree
    refine ⟨by simpa using hfree.1, fun c hc => ?_, (Option.some.inj h).symm⟩
    have hunseen := hfree.2
    rw [hc, Option.any_some] at hunseen
    simpa using hunseen

end

end SciForge.Tools.Release
