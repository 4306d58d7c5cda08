import SciForge.Tools.Publish

/-!
# What a release commits and tags

The commit and the tags of the release script over whole runs, interrupted or not: only files of the release change,
tags are only added, and a dry run does neither.
-/

namespace SciForge.Tools.Release

variable {B C : Type} [DecidableEq C] {cfg : Settings} {objects : Objects B C} {start s s' : Script B C}

/-! ### A dry run stays before the commit -/

/-- A tag the remote had at the start, or after a push of someone else. -/
def Offered (remote : Remote C) (events : List (Event B C)) (name : String) (c : C) : Prop :=
  (name, c) ∈ remote.tags ∨ ∃ pushed, Event.elsewhere pushed ∈ events ∧ (name, c) ∈ pushed.tags

/-- The release commit changes only files that are added, on top of the first HEAD; tags that were there stay, and
the others are the remote's or the release's own. -/
structure Sound (cfg : Settings) (objects : Objects B C) (offered : String → C → Prop) (start s : Script B C) :
    Prop where
  head : s.repo.head = s.made.getD start.repo.head
  index : ∀ path, cfg.added path = false → s.repo.index path = start.repo.index path
  tree : ∀ c, s.made = some c → ∀ path, cfg.added path = false → objects.tree c path = start.repo.index path
  history : ∀ c, s.made = some c → objects.history c = c :: objects.history start.repo.head
  remote : s.leaving = false → ∀ name c, (name, c) ∈ s.remote.tags → offered name c
  kept : ∀ name c, start.tags.get name = some c → s.tags.get name = some c
  own : ∀ name c, s.tags.get name = some c →
    start.tags.get name = some c ∨ offered name c ∨ (s.made = some c ∧ name ∈ s.names)

variable {offered : String → C → Prop}

omit [DecidableEq C] in
lemma Sound.congr (h : Sound cfg objects offered start s) (hhead : s'.repo.head = s.repo.head)
    (hindex : ∀ path, cfg.added path = false → s'.repo.index path = s.repo.index path) (hmade : s'.made = s.made)
    (hremote : s'.leaving = false → ∀ name c, (name, c) ∈ s'.remote.tags → offered name c) (htags : s'.tags = s.tags)
    (hnames : s.made ≠ none → s'.names = s.names) : Sound cfg objects offered start s' := by
  refine ⟨hhead.trans (hmade ▸ h.head), fun path hpath => (hindex path hpath).trans (h.index path hpath),
    hmade ▸ h.tree, hmade ▸ h.history, hremote, htags ▸ h.kept, fun name c => ?_⟩
  rw [htags, hmade]
  intro htag
  refine (h.own name c htag).imp id (Or.imp id (fun hown => ⟨hown.1, ?_⟩))
  rw [hnames (by rw [hown.1]; exact Option.some_ne_none c)]
  exact hown.2

omit [DecidableEq C] in
lemma going_of_phase (h : s.pc.phase ≠ .leaving ∧ s.pc.phase ≠ .ended) : s.leaving = false := by
  unfold Script.leaving
  obtain ⟨hstays, hgoes⟩ := h
  cases hat : s.pc with
  | exiting code =>
    rw [hat] at hstays
    exact absurd rfl hstays
  | exited code | killed =>
    rw [hat] at hgoes
    exact absurd rfl hgoes
  | _ => rfl

lemma sound_command {o : Outcome B} (h : Sound cfg objects offered start s) (hpublishes : s.Publishes objects s.pc)
    (hstep : s.command cfg objects o = some s') : Sound cfg objects offered start s' := by
  have hnone : s.pc.beforeCommit = true → s.made = none := fun hbefore => (publishes_before hbefore).mp hpublishes
  have hbefore_going : s.pc.beforeCommit = true → s.leaving = false := by
    intro hbefore
    unfold Pc.beforeCommit at hbefore
    refine going_of_phase ⟨?_, ?_⟩ <;> intro hphase <;> rw [hphase] at hbefore <;> cases hbefore
  cases command_effect hstep with
  | pass next names hbefore hwithin hs =>
    subst hs
    exact h.congr rfl (fun _ _ => rfl) rfl (fun _ => h.remote (hbefore_going hbefore)) rfl
      (fun hmade => absurd (hnone hbefore) hmade)
  | opened hat _ hs | armed hat hs | marked hat hs | tagsMade hat hs =>
    subst hs
    exact h.congr rfl (fun _ _ => rfl) rfl (fun _ => h.remote (going_of_phase (by rw [hat]; exact ⟨nofun, nofun⟩)))
      rfl (fun _ => rfl)
  | unpublished _ hs | pushed _ _ _ hs =>
    subst hs
    exact h.congr rfl (fun _ _ => rfl) rfl nofun rfl (fun _ => rfl)
  | wrote work next names hphase hwithin hwork hs =>
    subst hs
    have hbefore := beforeCommit_of_changing hphase
    exact h.congr rfl (fun _ _ => rfl) rfl (fun _ => h.remote (hbefore_going hbefore)) rfl
      (fun hmade => absurd (hnone hbefore) hmade)
  | fetched hat _ next hwithin hs =>
    obtain ⟨tags, hfetch, hkept, hown⟩ := fetch_spec s o.reached
    rw [hfetch] at hs
    subst hs
    have hremote := h.remote (hbefore_going (by rw [hat]; rfl))
    refine ⟨h.head, h.index, h.tree, h.history, fun _ => hremote, fun name c hname => hkept name c (h.kept name c hname),
      fun name c hname => ?_⟩
    rcases hown name c hname with hhere | hthere
    · exact h.own name c hhere
    · exact .inr (.inl (hremote name c hthere))
  | staged hat next hnext hs =>
    subst hs
    refine h.congr ?_ (fun path hpath => ?_) rfl (fun _ => h.remote (hbefore_going (by rw [hat]; rfl))) rfl (fun _ => rfl)
    · dsimp only
      split <;> rfl
    · dsimp only
      split
      · exact if_neg (by rw [hpath]; exact Bool.false_ne_true)
      · rfl
  | committed hat c hc hnew hs =>
    subst hs
    have hbefore : s.pc.beforeCommit = true := by
      rw [hat]
      rfl
    have hhead : s.repo.head = start.repo.head := by rw [h.head, hnone hbefore, Option.getD_none]
    refine ⟨rfl, h.index, fun c' hc' path hpath => ?_, fun c' hc' => ?_, fun _ => h.remote (hbefore_going hbefore), h.kept,
      fun name c' htag => ?_⟩
    · obtain rfl := Option.some.inj hc'
      rw [hc, objects.tree_newCommit]
      exact h.index path hpath
    · obtain rfl := Option.some.inj hc'
      rw [hc, objects.history_newCommit, hhead]
    · refine (h.own name c' htag).imp id (Or.imp id (fun hown => ?_))
      rw [hnone hbefore] at hown
      exact absurd hown.1 nofun
  | tagged tag rest hat hnew hs =>
    subst hs
    have hremote := h.remote (going_of_phase (by rw [hat]; exact ⟨nofun, nofun⟩))
    rw [hat] at hpublishes
    obtain ⟨c, hfresh, done, hnames, -⟩ := hpublishes
    refine ⟨h.head, h.index, h.tree, h.history, fun _ => hremote, fun name c' hstart => ?_, fun name c' htag => ?_⟩
    · have hold := h.kept name c' hstart
      have hne : tag ≠ name := by
        rintro rfl
        rw [hnew] at hold
        cases hold
      exact (Dict.get_set_of_ne _ hne _).trans hold
    · rcases Dict.get_set_cases htag with ⟨rfl, rfl⟩ | hold
      · refine .inr (.inr ⟨hfresh.made.trans (congrArg some hfresh.head.symm), ?_⟩)
        dsimp only
        rw [hnames]
        exact List.mem_append_right _ List.mem_cons_self
      · exact h.own name c' hold
  | left code hat hs =>
    subst hs
    obtain ⟨work, hrestore⟩ := restore_eq cfg s o.trap
    rw [hrestore]
    split <;> exact h.congr rfl (fun _ _ => rfl) rfl nofun rfl (fun _ => rfl)

lemma sound_step {e : Event B C} (h : Sound cfg objects offered start s) (hpublishes : s.Publishes objects s.pc)
    (hoffers : ∀ remote, e = .elsewhere remote → ∀ name c, (name, c) ∈ remote.tags → offered name c)
    (hstep : s.step cfg objects e = some s') : Sound cfg objects offered start s' := by
  cases e with
  | command o => exact sound_command h hpublishes hstep
  | signal trap =>
    obtain ⟨-, ⟨-, rfl⟩ | ⟨-, rfl⟩⟩ := signal_cases hstep
    · obtain ⟨work, hrestore⟩ := restore_eq cfg s trap
      rw [hrestore]
      exact h.congr rfl (fun _ _ => rfl) rfl h.remote rfl (fun _ => rfl)
    · exact h.congr rfl (fun _ _ => rfl) rfl nofun rfl (fun _ => rfl)
  | elsewhere remote =>
    obtain ⟨-, -, rfl⟩ := elsewhere_cases hstep
    exact h.congr rfl (fun _ _ => rfl) rfl (fun _ => hoffers remote rfl) rfl (fun _ => rfl)

section

variable {repo : Git.Repo String B C} {tags : Dict String C} {remote : Remote C} {events : List (Event B C)}

lemma sound_run (hrun : Machine.run (Script.step cfg objects) (.start repo tags remote) events = some s) :
    Sound cfg objects (Offered remote events) (.start repo tags remote) s := by
  have hinvariant := Machine.run_invariant
    (C := fun _ e => ∀ pushed, e = Event.elsewhere pushed → ∀ name c, (name, c) ∈ pushed.tags →
      Offered remote events name c)
    (I := fun s => s.Publishes objects s.pc ∧ Sound cfg objects (Offered remote events) (.start repo tags remote) s)
    (fun _ _ _ h hoffers hstep => ⟨publishes_step h.1 hstep, sound_step h.2 h.1 hoffers hstep⟩)
    ⟨publishes_start repo tags remote, rfl, fun _ _ => rfl, nofun, nofun, fun _ _ _ => .inl, fun _ _ => id,
      fun _ _ => .inl⟩
    (Machine.meets_of_mem (fun e he _ pushed hpushed _ _ htag => .inr ⟨pushed, hpushed ▸ he, htag⟩) _) hrun
  exact hinvariant.2

end

end SciForge.Tools.Release
