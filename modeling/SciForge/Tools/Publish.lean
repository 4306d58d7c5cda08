import SciForge.Tools.ReleaseSteps
import SciForge.Lib.Machine

/-!
# Publishing a release

The push of the release script, to a remote that takes each ref on its own and that others push to.
-/

namespace SciForge.Tools.Release

variable {B C : Type} [DecidableEq C]

/-! ### The remote after a push -/

omit [DecidableEq C] in
lemma get_pushTags (remote tags : Dict String C) (names : List String) (tag : String) :
    (pushTags remote tags names).get tag = (remote.get tag).or (if tag ∈ names then tags.get tag else none) := by
  unfold pushTags
  induction names generalizing remote with
  | nil => simp
  | cons name rest ih =>
    rw [List.foldl_cons, ih]
    cases hremote : remote.get name with
    | some c =>
      by_cases hname : tag = name
      · rw [hname, hremote]
        rfl
      · simp [hname]
    | none =>
      cases hlocal : tags.get name with
      | none =>
        by_cases hname : tag = name
        · simp [hname, hremote, hlocal]
        · simp [hname]
      | some c =>
        by_cases hname : tag = name
        · simp [hname, hremote, hlocal, Dict.get_set_self]
        · simp [hname, Dict.get_set_of_ne remote (Ne.symm hname)]

variable {objects : Objects B C}

lemma absent_of_unmentioned {r : Remote C} {c : C} (h : r.mentions objects c = false) :
    r.holds objects c = false ∧ ∀ tag, r.tags.get tag ≠ some c := by
  unfold Remote.mentions at h
  obtain ⟨hmain, htags⟩ := Bool.or_eq_false_iff.mp h
  refine ⟨hmain, fun tag htag => ?_⟩
  have hne := List.any_eq_false.mp htags (tag, c) (Dict.mem_of_get htag)
  exact hne (by simp)

/-- Main holds a new commit after the push exactly when the push of main was a fast-forward. -/
lemma holds_push {r : Remote C} {c : C} (hown : c ∈ objects.history c) (habsent : r.holds objects c = false)
    (tags : Dict String C) (names : List String) :
    (r.push objects c tags names).holds objects c = r.takesMain objects c := by
  unfold Remote.push Remote.holds
  cases htaken : r.takesMain objects c with
  | false => exact habsent
  | true => simp [hown]

/-- A tag points to a new commit after the push exactly when the remote had none of that name. -/
lemma tagged_push {r : Remote C} {c : C} {tags : Dict String C} {names : List String} {tag : String}
    (habsent : r.tags.get tag ≠ some c) (htag : tag ∈ names) (hlocal : tags.get tag = some c) :
    (r.push objects c tags names).tags.get tag = some c ↔ r.tags.get tag = none := by
  unfold Remote.push
  dsimp only
  rw [get_pushTags, if_pos htag, hlocal]
  cases hremote : r.tags.get tag with
  | none => exact iff_of_true rfl rfl
  | some c' =>
    rw [hremote] at habsent
    exact iff_of_false habsent nofun

/-! ### All or nothing -/

namespace Script

/-- The remote has the release commit on main and under every tag, or it has it nowhere. -/
def AllOrNothing (objects : Objects B C) (s : Script B C) : Prop :=
  ∀ c, s.made = some c →
    (s.remote.holds objects c = true ∧ ∀ tag ∈ s.names, s.remote.tags.get tag = some c) ∨
    (s.remote.holds objects c = false ∧ ∀ tag ∈ s.names, s.remote.tags.get tag ≠ some c)

/-- Main can be fast-forwarded and every tag is free, or neither can and none is. -/
def OneAnswer (objects : Objects B C) (s : Script B C) : Prop :=
  (s.remote.takesMain objects s.repo.head = true ∧ ∀ tag ∈ s.names, s.remote.tags.get tag = none) ∨
  (s.remote.takesMain objects s.repo.head = false ∧ ∀ tag ∈ s.names, s.remote.tags.get tag ≠ none)

/-- A push that reaches the remote gets one answer for all its refs. -/
def Answered (objects : Objects B C) (s : Script B C) (e : Event B C) : Prop :=
  ∀ o, e = .command o → s.pc = .push → o.reached = true → s.OneAnswer objects

/-- The release commit is at HEAD and still unknown to the remote. -/
structure Fresh (objects : Objects B C) (s : Script B C) (c : C) : Prop where
  made : s.made = some c
  head : s.repo.head = c
  own : c ∈ objects.history c
  absent : s.remote.mentions objects c = false

/-- What holds of the release commit at each command. -/
def Publishes (objects : Objects B C) (s : Script B C) : Pc → Prop
  | .setCommitted => ∃ c, s.Fresh objects c
  | .tagging rest => ∃ c, s.Fresh objects c ∧ ∃ done, s.names = done ++ rest ∧ ∀ tag ∈ done, s.tags.get tag = some c
  | .push => ∃ c, s.Fresh objects c ∧ ∀ tag ∈ s.names, s.tags.get tag = some c
  | .exiting _ | .exited _ | .killed => True
  | _ => s.made = none

end Script

section

variable {cfg : Settings} {s s' : Script B C}

lemma publishes_before {pc : Pc} (hpc : pc.beforeCommit = true) : s.Publishes objects pc ↔ s.made = none := by
  cases pc <;> first | exact Iff.rfl | cases hpc

lemma publishes_leaving {pc : Pc} (hpc : pc.phase = .leaving ∨ pc.phase = .ended) : s.Publishes objects pc := by
  cases pc <;> simp [Pc.phase] at hpc <;> trivial

lemma publishes_within {next : Pc} (h : s.Publishes objects s.pc) (hbefore : s.pc.beforeCommit = true)
    (hwithin : s.pc.Within next) (hmade : s'.made = s.made) : s'.Publishes objects next := by
  rcases hwithin with hsame | hleave
  · have hnext : next.beforeCommit = true := by
      unfold Pc.beforeCommit at hbefore ⊢
      rwa [hsame]
    exact (publishes_before hnext).mpr (hmade.trans ((publishes_before hbefore).mp h))
  · exact publishes_leaving (.inl hleave)

lemma Script.Publishes.fresh (h : s.Publishes objects s.pc) (hphase : s.pc.phase = .publishing) :
    ∃ c, s.Fresh objects c := by
  cases hat : s.pc with
  | setCommitted =>
    rw [hat] at h
    exact h
  | tagging rest | push =>
    rw [hat] at h
    obtain ⟨c, hfresh, -⟩ := h
    exact ⟨c, hfresh⟩
  | _ =>
    rw [hat] at hphase
    cases hphase

lemma Script.Publishes.congr {pc : Pc} (h : s.Publishes objects pc) (hmade : s'.made = s.made)
    (hfresh : ∀ c, s.Fresh objects c → s'.Fresh objects c) (hnames : s'.names = s.names) (htags : s'.tags = s.tags) :
    s'.Publishes objects pc := by
  cases pc with
  | setCommitted =>
    obtain ⟨c, hc⟩ := h
    exact ⟨c, hfresh c hc⟩
  | tagging rest =>
    obtain ⟨c, hc, hdone⟩ := h
    refine ⟨c, hfresh c hc, ?_⟩
    rwa [hnames, htags]
  | push =>
    obtain ⟨c, hc, htagged⟩ := h
    refine ⟨c, hfresh c hc, ?_⟩
    rwa [hnames, htags]
  | exiting code | exited code | killed => trivial
  | _ => exact hmade.trans h

/-- Steps keep the release commit where the command needs it. -/
lemma publishes_command {o : Outcome B} (h : s.Publishes objects s.pc) (hstep : s.command cfg objects o = some s') :
    s'.Publishes objects s'.pc := by
  cases command_effect hstep with
  | pass next names hbefore hwithin hs =>
    subst hs
    exact publishes_within h hbefore hwithin rfl
  | opened hat _ hs | armed hat hs =>
    subst hs
    rw [hat] at h
    exact h
  | fetched hat _ next hwithin hs =>
    obtain ⟨tags, hfetch, -, -⟩ := fetch_spec s o.reached
    rw [hfetch] at hs
    subst hs
    exact publishes_within h (by rw [hat]; rfl) hwithin rfl
  | wrote work next names hphase hwithin hwork hs =>
    subst hs
    exact publishes_within h (beforeCommit_of_changing hphase) hwithin rfl
  | staged hat next hnext hs =>
    subst hs
    rw [hat] at h
    rcases hnext with rfl | rfl
    · exact h
    · trivial
  | committed hat c hc hnew hs =>
    subst hs
    have hown : c ∈ objects.history c := by
      rw [hc, objects.history_newCommit]
      exact List.mem_cons_self
    exact ⟨c, rfl, rfl, hown, hnew⟩
  | marked hat hs =>
    subst hs
    rw [hat] at h
    obtain ⟨c, hfresh⟩ := h
    refine ⟨c, ⟨hfresh.made, hfresh.head, hfresh.own, hfresh.absent⟩, [], rfl, fun _ htag => ?_⟩
    exact absurd htag List.not_mem_nil
  | tagged tag rest hat _ hs =>
    subst hs
    rw [hat] at h
    obtain ⟨c, hfresh, done, hnames, hdone⟩ := h
    refine ⟨c, ⟨hfresh.made, hfresh.head, hfresh.own, hfresh.absent⟩, done ++ [tag], ?_, fun tag' htag' => ?_⟩
    · rw [List.append_assoc]
      exact hnames
    · change (s.tags.set tag s.repo.head).get tag' = some c
      by_cases hsame : tag = tag'
      · rw [hsame, Dict.get_set_self, hfresh.head]
      · rw [Dict.get_set_of_ne _ hsame]
        refine hdone tag' ((List.mem_append.mp htag').resolve_right (fun hlast => ?_))
        exact hsame (List.mem_singleton.mp hlast).symm
  | tagsMade hat hs =>
    subst hs
    rw [hat] at h
    obtain ⟨c, hfresh, done, hnames, hdone⟩ := h
    refine ⟨c, ⟨hfresh.made, hfresh.head, hfresh.own, hfresh.absent⟩, ?_⟩
    rw [List.append_nil] at hnames
    rw [← hnames] at hdone
    exact hdone
  | unpublished _ hs | pushed _ _ _ hs | left _ _ hs =>
    subst hs
    trivial

lemma publishes_step {e : Event B C} (h : s.Publishes objects s.pc) (hstep : s.step cfg objects e = some s') :
    s'.Publishes objects s'.pc := by
  cases e with
  | command o => exact publishes_command h hstep
  | signal trap =>
    obtain ⟨-, ⟨-, rfl⟩ | ⟨-, rfl⟩⟩ := signal_cases hstep
    · obtain ⟨work, hrestore⟩ := restore_eq cfg s trap
      rw [hrestore]
      exact h.congr rfl (fun c hc => ⟨hc.made, hc.head, hc.own, hc.absent⟩) rfl rfl
    · trivial
  | elsewhere remote =>
    obtain ⟨-, hunseen, rfl⟩ := elsewhere_cases hstep
    exact h.congr rfl (fun c hc => ⟨hc.made, hc.head, hc.own, hunseen c hc.made⟩) rfl rfl

lemma publishes_start (repo : Git.Repo String B C) (tags : Dict String C) (remote : Remote C) :
    (Script.start repo tags remote).Publishes objects (Script.start repo tags remote).pc := rfl

lemma publishes_run {repo : Git.Repo String B C} {tags : Dict String C} {remote : Remote C} {events : List (Event B C)}
    (hrun : Machine.run (Script.step cfg objects) (.start repo tags remote) events = some s) :
    s.Publishes objects s.pc :=
  Machine.run_invariant (C := fun _ _ => True) (I := fun s => s.Publishes objects s.pc)
    (fun _ _ _ h _ hstep => publishes_step h hstep) (publishes_start repo tags remote)
    (Machine.meets_of_forall (fun _ _ => trivial) events _) hrun

/-! ### The way out -/

lemma leaving_step {e : Event B C} (hleaving : s.leaving = true) (hstep : s.step cfg objects e = some s') :
    s'.leaving = true ∧ s'.remote = s.remote ∧ s'.made = s.made ∧ s'.names = s.names := by
  cases e with
  | command o =>
    obtain ⟨work, hrestore⟩ := restore_eq cfg s o.trap
    unfold Script.leaving at hleaving
    cases hat : s.pc with
    | exiting code =>
      unfold Script.step Script.command at hstep
      rw [hat] at hstep
      obtain rfl := Option.some.inj hstep
      rw [hrestore]
      refine ⟨rfl, ?_⟩
      dsimp only
      split <;> exact ⟨rfl, rfl, rfl⟩
    | exited code | killed =>
      unfold Script.step Script.command at hstep
      rw [hat] at hstep
      cases hstep
    | _ =>
      rw [hat] at hleaving
      cases hleaving
  | signal trap =>
    obtain ⟨-, ⟨-, rfl⟩ | ⟨-, rfl⟩⟩ := signal_cases hstep
    · obtain ⟨work, hrestore⟩ := restore_eq cfg s trap
      rw [hrestore]
      exact ⟨hleaving, rfl, rfl, rfl⟩
    · exact ⟨rfl, rfl, rfl, rfl⟩
  | elsewhere remote =>
    rw [(elsewhere_cases hstep).1] at hleaving
    cases hleaving

lemma Script.AllOrNothing.congr (h : s.AllOrNothing objects) (hremote : s'.remote = s.remote)
    (hmade : s'.made = s.made) (hnames : s'.names = s.names) : s'.AllOrNothing objects := by
  unfold Script.AllOrNothing
  rw [hremote, hmade, hnames]
  exact h

lemma nothing_of_publishes (h : s.Publishes objects s.pc) (hstays : s.leaving = false) (hremote : s'.remote = s.remote)
    (hmade : s'.made = s.made) : s'.AllOrNothing objects := by
  have hcases : s.made = none ∨ ∃ c, s.Fresh objects c := by
    unfold Script.leaving at hstays
    cases hat : s.pc with
    | setCommitted | tagging rest | push => exact .inr (h.fresh (by rw [hat]; rfl))
    | exiting code | exited code | killed =>
      rw [hat] at hstays
      cases hstays
    | _ =>
      rw [hat] at h
      exact .inl h
  intro c hc
  rcases hcases with hnone | ⟨c', hfresh⟩
  · rw [hmade, hnone] at hc
    cases hc
  · obtain rfl : c' = c := Option.some.inj (hfresh.made.symm.trans (hmade.symm.trans hc))
    obtain ⟨hmain, htags⟩ := absent_of_unmentioned hfresh.absent
    rw [hremote]
    exact .inr ⟨hmain, fun tag _ => htags tag⟩

lemma allOrNothing_push {c : C} (h : s.Fresh objects c) (htags : ∀ tag ∈ s.names, s.tags.get tag = some c) (code : ℕ) :
    Script.AllOrNothing objects
        { s with remote := s.remote.push objects s.repo.head s.tags s.names, pc := .exiting code } ↔
      s.OneAnswer objects := by
  obtain ⟨hmain, hfree⟩ := absent_of_unmentioned h.absent
  have hholds := holds_push h.own hmain s.tags s.names
  have htagged : ∀ tag ∈ s.names, (s.remote.push objects c s.tags s.names).tags.get tag = some c ↔
      s.remote.tags.get tag = none := fun tag htag => tagged_push (hfree tag) htag (htags tag htag)
  unfold Script.AllOrNothing Script.OneAnswer
  dsimp only
  rw [h.head, h.made]
  constructor
  · intro hall
    rcases hall c rfl with ⟨hon, hevery⟩ | ⟨hoff, hnone⟩
    · exact .inl ⟨hholds ▸ hon, fun tag htag => (htagged tag htag).mp (hevery tag htag)⟩
    · exact .inr ⟨hholds ▸ hoff, fun tag htag => fun hget => hnone tag htag ((htagged tag htag).mpr hget)⟩
  · rintro hone c' hc'
    obtain rfl := Option.some.inj hc'
    rcases hone with ⟨hon, hevery⟩ | ⟨hoff, hnone⟩
    · exact .inl ⟨hholds.trans hon, fun tag htag => (htagged tag htag).mpr (hevery tag htag)⟩
    · exact .inr ⟨hholds.trans hoff, fun tag htag hget => hnone tag htag ((htagged tag htag).mp hget)⟩

lemma allOrNothing_command {o : Outcome B} (h : s.Publishes objects s.pc) (hstays : s.leaving = false)
    (hanswered : s.Answered objects (.command o : Event B C)) (hstep : s.command cfg objects o = some s')
    (hleft : s'.leaving = true) : s'.AllOrNothing objects := by
  cases command_effect hstep with
  | fetched hat _ next hwithin hs =>
    obtain ⟨tags, hfetch, -, -⟩ := fetch_spec s o.reached
    rw [hfetch] at hs
    subst hs
    exact nothing_of_publishes h hstays rfl rfl
  | committed hat c hc hnew hs =>
    subst hs
    cases hleft
  | pushed hat hreached code hs =>
    subst hs
    rw [hat] at h
    obtain ⟨c, hfresh, htags⟩ := h
    exact (allOrNothing_push hfresh htags code).mpr (hanswered o rfl hat hreached)
  | left code hat hs =>
    unfold Script.leaving at hstays
    rw [hat] at hstays
    cases hstays
  | pass _ _ _ _ hs | opened _ _ hs | armed _ hs | wrote _ _ _ _ _ _ hs | staged _ _ _ hs | marked _ hs
    | tagged _ _ _ _ hs | tagsMade _ hs | unpublished _ hs =>
    subst hs
    exact nothing_of_publishes h hstays rfl rfl

lemma allOrNothing_step {e : Event B C} (h : s.Publishes objects s.pc)
    (hall : s.leaving = true → s.AllOrNothing objects) (hanswered : s.Answered objects e)
    (hstep : s.step cfg objects e = some s') (hleft : s'.leaving = true) : s'.AllOrNothing objects := by
  cases hstays : s.leaving with
  | true =>
    obtain ⟨-, hremote, hmade, hnames⟩ := leaving_step hstays hstep
    exact (hall hstays).congr hremote hmade hnames
  | false =>
    cases e with
    | command o => exact allOrNothing_command h hstays hanswered hstep hleft
    | signal trap =>
      obtain ⟨-, ⟨-, rfl⟩ | ⟨-, rfl⟩⟩ := signal_cases hstep
      · obtain ⟨work, hrestore⟩ := restore_eq cfg s trap
        rw [hrestore]
        exact nothing_of_publishes h hstays rfl rfl
      · exact nothing_of_publishes h hstays rfl rfl
    | elsewhere remote =>
      obtain ⟨-, -, rfl⟩ := elsewhere_cases hstep
      have hgone : s.leaving = true := hleft
      rw [hstays] at hgone
      cases hgone

lemma partial_of_not_answered {e : Event B C} (h : s.Publishes objects s.pc) (hanswered : ¬s.Answered objects e)
    (hstep : s.step cfg objects e = some s') : s'.leaving = true ∧ ¬s'.AllOrNothing objects := by
  unfold Script.Answered at hanswered
  push Not at hanswered
  obtain ⟨o, rfl, hat, hreached, hone⟩ := hanswered
  unfold Script.step Script.command at hstep
  dsimp only at hstep
  rw [hat] at hstep h
  rw [hreached, if_pos rfl] at hstep
  obtain rfl := Option.some.inj hstep
  obtain ⟨c, hfresh, htags⟩ := h
  exact ⟨rfl, fun hall => hone ((allOrNothing_push hfresh htags _).mp hall)⟩

end

/-- A script that ends has published all of its release or nothing exactly when its push got one answer. -/
theorem allOrNothing_iff_answered (cfg : Settings) (objects : Objects B C) (repo : Git.Repo String B C)
    (tags : Dict String C) (remote : Remote C) {events : List (Event B C)} {s : Script B C}
    (hrun : Machine.run (Script.step cfg objects) (.start repo tags remote) events = some s)
    (hended : s.ended = true) :
    s.AllOrNothing objects ↔
      Machine.Meets (Script.step cfg objects) (Script.Answered objects) (.start repo tags remote) events := by
  have hleaving : s.leaving = true := by
    unfold Script.ended at hended
    unfold Script.leaving
    cases hat : s.pc <;> rw [hat] at hended <;> first | rfl | cases hended
  constructor
  · intro hall
    by_contra hmeets
    obtain ⟨done, s₁, e, s₂, rest, -, hreach, hanswered, hstep, hlast⟩ := Machine.exists_of_not_meets hmeets hrun
    obtain ⟨-, hpart⟩ := Machine.run_invariant (C := fun _ _ => True)
      (I := fun s => s.leaving = true ∧ ¬s.AllOrNothing objects)
      (fun s e s' h _ hstep => by
        obtain ⟨hleaving', hremote, hmade, hnames⟩ := leaving_step h.1 hstep
        exact ⟨hleaving', fun hall => h.2 (hall.congr hremote.symm hmade.symm hnames.symm)⟩)
      (partial_of_not_answered (publishes_run hreach) hanswered hstep)
      (Machine.meets_of_forall (fun _ _ => trivial) rest s₂) hlast
    exact hpart hall
  · intro hmeets
    have hinvariant := Machine.run_invariant
      (I := fun s => s.Publishes objects s.pc ∧ (s.leaving = true → s.AllOrNothing objects))
      (fun _ _ _ h hanswered hstep => ⟨publishes_step h.1 hstep, allOrNothing_step h.1 h.2 hanswered hstep⟩)
      ⟨publishes_start repo tags remote, nofun⟩ hmeets hrun
    exact hinvariant.2 hleaving

theorem release_published : ∃ s,
    Machine.run (Script.step (plainSettings false) (Chain.objects ℕ)) plainStart
      (List.replicate 28 (plainCommand true)) = some s ∧ s.made.isSome = true ∧ s.AllOrNothing (Chain.objects ℕ) := by
  refine ⟨_, rfl, rfl, ?_⟩
  refine (allOrNothing_iff_answered (plainSettings false) (Chain.objects ℕ) plainStart.repo [] ⟨none, []⟩
    (rfl : Machine.run _ plainStart (List.replicate 28 (plainCommand true)) = _) rfl).mpr ?_
  iterate 26 refine Machine.meets_cons rfl nofun ?_
  refine Machine.meets_cons rfl (fun _ _ _ _ => .inl ⟨rfl, fun _ _ => rfl⟩) ?_
  refine Machine.meets_cons rfl nofun ?_
  trivial

/-! ### A main that moved -/

/-- A commit on top of the one the release starts from, with a stamp of its own. -/
def nextCommit (stamp : ℕ) (index : Git.Tree String ℕ) : Chain ℕ := (Chain.objects ℕ).newCommit stamp index plainCommit

lemma nextCommit_apart {stamp stamp' : ℕ} (hne : stamp ≠ stamp') (index index' : Git.Tree String ℕ) :
    nextCommit stamp index ∉ (Chain.objects ℕ).history (nextCommit stamp' index') := by
  intro hmem
  have hlist : ([(stamp, index), (0, plainTree)] : List (ℕ × Git.Tree String ℕ)) ∈
    [[(stamp', index'), (0, plainTree)], [(0, plainTree)], []] := hmem
  simp [hne] at hlist

/-- Someone else's commit on the remote's main. -/
def movedMain : Remote (Chain ℕ) := ⟨some (nextCommit 7 plainTree), []⟩

lemma movedMain_unaware (index : Git.Tree String ℕ) :
    movedMain.mentions (Chain.objects ℕ) (nextCommit 1 index) = false := by
  refine Bool.or_eq_false_iff.mpr ⟨?_, rfl⟩
  change decide (nextCommit 1 index ∈ (Chain.objects ℕ).history (nextCommit 7 plainTree)) = false
  exact decide_eq_false (nextCommit_apart (by decide) index plainTree)

lemma movedMain_rejects (index : Git.Tree String ℕ) :
    movedMain.takesMain (Chain.objects ℕ) (nextCommit 1 index) = false :=
  decide_eq_false (nextCommit_apart (by decide) plainTree index)

lemma run_to_push : ∃ s, Machine.run (Script.step (plainSettings false) (Chain.objects ℕ)) plainStart
    (List.replicate 21 (plainCommand true) ++ [.elsewhere movedMain] ++ List.replicate 5 (plainCommand true)) = some s ∧
    s.pc = .push ∧ s.remote = movedMain ∧ (∃ index, s.repo.head = nextCommit 1 index) ∧ "v2026.7.0" ∈ s.names :=
  ⟨_, (Machine.run_append _ _).trans ((congrArg (Option.bind · _) rfl).trans
    ((Machine.run_cons (if_neg (ne_true_of_eq_false (movedMain_unaware _))) _).trans rfl)), rfl, rfl, ⟨_, rfl⟩,
    List.mem_cons_self⟩

/-- After a push that got two answers the script ends, with a part of the release on the remote. -/
lemma run_push {cfg : Settings} {s : Script B C} {o : Outcome B} (h : s.Publishes objects s.pc)
    (hat : s.pc = .push) (hreached : o.reached = true) (hanswered : ¬s.Answered objects (.command o : Event B C)) :
    ∃ s₂, Machine.run (Script.step cfg objects) s [.command o, .command o] = some s₂ ∧ s₂.ended = true ∧
      ¬s₂.AllOrNothing objects := by
  have hpush : ∃ s₁ code, s.step cfg objects (.command o) = some s₁ ∧ s₁.pc = .exiting code := by
    unfold Script.step Script.command
    dsimp only
    rw [hat, hreached, if_pos rfl]
    exact ⟨_, _, rfl, rfl⟩
  obtain ⟨s₁, code, hs₁, hexit⟩ := hpush
  have hend : ∃ s₂, s₁.step cfg objects (.command o) = some s₂ ∧ s₂.ended = true := by
    unfold Script.step Script.command
    dsimp only
    rw [hexit]
    exact ⟨_, rfl, rfl⟩
  obtain ⟨s₂, hs₂, hended⟩ := hend
  obtain ⟨hleaving, hpart⟩ := partial_of_not_answered h hanswered hs₁
  obtain ⟨-, hremote, hmade, hnames⟩ := leaving_step hleaving hs₂
  refine ⟨s₂, (Machine.run_cons hs₁ _).trans (Machine.run_cons hs₂ _), hended, fun hall => ?_⟩
  exact hpart (hall.congr hremote.symm hmade.symm hnames.symm)

/-- The tags are published, on a commit that is not on main. -/
theorem tags_without_main : ∃ s,
    Machine.run (Script.step (plainSettings false) (Chain.objects ℕ)) plainStart
      (List.replicate 21 (plainCommand true) ++ [.elsewhere movedMain] ++ List.replicate 5 (plainCommand true) ++
        [plainCommand true, plainCommand true]) = some s ∧
      s.ended = true ∧ ¬s.AllOrNothing (Chain.objects ℕ) := by
  obtain ⟨s, hrun, hat, hremote, ⟨index, hhead⟩, hname⟩ := run_to_push
  have hanswered : ¬s.Answered (Chain.objects ℕ) (plainCommand true) := by
    intro hanswered
    have hrejected := movedMain_rejects index
    rw [← hremote, ← hhead] at hrejected
    rcases hanswered _ rfl hat rfl with ⟨htaken, -⟩ | ⟨-, hpresent⟩
    · rw [hrejected] at htaken
      cases htaken
    · refine hpresent _ hname ?_
      rw [hremote]
      rfl
  obtain ⟨s₂, hrest, hend⟩ := run_push (publishes_run hrun) hat rfl hanswered
  refine ⟨s₂, ?_, hend⟩
  rw [Machine.run_append, hrun]
  exact hrest

end SciForge.Tools.Release
