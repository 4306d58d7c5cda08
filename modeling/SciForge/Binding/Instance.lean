import SciForge.Binding.Calls
import SciForge.Lib.Ownership

/-!
# Wrapped instances

The instances of one wrapped type and the `T` values they hold, over runs of Python-level operations. A call of
`__init__`, a method or a getter is a frame; while it runs any further operation can take place.
-/

namespace SciForge.Binding

/-! ### The machine -/

/-- A call that is running on an instance: an `__init__` past its test, or a method or getter. -/
inductive Frame
  | init (self : ℕ)
  | method (self : ℕ)
deriving DecidableEq

def Frame.self : Frame → ℕ
  | .init self => self
  | .method self => self

/-- The instances that exist, the values they hold, the calls that are running, innermost first, and how many
`__init__` calls of each instance have succeeded. -/
structure Instances where
  live : ℕ → Bool
  next : ℕ
  heap : Ownership ℕ
  frames : List Frame
  successes : ℕ → ℕ

def Instances.initial : Instances := ⟨fun _ => false, 0, .empty, [], fun _ => 0⟩

/-- One step: `__new__`; a call of `__init__`, and its end, by a failure or by the store; a call of a method or
getter, and its end; a value wrapped by C++; the last reference dropped. -/
inductive Action
  | new
  | init (self : ℕ)
  | initFail
  | initStore
  | method (self : ℕ)
  | methodEnd
  | wrap (fails : Bool)
  | dealloc (self : ℕ)
deriving DecidableEq

namespace Instances

/-- `PyType_GenericNew`: a new instance, which holds nothing. -/
def genericNew (s : Instances) : Instances :=
  { s with live := Function.update s.live s.next true, next := s.next + 1 }

/-- `class_init` up to the conversions: an instance that holds a value is refused. -/
def initCall (s : Instances) (self : ℕ) : Instances :=
  if (s.heap.held self).isSome then s else { s with frames := .init self :: s.frames }

/-- The end of `class_init`: `held` is stored. -/
def initStore (s : Instances) (self : ℕ) (frames : List Frame) : Instances :=
  { s with heap := s.heap.store self, frames := frames,
           successes := Function.update s.successes self (s.successes self + 1) }

/-- `class_unwrap` and the call: an instance that holds nothing is refused. -/
def methodCall (s : Instances) (self : ℕ) : Instances :=
  if (s.heap.held self).isSome then { s with frames := .method self :: s.frames } else s

/-- `class_wrap`: when the value cannot be allocated the instance is dropped again. -/
def classWrap (s : Instances) (fails : Bool) : Instances :=
  if fails then s else { genericNew s with heap := s.heap.store s.next }

def classDealloc (s : Instances) (self : ℕ) : Instances :=
  { s with live := Function.update s.live self false, heap := s.heap.release self }

/-- A step, where it can take place: operations need an instance, ends need their frame, and an instance is
dropped only when no running call refers to it. -/
def step (s : Instances) : Action → Option Instances
  | .new => some s.genericNew
  | .init self => if s.live self then some (s.initCall self) else none
  | .initFail =>
    match s.frames with
    | .init _ :: frames => some { s with frames := frames }
    | _ => none
  | .initStore =>
    match s.frames with
    | .init self :: frames => some (s.initStore self frames)
    | _ => none
  | .method self => if s.live self then some (s.methodCall self) else none
  | .methodEnd =>
    match s.frames with
    | .method _ :: frames => some { s with frames := frames }
    | _ => none
  | .wrap fails => some (s.classWrap fails)
  | .dealloc self =>
    if s.live self && s.frames.all (fun frame => frame.self ≠ self) then some (s.classDealloc self) else none

def run (s : Instances) : List Action → Option Instances
  | [] => some s
  | a :: rest => (s.step a).bind (fun s' => s'.run rest)

/-! ### A whole `__init__` -/

section Calls

variable {V W : Type}

/-- A call of `__init__` stores a value in an instance that held none, or fails and leaves it as it was. -/
lemma classInit_held (parse : ParseTuple) (spec : KwSpec) (name : String) (callee : Callee V W) (newFails : Bool)
    (errorType : Option ℕ) (args : List PyValue) (kwargs : Kwargs) (held : Option W) :
    Triple (fun _ => True) (classInit parse spec name callee newFails errorType args kwargs held)
      (fun result _ => (result.1 = true ∧ held = none ∧ result.2.isSome) ∨ (result.1 = false ∧ result.2 = held))
      (fun _ _ => True) := by
  have hanything : ∀ {α : Type} (p : Call V α), Triple (fun _ => True) p (fun _ _ => True) (fun _ _ => True) := by
    intro α p s _
    generalize p s = r
    rcases r with ⟨e | a, s'⟩
    · trivial
    · trivial
  unfold classInit
  refine Triple.ite (fun hsome => ?_) (fun hnone => ?_)
  · exact Triple.bind (hanything _) (fun _ => Triple.pure (fun _ _ => .inr ⟨rfl, rfl⟩))
  · apply Triple.bind (hanything _)
    intro resolved
    cases resolved with
    | none => exact Triple.pure (fun _ _ => .inr ⟨rfl, rfl⟩)
    | some objs =>
      refine Triple.attempt (R := fun _ _ => True) (Triple.bind (hanything _) (fun value => ?_)) (fun stop => ?_)
      · refine Triple.ite (fun _ => fun _ _ => trivial) (fun _ => Triple.pure (fun _ _ => .inl ⟨rfl, ?_, rfl⟩))
        exact Option.not_isSome_iff_eq_none.mp hnone
      · exact Triple.bind (hanything _) (fun _ => Triple.pure (fun _ _ => .inr ⟨rfl, rfl⟩))

/-- The machine does what a whole call of `class_init` does to its instance. -/
theorem classInit_run {s : Instances} {o : ℕ} (hlive : s.live o = true) {parse : ParseTuple} {spec : KwSpec}
    {name : String} {callee : Callee V W} {newFails : Bool} {errorType : Option ℕ} {args : List PyValue}
    {kwargs : Kwargs} {held held' : Option W} (hheld : (s.heap.held o).isSome = held.isSome) {succeeded : Bool}
    {st st' : CallState V}
    (hcall : classInit parse spec name callee newFails errorType args kwargs held st = (.ok (succeeded, held'), st')) :
    ∃ acts s', s.run acts = some s' ∧ (s'.heap.held o).isSome = held'.isSome ∧
      s'.successes o = s.successes o + (if succeeded then 1 else 0) ∧ s'.frames = s.frames := by
  have hout := classInit_held parse spec name callee newFails errorType args kwargs held st trivial
  rw [hcall] at hout
  have hinit : s.step (.init o) = some (s.initCall o) := by
    rw [step, if_pos hlive]
  rcases hout with ⟨rfl, rfl, hsome⟩ | ⟨rfl, rfl⟩
  · refine ⟨[.init o, .initStore], s.initStore o s.frames, ?_, ?_, ?_, rfl⟩
    · unfold run initCall at *
      rw [hinit, hheld, if_neg (by exact Bool.false_ne_true)]
      rfl
    · rw [show (s.initStore o s.frames).heap.held o = _ from Ownership.store_held_self]
      exact hsome.symm
    · exact Function.update_self _ _ _
  · cases hbefore : held'.isSome with
    | true =>
      refine ⟨[.init o], s, ?_, hheld.trans hbefore, rfl, rfl⟩
      unfold run initCall at *
      rw [hinit, hheld, hbefore, if_pos rfl]
      rfl
    | false =>
      refine ⟨[.init o, .initFail], s, ?_, hheld.trans hbefore, rfl, rfl⟩
      unfold run initCall at *
      rw [hinit, hheld, hbefore, if_neg Bool.false_ne_true]
      rfl

end Calls

/-! ### What the substrate promises -/

/-- No instance has been initialised twice, and each value is held by one instance, or has been deleted once. -/
structure Settled (s : Instances) : Prop where
  once : ∀ o, s.successes o ≤ 1
  values : ∀ p < s.heap.made, (s.heap.deleted p = 1 ∧ ∀ o, s.heap.held o ≠ some p) ∨
    (s.heap.deleted p = 0 ∧ ∃ o, s.live o ∧ s.heap.held o = some p ∧ ∀ o', s.heap.held o' = some p → o' = o)

/-- A call of `__init__` fails in this step. -/
def InitFails (s : Instances) (a : Action) : Prop :=
  a = .initFail ∨ ∃ o, a = .init o ∧ (s.heap.held o).isSome

/-- A step replaces no value, and an `__init__` that fails changes none. -/
structure Keeps (s : Instances) (a : Action) (s' : Instances) : Prop where
  held : ∀ o p, s.heap.held o = some p → a ≠ .dealloc o → s'.heap.held o = some p
  failed : s.InitFails a → s'.heap = s.heap

/-- In a run from `s`: every state is settled and every step keeps the values. -/
def TakesValueOnce : Instances → List Action → Prop
  | s, [] => s.Settled
  | s, a :: rest => s.Settled ∧ ∀ s', s.step a = some s' → s.Keeps a s' ∧ s'.TakesValueOnce rest

/-- In a run from `s`: an `__init__` that stores finds its instance still without a value. -/
def StoresIntoEmpty : Instances → List Action → Prop
  | _, [] => True
  | s, a :: rest =>
    (a = .initStore → ∀ o frames, s.frames = .init o :: frames → s.heap.held o = none) ∧
      ∀ s', s.step a = some s' → s'.StoresIntoEmpty rest

/-! ### The invariant -/

structure Inv (s : Instances) : Prop where
  exact : s.heap.Exact
  frames_live : ∀ o, .init o ∈ s.frames → s.live o = true
  lt_next : ∀ o, s.live o = true → o < s.next
  dead : ∀ o, s.live o = false → s.heap.held o = none
  once : ∀ o, s.successes o ≤ 1
  unset : ∀ o, s.live o = true → s.heap.held o = none → s.successes o = 0
  unborn : ∀ o, s.next ≤ o → s.successes o = 0

lemma inv_initial : Inv initial :=
  ⟨Ownership.exact_empty, fun _ h => (nomatch h), fun _ h => (nomatch h), fun _ _ => rfl, fun _ => Nat.zero_le _,
    fun _ _ _ => rfl, fun _ _ => rfl⟩

variable {s : Instances}

lemma Inv.settled (h : Inv s) : s.Settled := by
  refine ⟨h.once, fun p hp => (h.exact.cells p hp).imp_right (fun ⟨hdeleted, o, ho⟩ => ?_)⟩
  refine ⟨hdeleted, o, ?_, ho, fun o' ho' => h.exact.unique o o' p ho ho'⟩
  by_contra hdead
  rw [h.dead o (Bool.eq_false_iff.mpr hdead)] at ho
  cases ho

lemma Inv.next_dead (h : Inv s) : s.live s.next = false := by
  by_contra hlive
  exact absurd (h.lt_next s.next (by simpa using hlive)) (lt_irrefl _)

lemma Inv.grow (h : Inv s) {heap : Ownership ℕ} (hexact : heap.Exact)
    (hothers : ∀ o, o ≠ s.next → heap.held o = s.heap.held o) : Inv { s.genericNew with heap := heap } := by
  have hlive : ∀ o, Function.update s.live s.next true o = true → o = s.next ∨ s.live o = true := by
    intro o ho
    by_cases he : o = s.next
    · exact .inl he
    · rw [Function.update_of_ne he] at ho
      exact .inr ho
  refine ⟨hexact, fun o ho => ?_, fun o ho => ?_, fun o ho => ?_, h.once, fun o ho hnone => ?_,
    fun o ho => h.unborn o (Nat.le_of_succ_le ho)⟩
  · change Function.update s.live s.next true o = true
    by_cases he : o = s.next
    · rw [he, Function.update_self]
    · rw [Function.update_of_ne he]
      exact h.frames_live o ho
  · rcases hlive o ho with rfl | ho
    · exact Nat.lt_succ_self _
    · exact (h.lt_next o ho).trans (Nat.lt_succ_self _)
  · change Function.update s.live s.next true o = false at ho
    by_cases he : o = s.next
    · rw [he, Function.update_self] at ho
      cases ho
    · rw [Function.update_of_ne he] at ho
      exact (hothers o he).trans (h.dead o ho)
  · rcases hlive o ho with rfl | ho
    · exact h.unborn s.next le_rfl
    · have hne : o ≠ s.next := (h.lt_next o ho).ne
      exact h.unset o ho ((hothers o hne).symm.trans hnone)

lemma Inv.reframe (h : Inv s) {frames : List Frame} (hframes : ∀ o, .init o ∈ frames → s.live o = true) :
    Inv { s with frames := frames } :=
  ⟨h.exact, hframes, h.lt_next, h.dead, h.once, h.unset, h.unborn⟩

lemma Inv.initStore (h : Inv s) {o : ℕ} {frames : List Frame} (hframes : s.frames = .init o :: frames)
    (hnone : s.heap.held o = none) : Inv (s.initStore o frames) := by
  have hlive : s.live o = true := h.frames_live o (hframes ▸ List.mem_cons_self)
  have hzero := h.unset o hlive hnone
  have hsuccesses : ∀ o', o' ≠ o → (s.initStore o frames).successes o' = s.successes o' :=
    fun o' hne => Function.update_of_ne hne _ _
  refine ⟨h.exact.store hnone, fun o' ho' => h.frames_live o' (hframes ▸ List.mem_cons_of_mem _ ho'), h.lt_next,
    fun o' ho' => ?_, fun o' => ?_, fun o' ho' hnone' => ?_, fun o' ho' => ?_⟩
  · have hne : o' ≠ o := by
      rintro rfl
      rw [show s.live o' = false from ho'] at hlive
      cases hlive
    exact (Ownership.store_held_of_ne hne).trans (h.dead o' ho')
  · by_cases he : o' = o
    · subst he
      change Function.update s.successes o' (s.successes o' + 1) o' ≤ 1
      rw [Function.update_self, hzero]
    · rw [hsuccesses o' he]
      exact h.once o'
  · by_cases he : o' = o
    · subst he
      rw [show (s.initStore o' frames).heap.held o' = _ from Ownership.store_held_self] at hnone'
      cases hnone'
    · rw [hsuccesses o' he]
      exact h.unset o' ho' ((Ownership.store_held_of_ne he).symm.trans hnone')
  · have hne : o' ≠ o := (lt_of_lt_of_le (h.lt_next o hlive) ho').ne'
    rw [hsuccesses o' hne]
    exact h.unborn o' ho'

lemma Inv.classDealloc (h : Inv s) {o : ℕ} (hframes : .init o ∉ s.frames) : Inv (s.classDealloc o) := by
  have hlive : ∀ o', o' ≠ o → (s.classDealloc o).live o' = s.live o' := fun o' hne => Function.update_of_ne hne _ _
  have hgone : (s.classDealloc o).live o = false := Function.update_self _ _ _
  have hheld : ∀ o', o' ≠ o → (s.classDealloc o).heap.held o' = s.heap.held o' :=
    fun o' hne => Ownership.release_held_of_ne hne
  have hne : ∀ o', (s.classDealloc o).live o' = true → o' ≠ o := by
    rintro o' ho' rfl
    rw [hgone] at ho'
    cases ho'
  refine ⟨h.exact.release, fun o' ho' => ?_, fun o' ho' => ?_, fun o' ho' => ?_, h.once, fun o' ho' hnone => ?_,
    h.unborn⟩
  · have hne' : o' ≠ o := by
      rintro rfl
      exact hframes ho'
    rw [hlive o' hne']
    exact h.frames_live o' ho'
  · exact h.lt_next o' (hlive o' (hne o' ho') ▸ ho')
  · by_cases he : o' = o
    · subst he
      exact Ownership.release_held_self
    · rw [hheld o' he]
      exact h.dead o' (hlive o' he ▸ ho')
  · exact h.unset o' (hlive o' (hne o' ho') ▸ ho') (hheld o' (hne o' ho') ▸ hnone)

lemma Inv.pop (h : Inv s) {frame : Frame} {frames : List Frame} (hframes : s.frames = frame :: frames) :
    Inv { s with frames := frames } :=
  h.reframe (fun o ho => h.frames_live o (hframes ▸ List.mem_cons_of_mem _ ho))

lemma Inv.push (h : Inv s) {frame : Frame} (hlive : ∀ o, frame = .init o → s.live o = true) :
    Inv { s with frames := frame :: s.frames } := by
  apply h.reframe
  intro o ho
  rcases List.mem_cons.mp ho with he | ho
  · exact hlive o he.symm
  · exact h.frames_live o ho

/-! ### Steps -/

lemma Keeps.of_heap {a : Action} {s' : Instances} (hheap : s'.heap = s.heap) : s.Keeps a s' :=
  ⟨fun _ _ hp _ => hheap ▸ hp, fun _ => hheap⟩

lemma Keeps.of_store {a : Action} {s' : Instances} {o : ℕ} (ha : ¬s.InitFails a) (hnone : s.heap.held o = none)
    (hheap : s'.heap = s.heap.store o) : s.Keeps a s' := by
  refine ⟨fun o' p hp _ => ?_, fun hfails => absurd hfails ha⟩
  have hne : o' ≠ o := by
    rintro rfl
    rw [hnone] at hp
    cases hp
  rw [hheap]
  exact (Ownership.store_held_of_ne hne).trans hp

lemma Keeps.dealloc (o : ℕ) : s.Keeps (.dealloc o) (s.classDealloc o) := by
  refine ⟨fun o' p hp hne => ?_, fun hfails => ?_⟩
  · have ho : o' ≠ o := fun he => hne (he ▸ rfl)
    exact (Ownership.release_held_of_ne ho).trans hp
  · rcases hfails with hf | ⟨o', hf, -⟩
    · cases hf
    · cases hf

/-- A step other than a store over a value keeps the invariant and the values. -/
lemma step_inv (h : Inv s) {a : Action}
    (hstore : a = .initStore → ∀ o frames, s.frames = .init o :: frames → s.heap.held o = none) {s' : Instances}
    (hstep : s.step a = some s') : Inv s' ∧ s.Keeps a s' := by
  cases a with
  | new =>
    obtain rfl := Option.some.inj hstep
    exact ⟨h.grow h.exact (fun _ _ => rfl), .of_heap rfl⟩
  | init self =>
    rw [step] at hstep
    split_ifs at hstep with hlive
    obtain rfl := Option.some.inj hstep
    unfold initCall
    split_ifs
    · exact ⟨h, .of_heap rfl⟩
    · exact ⟨h.push (fun o ho => Frame.init.inj ho ▸ hlive), .of_heap rfl⟩
  | initFail =>
    rw [step] at hstep
    split at hstep
    · next self frames hframes =>
      obtain rfl := Option.some.inj hstep
      exact ⟨h.pop hframes, .of_heap rfl⟩
    · cases hstep
  | initStore =>
    rw [step] at hstep
    split at hstep
    · next self frames hframes =>
      obtain rfl := Option.some.inj hstep
      have hnone := hstore rfl self frames hframes
      exact ⟨h.initStore hframes hnone, .of_store (by simp [InitFails]) hnone rfl⟩
    · cases hstep
  | method self =>
    rw [step] at hstep
    split_ifs at hstep with hlive
    obtain rfl := Option.some.inj hstep
    unfold methodCall
    split_ifs
    · exact ⟨h.push (fun o ho => by cases ho), .of_heap rfl⟩
    · exact ⟨h, .of_heap rfl⟩
  | methodEnd =>
    rw [step] at hstep
    split at hstep
    · next self frames hframes =>
      obtain rfl := Option.some.inj hstep
      exact ⟨h.pop hframes, .of_heap rfl⟩
    · cases hstep
  | wrap fails =>
    obtain rfl := Option.some.inj hstep
    unfold classWrap
    cases fails with
    | true => exact ⟨h, .of_heap rfl⟩
    | false =>
      have hnone := h.dead s.next h.next_dead
      refine ⟨h.grow (h.exact.store hnone) (fun o hne => Ownership.store_held_of_ne hne), ?_⟩
      exact .of_store (by simp [InitFails]) hnone rfl
  | dealloc self =>
    rw [step] at hstep
    split_ifs at hstep with hguard
    obtain rfl := Option.some.inj hstep
    -- the guard: no running call refers to the instance
    have hframes : Frame.init self ∉ s.frames := by
      intro hmem
      have hall := List.all_eq_true.mp (Bool.and_eq_true_iff.mp hguard).2 _ hmem
      simp [Frame.self] at hall
    exact ⟨h.classDealloc hframes, .dealloc self⟩

/-! ### Runs -/

lemma takesValueOnce_of_inv (h : Inv s) {acts : List Action} (hstores : s.StoresIntoEmpty acts) :
    s.TakesValueOnce acts := by
  induction acts generalizing s with
  | nil => exact h.settled
  | cons a rest ih =>
    refine ⟨h.settled, fun s' hstep => ?_⟩
    obtain ⟨hinv, hkeeps⟩ := step_inv h hstores.1 hstep
    exact ⟨hkeeps, ih hinv (hstores.2 s' hstep)⟩

lemma storesIntoEmpty_of_inv (h : Inv s) {acts : List Action} (htakes : s.TakesValueOnce acts) :
    s.StoresIntoEmpty acts := by
  induction acts generalizing s with
  | nil => trivial
  | cons a rest ih =>
    have hstore : a = .initStore → ∀ o frames, s.frames = .init o :: frames → s.heap.held o = none := by
      rintro rfl o frames hframes
      by_contra hsome
      obtain ⟨p, hp⟩ := Option.ne_none_iff_exists'.mp hsome
      have hstep : s.step .initStore = some (s.initStore o frames) := by
        unfold step
        rw [hframes]
      have hkept := (htakes.2 _ hstep).1.held o p hp (fun he => by cases he)
      rw [show (s.initStore o frames).heap.held o = _ from Ownership.store_held_self] at hkept
      exact absurd (h.exact.made_of_held o p hp) (Option.some.inj hkept ▸ lt_irrefl _)
    refine ⟨hstore, fun s' hstep => ?_⟩
    exact ih (step_inv h hstore hstep).1 (htakes.2 s' hstep).2

/-- In every run the instances take their values once exactly when no `__init__` stores into an instance that an
`__init__` nested in it has given a value meanwhile. -/
theorem instances_take_value_once_iff (acts : List Action) :
    initial.TakesValueOnce acts ↔ initial.StoresIntoEmpty acts :=
  ⟨storesIntoEmpty_of_inv inv_initial, takesValueOnce_of_inv inv_initial⟩

/-- An `__init__` nested in the conversions of another: both succeed, and the first value is never deleted, not
even with the instance. -/
theorem nested_init_leaks :
    ∃ s, initial.run [.new, .init 0, .init 0, .initStore, .initStore, .dealloc 0] = some s ∧
      s.successes 0 = 2 ∧ s.heap.made = 2 ∧ s.live 0 = false ∧ s.heap.deleted 0 = 0 ∧ s.heap.deleted 1 = 1 ∧
      ¬initial.TakesValueOnce [.new, .init 0, .init 0, .initStore, .initStore, .dealloc 0] := by
  refine ⟨_, rfl, rfl, rfl, rfl, rfl, rfl, fun h => ?_⟩
  -- the state after the second store
  have htwice := ((((((h.2 _ rfl).2.2 _ rfl).2.2 _ rfl).2.2 _ rfl).2.2 _ rfl).2.1).once 0
  exact absurd htwice (by decide)

end Instances

end SciForge.Binding
