import SciForge.Binding.EntryErrors

/-!
# Answers of the entry points

The slots, and what any call from Python leaves: the sentinel with an error or without, and how its failures are
translated.
-/

namespace SciForge.Binding

variable {C H R : Type} {rt : Runtime C H}

/-! ### The slots -/

/-- A slot's `try` block is left by `exn`: no argument was converted. -/
structure SlotThrown (exn : CxxExn) (s : Interp × Trace) : Prop where
  trace : s.2 = .start
  thrownWith : ThrownWith exn s.1.pending

lemma SlotThrown.of_begun {s : Interp × Trace} (hs : Begun s) (what : String) : SlotThrown (.castError what) s :=
  ⟨hs.2, fun h => by cases h⟩

lemma SlotThrown.bridged {exn : CxxExn} {s : Interp × Trace} (h : SlotThrown exn s) (sentinel : Answer H)
    (hsentinel : sentinel.isSentinel = true) (errorType : Option ℕ) :
    Done (errorType.isNone && (exn.isForeign || exn.isCast)) false sentinel
      ({ s.1 with pending := bridgedError errorType exn s.1.pending },
        { s.2 with caught := some exn, bridged := true }) := by
  have hraised : s.2.raised = [] := by
    rw [h.trace]
    rfl
  exact (thrown_of_start h.trace h.thrownWith rfl).bridge_done hsentinel (.inl hraised) errorType _ rfl

lemma behave_slot {null : R → Bool} (behaviour : Behaviour R null) {s : Interp × Trace} (hs : Begun s) :
    (∃ value pending, pending.isSome = null value ∧ behaviour.foreign notNull = false ∧
      behaviour.casts = false ∧ behaviour.castsPending = false ∧
      behave behaviour s = (.ok value, ({ s.1 with pending := pending }, s.2))) ∨
    (∃ exn s', behave behaviour s = (.error exn, s') ∧ SlotThrown exn s' ∧
      behaviour.foreign notNull = exn.isForeign ∧ behaviour.casts = exn.isCast ∧
      behaviour.castsPending = (exn.isCast && s'.1.pending.isSome)) := by
  cases behaviour with
  | returns value pending agree => exact .inl ⟨value, pending, agree, rfl, rfl, rfl, rfl⟩
  | throws exn pending agree =>
    refine .inr ⟨exn, ({ s.1 with pending := pending }, s.2), rfl, ⟨hs.2, agree⟩, rfl, ?_, ?_⟩
    · cases exn <;> rfl
    · cases exn <;> rfl

lemma done_of_nothing_raised {muted : Bool} {answer : Answer H} {s : Interp × Trace}
    (hsentinel : s.1.pending.isSome = answer.isSentinel ↔ muted = false) (hraised : s.2.raised = []) :
    Done muted false answer s :=
  ⟨hsentinel, by simp [hraised]⟩

/-- A `str` made while an error may be pending: the answer agrees with the error unless the `str` was made and an
error was there before. -/
lemma text_answer_run {ε : Type} (value : Scalar) (error : Option Pending) (s : Interp × Trace) :
    ∃ object s₁, Prog.lift (scalarToPython (H := H) (ε := ε) value error) s = (.ok object, (s₁, s.2)) ∧
      (s₁.pending.isSome = (Answer.ofObject object).isSentinel ↔ (error.isNone && s.1.pending.isSome) = false) := by
  cases error with
  | some err => exact ⟨none, _, rfl, iff_of_true rfl rfl⟩
  | none =>
    refine ⟨some _, _, rfl, ?_⟩
    rw [Option.isNone_none, Bool.true_and]
    exact Iff.rfl

/-- A `cast_error` with a Python error pending is answered with a value: the placeholder of `repr`, or
`NotImplemented`. -/
def EntryCall.answersPending : EntryCall rt → Bool
  | .repr cls text _ placeholderError self =>
    placeholderError.isNone && (rt.unwrapped cls self).any (fun held => (text held).castsPending)
  | .richcompare cls equal self other op =>
    (op = .eq || op = .ne) && (rt.unwrapped cls self).any (fun left =>
      (rt.unwrapped cls other).any (fun right => (equal left right).castsPending))
  | _ => false

/-- The answer of the call does not agree with the error it leaves. -/
def EntryCall.muted (call : EntryCall rt) : Bool := rt.errorType.isNone && call.foreign || call.answersPending

variable (rt) in
lemma repr_caught {exn : CxxExn} {s : Interp × Trace} (h : SlotThrown exn s) (placeholderError : Option Pending) :
    Outcome (Done (rt.errorType.isNone && exn.isForeign ||
        placeholderError.isNone && (exn.isCast && s.1.pending.isSome)) false) (fun _ _ => False)
      ((do
        noteCaught exn
        match exn with
        | .castError _ => do
          let object ← .lift (scalarToPython (.text (bytes "<uninitialized>")) placeholderError)
          pure (.ofObject object)
        | exn => do
          bridge rt.errorType exn
          pure .null : Entry (Answer H)) s) := by
  have hbridged : exn.isCast = false → Outcome (Done (rt.errorType.isNone && exn.isForeign ||
      placeholderError.isNone && (exn.isCast && s.1.pending.isSome)) false) (fun _ _ => False)
        ((.ok .null, ({ s.1 with pending := bridgedError rt.errorType exn s.1.pending },
          { s.2 with caught := some exn, bridged := true })) : Except CallStop (Answer H) × (Interp × Trace)) := by
    intro hcast
    have hdone := h.bridged (.null : Answer H) rfl rt.errorType
    rw [hcast, Bool.or_false] at hdone
    rw [hcast, Bool.false_and, Bool.and_false, Bool.or_false]
    exact hdone
  cases exn with
  | castError what =>
    obtain ⟨object, s₁, hrun, hanswer⟩ := text_answer_run (H := H) (ε := CallStop)
      (.text (bytes "<uninitialized>")) placeholderError (s.1, { s.2 with caught := some (.castError what) })
    have hall : Outcome (Done (placeholderError.isNone && s.1.pending.isSome) false) (fun _ _ => False)
        ((Prog.lift (scalarToPython (.text (bytes "<uninitialized>")) placeholderError) >>= fun object =>
          pure (Answer.ofObject object) : Entry (Answer H))
            (s.1, { s.2 with caught := some (.castError what) })) := by
      rw [Prog.run_bind_ok hrun]
      refine done_of_nothing_raised hanswer ?_
      rw [h.trace]
      rfl
    rw [show CxxExn.isForeign (.castError what) = false from rfl, Bool.and_false, Bool.false_or]
    exact hall
  | errorAlreadySet => exact hbridged rfl
  | badAlloc => exact hbridged rfl
  | stdException what => exact hbridged rfl
  | other => exact hbridged rfl

lemma classRepr_done (cls : C) (text : H → Behaviour Bytes notNull) (textError : Bytes → Option Pending)
    (placeholderError : Option Pending) (self : PyValue) :
    Triple Begun (rt.classRepr cls text textError placeholderError self)
      (Done (EntryCall.repr cls text textError placeholderError self : EntryCall rt).muted false)
      (fun _ _ => False) := by
  intro s hs
  unfold Runtime.classRepr
  rw [EntryCall.muted, EntryCall.foreign, EntryCall.answersPending]
  rcases unwrap_run rt cls self s with ⟨held, hheld, hrun⟩ | ⟨hnone, what, hrun⟩
  · rw [hheld, Option.any_some, Option.any_some]
    rcases behave_slot (text held) hs with ⟨value, pending, hpending, hforeign, -, hcasts, hbehave⟩ |
      ⟨exn, s', hbehave, hthrown, hforeign, -, hcasts⟩
    · obtain ⟨object, s₁, hlift, hanswer⟩ := text_answer_run (H := H) (ε := CxxExn) (.text value)
        (textError value) ({ s.1 with pending := pending }, s.2)
      have hnone : pending.isSome = false := hpending
      rw [Prog.run_attempt_ok ((Prog.run_bind_ok hrun).trans ((Prog.run_bind_ok hbehave).trans
        (Prog.run_bind_ok hlift)))]
      refine done_of_nothing_raised (hanswer.trans ?_) (by rw [hs.2]; rfl)
      rw [hcasts, Bool.and_false, Bool.or_false]
      exact iff_of_true (by rw [hnone, Bool.and_false]) (by rw [hforeign, Bool.and_false])
    · rw [Prog.run_attempt_error ((Prog.run_bind_ok hrun).trans (Prog.run_bind_error hbehave)), hcasts]
      exact hforeign ▸ repr_caught rt hthrown placeholderError
  · rw [hnone, Prog.run_attempt_error (Prog.run_bind_error hrun)]
    have hcaught := repr_caught rt (SlotThrown.of_begun hs what) placeholderError
    rw [hs.1] at hcaught
    exact hcaught

variable (rt) in
lemma richcompare_caught {exn : CxxExn} {s : Interp × Trace} (h : SlotThrown exn s) :
    Outcome (Done (rt.errorType.isNone && exn.isForeign || exn.isCast && s.1.pending.isSome) false)
      (fun _ _ => False)
      ((do
        noteCaught exn
        match exn with
        | .castError _ => pure .notImplemented
        | exn => do
          bridge rt.errorType exn
          pure .null : Entry (Answer H)) s) := by
  have hbridged : exn.isCast = false → Outcome (Done (rt.errorType.isNone && exn.isForeign ||
      exn.isCast && s.1.pending.isSome) false) (fun _ _ => False)
        ((.ok .null, ({ s.1 with pending := bridgedError rt.errorType exn s.1.pending },
          { s.2 with caught := some exn, bridged := true })) : Except CallStop (Answer H) × (Interp × Trace)) := by
    intro hcast
    have hdone := h.bridged (.null : Answer H) rfl rt.errorType
    rw [hcast, Bool.or_false] at hdone
    rw [hcast, Bool.false_and, Bool.or_false]
    exact hdone
  cases exn with
  | castError what =>
    rw [show CxxExn.isForeign (.castError what) = false from rfl, Bool.and_false, Bool.false_or]
    refine done_of_nothing_raised (Iff.rfl) ?_
    change s.2.raised = []
    rw [h.trace]
    rfl
  | errorAlreadySet => exact hbridged rfl
  | badAlloc => exact hbridged rfl
  | stdException what => exact hbridged rfl
  | other => exact hbridged rfl

lemma notImplemented_done {muted : Bool} (hmuted : muted = false) {s : Interp × Trace} (hs : Begun s) :
    Done muted false (.notImplemented : Answer H) s :=
  done_of_nothing_raised (iff_of_true (by rw [hs.1]; rfl) hmuted) (by rw [hs.2]; rfl)

lemma classRichcompare_done (cls : C) (equal : H → H → Behaviour Bool notNull) (self other : PyValue)
    (op : CompareOp) :
    Triple Begun (rt.classRichcompare cls equal self other op)
      (Done (EntryCall.richcompare cls equal self other op : EntryCall rt).muted false) (fun _ _ => False) := by
  intro s hs
  unfold Runtime.classRichcompare
  rw [EntryCall.muted, EntryCall.foreign, EntryCall.answersPending]
  by_cases hop : op ≠ .eq ∧ op ≠ .ne
  · rw [if_pos hop]
    exact notImplemented_done (by simp [hop.1, hop.2]) hs
  · have hops : (op = .eq || op = .ne) = true := by
      simpa [← imp_iff_not_or, or_iff_not_imp_left] using hop
    rw [if_neg hop, hops, Bool.true_and, Bool.true_and]
    by_cases hother : (rt.wrappedType cls).created = false ∨ ((rt.view other).held cls).isNone
    · have hnone : rt.unwrapped cls other = none := by
        unfold Runtime.unwrapped
        rcases hother with hcreated | hheld
        · simp [hcreated]
        · simp [Option.isNone_iff_eq_none.mp hheld]
      rw [if_pos hother, hnone]
      exact notImplemented_done (by cases rt.unwrapped cls self <;> simp) hs
    · rw [if_neg hother]
      rcases unwrap_run rt cls self s with ⟨left, hleft, hrunl⟩ | ⟨hnone, what, hrunl⟩
      · rcases unwrap_run rt cls other s with ⟨right, hright, hrunr⟩ | ⟨hnone, what, hrunr⟩
        · rw [hleft, hright, Option.any_some, Option.any_some, Option.any_some, Option.any_some]
          rcases behave_slot (equal left right) hs with ⟨value, pending, hpending, hforeign, -, hcasts, hbehave⟩ |
            ⟨exn, s', hbehave, hthrown, hforeign, -, hcasts⟩
          · rw [Prog.run_attempt_ok ((Prog.run_bind_ok hrunl).trans ((Prog.run_bind_ok hrunr).trans
              (Prog.run_bind_ok hbehave))), hforeign, hcasts, Bool.and_false, Bool.false_or]
            exact done_of_nothing_raised (iff_of_true hpending rfl) (by rw [hs.2]; rfl)
          · rw [Prog.run_attempt_error ((Prog.run_bind_ok hrunl).trans ((Prog.run_bind_ok hrunr).trans
              (Prog.run_bind_error hbehave))), hforeign, hcasts]
            exact richcompare_caught rt hthrown
        · rw [hleft, hnone, Prog.run_attempt_error ((Prog.run_bind_ok hrunl).trans (Prog.run_bind_error hrunr))]
          have hcaught := richcompare_caught rt (SlotThrown.of_begun hs what)
          rw [hs.1] at hcaught
          exact hcaught
      · rw [hnone, Prog.run_attempt_error (Prog.run_bind_error hrunl)]
        have hcaught := richcompare_caught rt (SlotThrown.of_begun hs what)
        rw [hs.1] at hcaught
        exact hcaught

lemma hash_caught {exn : CxxExn} {s : Interp × Trace} (h : SlotThrown exn s) :
    Outcome (fun answer s => Done (rt.errorType.isNone && (exn.isForeign || exn.isCast)) false answer s ∧
        (CastsTranslated s ↔ exn.isCast = false)) (fun _ _ => False)
      ((do
        noteCaught exn
        bridge rt.errorType exn
        pure (.hash (-1)) : Entry (Answer H)) s) := by
  refine ⟨h.bridged _ rfl rt.errorType, ?_⟩
  cases exn with
  | castError what =>
    refine iff_of_false (fun htranslated => ?_) Bool.true_eq_false.mp
    exact absurd (htranslated what rfl).2 (by simp)
  | errorAlreadySet => exact iff_of_true (fun _ h => by cases h) rfl
  | badAlloc => exact iff_of_true (fun _ h => by cases h) rfl
  | stdException what => exact iff_of_true (fun _ h => by cases h) rfl
  | other => exact iff_of_true (fun _ h => by cases h) rfl

lemma hashCasts_unwrapped {cls : C} {value : H → Behaviour (BitVec 64) notNull} {self : PyValue} {held : H}
    (hheld : rt.unwrapped cls self = some held) : rt.hashCasts cls value self = (value held).casts := by
  have hunwraps : rt.unwraps cls self = true := by
    rw [unwraps_eq, hheld]
    rfl
  have hfound : (rt.view self).held cls = some (some held) := by
    unfold Runtime.unwrapped at hheld
    split at hheld
    · exact Option.join_eq_some_iff.mp hheld
    · cases hheld
  rw [Runtime.hashCasts, if_pos hunwraps, hfound]

lemma classHash_done (cls : C) (value : H → Behaviour (BitVec 64) notNull) (self : PyValue) :
    Triple Begun (rt.classHash cls value self)
      (fun answer s => Done (EntryCall.hash cls value self : EntryCall rt).muted false answer s ∧
        (CastsTranslated s ↔ rt.hashCasts cls value self = false)) (fun _ _ => False) := by
  intro s hs
  have hmuted : (EntryCall.hash cls value self : EntryCall rt).muted = (rt.errorType.isNone &&
      ((rt.unwrapped cls self).any (fun held => (value held).foreign notNull) || rt.hashCasts cls value self)) :=
    Bool.or_false _
  unfold Runtime.classHash
  rw [hmuted]
  rcases unwrap_run rt cls self s with ⟨held, hheld, hrun⟩ | ⟨hnone, what, hrun⟩
  · rw [hashCasts_unwrapped hheld, hheld, Option.any_some]
    rcases behave_slot (value held) hs with ⟨hash, pending, hpending, hforeign, hcasts, -, hbehave⟩ |
      ⟨exn, s', hbehave, hthrown, hforeign, hcasts, -⟩
    · rw [Prog.run_attempt_ok ((Prog.run_bind_ok hrun).trans (Prog.run_bind_ok hbehave)), hforeign, hcasts,
        Bool.or_false, Bool.and_false]
      refine ⟨done_of_nothing_raised (iff_of_true ?_ rfl) (by rw [hs.2]; rfl), iff_of_true (fun _ h => ?_) rfl⟩
      · change pending.isSome = decide ((if hash.toInt = -1 then -2 else hash.toInt) = -1)
        rw [hpending]
        split <;> simp_all [notNull]
      · rw [hs.2] at h
        cases h
    · rw [Prog.run_attempt_error ((Prog.run_bind_ok hrun).trans (Prog.run_bind_error hbehave)), hforeign, hcasts]
      exact hash_caught hthrown
  · have hcasts : rt.hashCasts cls value self = true := by
      rw [Runtime.hashCasts, unwraps_eq, hnone]
      rfl
    rw [Prog.run_attempt_error (Prog.run_bind_error hrun), hnone, hcasts]
    exact hash_caught (SlotThrown.of_begun hs what)

/-! ### Every entry point -/

/-- A `cast_error` reaches the only clause of a `class_hash`. -/
def EntryCall.hashCasts : EntryCall rt → Bool
  | .hash cls value self => rt.hashCasts cls value self
  | _ => false

/-- `repr`, `==` and `!=` answer a `cast_error` with a placeholder and `NotImplemented`. -/
def EntryCall.answersCasts : EntryCall rt → Bool
  | .repr .. | .richcompare .. => true
  | _ => false

/-- What a call ends with: never an exception, the sentinel exactly with an error unless it is muted, and each
failure translated unless a `double` hides what Python raised or `class_hash` catches a `cast_error`. -/
lemma EntryCall.run_done (call : EntryCall rt) :
    Triple Begun call.run
      (fun answer s => Done call.muted (clearsRaised rt call.conversions) answer s ∧
        (call.answersCasts = false → (CastsTranslated s ↔ call.hashCasts = false)))
      (fun _ _ => False) := by
  have hsettled : ∀ {entry : Entry (Answer H)} {clears foreign : Bool} {c : Prop}, Settled rt clears foreign entry →
      Triple Begun entry (fun answer s => Done (rt.errorType.isNone && foreign || false) clears answer s ∧
        (c → (CastsTranslated s ↔ false = false))) (fun _ _ => False) := by
    intro entry clears foreign c h
    rw [Bool.or_false]
    exact h.weakenReturn (fun _ _ h => ⟨h.1, fun _ => iff_of_true h.2 rfl⟩)
  cases call with
  | wrapper sig func args => exact hsettled (callWrapper_settled sig func args)
  | wrapperKw sig func spec fits args kwargs => exact hsettled (callWrapperKw_settled sig func fits args kwargs)
  | method cls sig func self args => exact hsettled (callMethod_settled cls sig func self args)
  | getter cls get self => exact hsettled (propertyGetter_settled cls get self)
  | repr cls text textError placeholderError self =>
    exact (classRepr_done cls text textError placeholderError self).weakenReturn
      (fun _ _ h => ⟨h, fun h => by cases h⟩)
  | richcompare cls equal self other op =>
    exact (classRichcompare_done cls equal self other op).weakenReturn (fun _ _ h => ⟨h, fun h => by cases h⟩)
  | hash cls value self => exact (classHash_done cls value self).weakenReturn (fun _ _ h => ⟨h.1, fun _ => h.2⟩)
  | init name sig factory store spec fits held args kwargs =>
    exact hsettled (classInit_settled name sig factory store fits held args kwargs)

lemma EntryCall.result_done (call : EntryCall rt) : ∃ answer s, call.result = (.ok answer, s) ∧
    Done call.muted (clearsRaised rt call.conversions) answer s ∧
    (call.answersCasts = false → (CastsTranslated s ↔ call.hashCasts = false)) := by
  obtain ⟨answer, hrun, hdone⟩ := Triple.returns call.run_done (s := (.start none, .start)) ⟨rfl, rfl⟩
  exact ⟨answer, call.result.2, Prod.ext hrun rfl, hdone⟩

/-- No exception leaves the call, and its answer is the sentinel exactly when a Python error is pending. -/
def EntryCall.Agrees (call : EntryCall rt) : Prop :=
  ∃ answer s, call.result = (.ok answer, s) ∧ (answer.isSentinel = true ↔ s.1.pending.isSome = true)

/-- A call agrees with the error it leaves exactly when no exception that needs the module's error type reaches
`set_cpp_error` while there is no such type, and no `cast_error` is answered with a value while an error is pending. -/
theorem sentinel_iff_error (call : EntryCall rt) :
    call.Agrees ↔ (rt.errorType = none → call.foreign = false) ∧ call.answersPending = false := by
  obtain ⟨answer, s, hrun, hdone, -⟩ := call.result_done
  have hagrees : call.Agrees ↔ s.1.pending.isSome = answer.isSentinel := by
    constructor
    · rintro ⟨answer', s', hrun', hiff⟩
      obtain ⟨hanswer, rfl⟩ := Prod.mk.inj (hrun.symm.trans hrun')
      rw [Except.ok.inj hanswer]
      exact (Bool.eq_iff_iff.mpr hiff).symm
    · intro h
      exact ⟨answer, s, hrun, by rw [h]⟩
  rw [hagrees, hdone.sentinel, EntryCall.muted, Bool.or_eq_false_iff]
  refine and_congr_left (fun _ => ?_)
  cases rt.errorType <;> simp

/-- The call translates its failures: a `cast_error` as a `TypeError`, without `set_cpp_error`, and what Python code
raised in an argument conversion as itself. -/
def EntryCall.Translates (call : EntryCall rt) : Prop :=
  ∀ answer s, call.result = (.ok answer, s) → (call.answersCasts = false → CastsTranslated s) ∧
    ∀ e ∈ s.2.raised, s.1.pending = some (.raised e)

/-- A call translates its failures exactly when the first conversion that throws, if one does, is not one of a
`double` in which Python code raised, and no `cast_error` reaches `class_hash`. -/
theorem translates_iff (call : EntryCall rt) :
    call.Translates ↔ clearsRaised rt call.conversions = false ∧ call.hashCasts = false := by
  obtain ⟨answer, s, hrun, hdone, hcasts⟩ := call.result_done
  have hresult : call.Translates ↔ (call.answersCasts = false → CastsTranslated s) ∧
      ∀ e ∈ s.2.raised, s.1.pending = some (.raised e) := by
    constructor
    · intro h
      exact h answer s hrun
    · rintro h answer' s' hrun'
      obtain ⟨-, rfl⟩ := Prod.mk.inj (hrun.symm.trans hrun')
      exact h
  rw [hresult, hdone.raised, and_comm]
  refine and_congr_right (fun _ => ?_)
  cases hanswers : call.answersCasts with
  | false =>
    rw [← hcasts hanswers]
    exact ⟨fun h => h rfl, fun h _ => h⟩
  | true =>
    have hnone : call.hashCasts = false := by
      cases call <;> first | rfl | cases hanswers
    exact iff_of_true (fun h => (nomatch h)) hnone

/-! ### Calls that fail -/

/-- An object that is no number, and one of type `Widget` before `__init__`; its `__float__` raises. -/
def oddObject : PyObj Unit Unit where
  isNone := false
  typeName := .ok "Widget"
  truth := .ok true
  long := none
  overflow := 0
  float := .raises 7
  utf8 := none
  bytes := none
  held := fun _ => some none

def oddRuntime : Runtime Unit Unit where
  view := fun _ => oddObject
  wrappedType := fun _ => ⟨true, "demo.Widget"⟩
  parse := fun _ _ _ _ => .error (.typeError "")
  errorType := some 1

lemma halve_order : List.Perm [0] (List.range [(.double : ParamType Unit)].length) := List.Perm.refl _

/-- A function of a `double`. -/
def halveCall : EntryCall oddRuntime :=
  .wrapper ⟨[.double], [0], halve_order⟩ (fun _ => .throws .badAlloc none (fun h => by cases h)) [.object 0]

def hashCall : EntryCall oddRuntime := .hash () (fun _ => .returns 0 none rfl) (.object 0)

/-- The exception raised by `__float__` is replaced by a `TypeError`; the hash of an uninitialised instance goes
through `set_cpp_error`. -/
theorem failures_replaced : ¬halveCall.Translates ∧ ¬hashCall.Translates := by
  constructor
  · intro h
    exact absurd ((h _ _ rfl).2 7 (by decide)) (by decide)
  · intro h
    exact absurd ((h _ _ rfl).1 rfl _ rfl).2 (by decide)

/-- After an import that could not register the error type. -/
def untypedRuntime : Runtime Unit Unit := { oddRuntime with errorType := none }

def untypedHash : EntryCall untypedRuntime := .hash () (fun _ => .returns 0 none rfl) (.object 0)

/-- Every object is an initialised instance. -/
def widgetRuntime : Runtime Unit Unit :=
  { oddRuntime with view := fun _ => { oddObject with held := fun _ => some (some ()) } }

/-- The `repr` of a widget whose function converts an object to an integer: the name of its type cannot be had. -/
def namelessRepr : EntryCall widgetRuntime :=
  .repr () (fun _ => .throws (.castError "expected int, got ?") (some (.raised 9)) (fun h => by cases h))
    (fun _ => none) none (.object 0)

/-- -1 without an error, and a `str` with one. -/
theorem errors_muted : ¬untypedHash.Agrees ∧ ¬namelessRepr.Agrees := by
  constructor
  · rintro ⟨answer, s, hrun, hiff⟩
    cases hrun
    exact absurd (hiff.mp rfl) (by decide)
  · rintro ⟨answer, s, hrun, hiff⟩
    cases hrun
    exact absurd (hiff.mpr rfl) (by decide)

end SciForge.Binding
