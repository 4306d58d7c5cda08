import Mathlib.Logic.Basic

/-!
# Runs of a state machine

A machine is a partial step function on states and events. An invariant of its steps, under a condition on the
state and the event before each of them, is an invariant of its runs.
-/

namespace SciForge.Machine

variable {σ ε : Type} (step : σ → ε → Option σ)

/-- The state after the events, `none` when one cannot take place. -/
def run (s : σ) : List ε → Option σ
  | [] => some s
  | e :: rest => (step s e).bind (fun s' => run s' rest)

/-- Every step of the run is taken from a state in which it meets `C`. -/
def Meets (C : σ → ε → Prop) (s : σ) : List ε → Prop
  | [] => True
  | e :: rest => C s e ∧ ∀ s', step s e = some s' → Meets C s' rest

variable {step}

lemma run_cons {s s' : σ} {e : ε} (h : step s e = some s') (rest : List ε) :
    run step s (e :: rest) = run step s' rest := by
  rw [run, h]
  rfl

lemma meets_cons {C : σ → ε → Prop} {s s' : σ} {e : ε} {rest : List ε} (h : step s e = some s') (hC : C s e)
    (hrest : Meets step C s' rest) : Meets step C s (e :: rest) := by
  refine ⟨hC, fun s'' h' => ?_⟩
  obtain rfl := Option.some.inj (h.symm.trans h')
  exact hrest

lemma meets_of_mem {C : σ → ε → Prop} {events : List ε} (h : ∀ e ∈ events, ∀ s, C s e) (s : σ) :
    Meets step C s events := by
  induction events generalizing s with
  | nil => trivial
  | cons e rest ih =>
    exact ⟨h e List.mem_cons_self s, fun s' _ => ih (fun e' he' => h e' (List.mem_cons_of_mem e he')) s'⟩

lemma meets_of_forall {C : σ → ε → Prop} (h : ∀ s e, C s e) (events : List ε) (s : σ) : Meets step C s events :=
  meets_of_mem (fun e _ s => h s e) s

/-- What every step that meets `C` keeps, every run whose steps meet `C` keeps. -/
lemma run_invariant {C : σ → ε → Prop} {I : σ → Prop}
    (hstep : ∀ s e s', I s → C s e → step s e = some s' → I s') {s s' : σ} {events : List ε} (hs : I s)
    (hmeets : Meets step C s events) (hrun : run step s events = some s') : I s' := by
  induction events generalizing s with
  | nil =>
    obtain rfl := Option.some.inj hrun
    exact hs
  | cons e rest ih =>
    obtain ⟨s₁, he, hrest⟩ := Option.bind_eq_some_iff.mp hrun
    exact ih (hstep s e s₁ hs hmeets.1 he) (hmeets.2 s₁ he) hrest

/-- With an invariant of the steps that meet `C`, a condition that follows from both is met as well. -/
lemma meets_of_invariant {C D : σ → ε → Prop} {I : σ → Prop}
    (hstep : ∀ s e s', I s → C s e → step s e = some s' → I s') (hCD : ∀ s e, I s → C s e → D s e) {s : σ}
    {events : List ε} (hs : I s) (hmeets : Meets step C s events) : Meets step D s events := by
  induction events generalizing s with
  | nil => trivial
  | cons e rest ih => exact ⟨hCD s e hs hmeets.1, fun s' he => ih (hstep s e s' hs hmeets.1 he) (hmeets.2 s' he)⟩

/-- A run that does not meet `C` has a first step that does not. -/
lemma exists_of_not_meets {C : σ → ε → Prop} {s s' : σ} {events : List ε} (h : ¬Meets step C s events)
    (hrun : run step s events = some s') : ∃ done s₁ e s₂ rest, Meets step C s done ∧ run step s done = some s₁ ∧
      ¬C s₁ e ∧ step s₁ e = some s₂ ∧ run step s₂ rest = some s' := by
  induction events generalizing s with
  | nil => exact absurd trivial h
  | cons e rest ih =>
    obtain ⟨s₁, he, hrest⟩ := Option.bind_eq_some_iff.mp hrun
    by_cases hC : C s e
    · have hlater : ¬Meets step C s₁ rest := by
        intro hmeets
        refine h ⟨hC, fun s₂ he₂ => ?_⟩
        obtain rfl := Option.some.inj (he.symm.trans he₂)
        exact hmeets
      obtain ⟨done, s₂, e₂, s₃, rest₂, hdone, hreach, hlast⟩ := ih hlater hrest
      exact ⟨e :: done, s₂, e₂, s₃, rest₂, meets_cons he hC hdone, (run_cons he done).trans hreach, hlast⟩
    · exact ⟨[], s, e, s₁, rest, trivial, rfl, hC, he, hrest⟩

lemma run_append {s : σ} (events rest : List ε) :
    run step s (events ++ rest) = (run step s events).bind (fun s' => run step s' rest) := by
  induction events generalizing s with
  | nil => rfl
  | cons e events ih =>
    rw [List.cons_append, run, run, Option.bind_assoc]
    exact congrArg (Option.bind (step s e)) (funext (fun s' => ih))

lemma meets_append {C : σ → ε → Prop} {s : σ} {events rest : List ε} (h : Meets step C s events)
    (hrest : ∀ s', run step s events = some s' → Meets step C s' rest) : Meets step C s (events ++ rest) := by
  induction events generalizing s with
  | nil => exact hrest s rfl
  | cons e events ih =>
    refine ⟨h.1, fun s' he => ih (h.2 s' he) (fun s'' hrun => hrest s'' ?_)⟩
    rw [run_cons he]
    exact hrun

/-- The same for an invariant of the events so far and the state. -/
lemma run_history {C : σ → ε → Prop} {I : List ε → σ → Prop} {s : σ}
    (hstep : ∀ done s₁ e s₂, run step s done = some s₁ → I done s₁ → C s₁ e → step s₁ e = some s₂ → I (done ++ [e]) s₂)
    (hs : I [] s) {events : List ε} (hmeets : Meets step C s events) {s' : σ} (hrun : run step s events = some s') :
    I events s' := by
  have hrest : ∀ (rest done : List ε) (s₁ : σ), run step s done = some s₁ → I done s₁ → Meets step C s₁ rest →
      run step s₁ rest = some s' → I (done ++ rest) s' := by
    intro rest
    induction rest with
    | nil =>
      intro done s₁ _ hI _ hlast
      obtain rfl := Option.some.inj hlast
      rwa [List.append_nil]
    | cons e rest ih =>
      intro done s₁ hdone hI hmeets' hlast
      obtain ⟨s₂, he, hafter⟩ := Option.bind_eq_some_iff.mp hlast
      have hdone' : run step s (done ++ [e]) = some s₂ := by
        rw [run_append, hdone, Option.bind_some, run_cons he]
        rfl
      have hlater := ih (done ++ [e]) s₂ hdone' (hstep done s₁ e s₂ hdone hI hmeets'.1 he) (hmeets'.2 s₂ he) hafter
      rwa [List.append_assoc] at hlater
  exact hrest events [] s rfl hs hmeets hrun

end SciForge.Machine
