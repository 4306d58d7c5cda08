import Mathlib.Logic.Basic

/-!
# Programs with state and exceptions

A program runs on a state and returns or throws; the state it leaves is kept in both cases. Triples
`{P} p {Q | R}` say what holds after it returns, and what holds after it throws.
-/

namespace SciForge

/-- The result of a program, and the state it leaves. -/
def Prog (σ ε α : Type) := σ → Except ε α × σ

namespace Prog

variable {σ τ ε ε' α β : Type}

instance : Monad (Prog σ ε) where
  pure a := fun s => (.ok a, s)
  bind p f := fun s =>
    match p s with
    | (.ok a, s') => f a s'
    | (.error e, s') => (.error e, s')

def raise (e : ε) : Prog σ ε α := fun s => (.error e, s)

def get : Prog σ ε σ := fun s => (.ok s, s)

def modify (f : σ → σ) : Prog σ ε Unit := fun s => (.ok (), f s)

/-- `try p catch e => handler e`. -/
def attempt (p : Prog σ ε α) (handler : ε → Prog σ ε' α) : Prog σ ε' α := fun s =>
  match p s with
  | (.ok a, s') => (.ok a, s')
  | (.error e, s') => handler e s'

/-- `p`, then a step that cannot throw, also when `p` threw: a destructor at the end of a scope. -/
def cleanup (p : Prog σ ε α) (last : σ → σ) : Prog σ ε α := fun s => ((p s).1, last (p s).2)

/-- `p` in a scope with local state `t`, which is gone after it. -/
def within (t : τ) (p : Prog (σ × τ) ε α) : Prog σ ε α := fun s => ((p (s, t)).1, (p (s, t)).2.1)

/-- `p` inside a scope that has local state. -/
def lift (p : Prog σ ε α) : Prog (σ × τ) ε α := fun s => ((p s.1).1, ((p s.1).2, s.2))

/-! ### Runs -/

variable {p : Prog σ ε α} {s s' : σ} {a : α} {e : ε}

lemma run_bind_ok {q : α → Prog σ ε β} (h : p s = (.ok a, s')) : (p >>= q) s = q a s' := by
  change (match p s with
    | (.ok a, s') => q a s'
    | (.error e, s') => (.error e, s')) = _
  rw [h]

lemma run_bind_error {q : α → Prog σ ε β} (h : p s = (.error e, s')) : (p >>= q) s = (.error e, s') := by
  change (match p s with
    | (.ok a, s') => q a s'
    | (.error e, s') => (.error e, s')) = _
  rw [h]

lemma run_bind_congr {p' : Prog σ ε α} {q : α → Prog σ ε β} (h : p s = p' s) : (p >>= q) s = (p' >>= q) s := by
  change (match p s with
    | (.ok a, s') => q a s'
    | (.error e, s') => (.error e, s')) = _
  rw [h]
  rfl

lemma run_pure_bind {q : α → Prog σ ε β} : ((pure a : Prog σ ε α) >>= q) s = q a s := rfl

lemma fst_bind (p : Prog σ ε α) (q : α → Prog σ ε β) (s : σ) :
    ((p >>= q) s).1 = (p s).1 >>= fun a => (q a (p s).2).1 := by
  change (match p s with
    | (.ok a, s') => q a s'
    | (.error e, s') => (.error e, s')).1 = _
  rcases p s with ⟨_ | _, _⟩ <;> rfl

lemma run_modify_bind {f : σ → σ} {q : Unit → Prog σ ε β} : (modify f >>= q) s = q () (f s) := rfl

lemma run_get_bind {q : σ → Prog σ ε β} : (get >>= q) s = q s s := rfl

lemma run_attempt_ok {handler : ε → Prog σ ε' α} (h : p s = (.ok a, s')) :
    attempt p handler s = (.ok a, s') := by
  unfold attempt
  rw [h]

lemma run_attempt_error {handler : ε → Prog σ ε' α} (h : p s = (.error e, s')) :
    attempt p handler s = handler e s' := by
  unfold attempt
  rw [h]

end Prog

open Prog

variable {σ τ ε ε' α β : Type}

/-- What a result and a state satisfy. -/
def Outcome (Q : α → σ → Prop) (R : ε → σ → Prop) : Except ε α × σ → Prop
  | (.ok a, s) => Q a s
  | (.error e, s) => R e s

/-- From a state with `P`, `p` returns into `Q` or throws into `R`. -/
def Triple (P : σ → Prop) (p : Prog σ ε α) (Q : α → σ → Prop) (R : ε → σ → Prop) : Prop :=
  ∀ s, P s → Outcome Q R (p s)

lemma outcome_same {I : σ → Prop} {r : Except ε α × σ} : Outcome (fun _ => I) (fun _ => I) r ↔ I r.2 := by
  rcases r with ⟨e | a, s⟩
  · exact Iff.rfl
  · exact Iff.rfl

/-- `p` keeps `I` whether it returns or throws. -/
def Keeps (I : σ → Prop) (p : Prog σ ε α) : Prop := Triple I p (fun _ => I) (fun _ => I)

namespace Triple

variable {P P' : σ → Prop} {Q Q' : α → σ → Prop} {R R' : ε → σ → Prop} {p : Prog σ ε α}

lemma weaken (h : Triple P' p Q' R') (hP : ∀ s, P s → P' s) (hQ : ∀ a s, Q' a s → Q a s)
    (hR : ∀ e s, R' e s → R e s) : Triple P p Q R := by
  intro s hs
  have hout := h s (hP s hs)
  generalize p s = r at hout ⊢
  rcases r with ⟨e | a, s'⟩
  · exact hR e s' hout
  · exact hQ a s' hout

lemma strengthen (h : Triple P' p Q R) (hP : ∀ s, P s → P' s) : Triple P p Q R :=
  h.weaken hP (fun _ _ h => h) (fun _ _ h => h)

lemma weakenReturn (h : Triple P p Q' R) (hQ : ∀ a s, Q' a s → Q a s) : Triple P p Q R :=
  h.weaken (fun _ h => h) hQ (fun _ _ h => h)

lemma weakenThrow (h : Triple P p Q R') (hR : ∀ e s, R' e s → R e s) : Triple P p Q R :=
  h.weaken (fun _ h => h) (fun _ _ h => h) hR

lemma returning (h : Triple P p Q R) : Triple P p Q (fun _ _ => True) := h.weakenThrow (fun _ _ _ => trivial)

lemma pure {a : α} (h : ∀ s, P s → Q a s) : Triple P (Pure.pure a : Prog σ ε α) Q R := fun s hs => h s hs

lemma raise {e : ε} (h : ∀ s, P s → R e s) : Triple P (Prog.raise e : Prog σ ε α) Q R := fun s hs => h s hs

lemma bind {q : α → Prog σ ε β} {M : α → σ → Prop} {Q : β → σ → Prop} (hp : Triple P p M R)
    (hq : ∀ a, Triple (M a) (q a) Q R) : Triple P (p >>= q) Q R := by
  intro s hs
  have hout := hp s hs
  change Outcome Q R (match p s with
    | (.ok a, s') => q a s'
    | (.error e, s') => (.error e, s'))
  generalize p s = r at hout ⊢
  rcases r with ⟨e | a, s'⟩
  · exact hout
  · exact hq a s' hout

lemma get {q : σ → Prog σ ε β} {Q : β → σ → Prop} (h : ∀ s₀, Triple (fun s => s = s₀ ∧ P s) (q s₀) Q R) :
    Triple P (Prog.get >>= q) Q R := fun s hs => h s s ⟨rfl, hs⟩

lemma modify {f : σ → σ} {Q : Unit → σ → Prop} (h : ∀ s, P s → Q () (f s)) :
    Triple P (Prog.modify f : Prog σ ε Unit) Q R := fun s hs => h s hs

lemma ite {c : Prop} [Decidable c] {q : Prog σ ε α} (hp : c → Triple P p Q R) (hq : ¬c → Triple P q Q R) :
    Triple P (if c then p else q) Q R := by
  split
  · next h => exact hp h
  · next h => exact hq h

lemma assume {c : Prop} (hc : ∀ s, P s → c) (h : c → Triple P p Q R) : Triple P p Q R :=
  fun s hs => h (hc s hs) s hs

lemma attempt {handler : ε → Prog σ ε' α} {R' : ε' → σ → Prop} (hp : Triple P p Q R)
    (hh : ∀ e, Triple (R e) (handler e) Q R') : Triple P (Prog.attempt p handler) Q R' := by
  intro s hs
  have hout := hp s hs
  unfold Prog.attempt
  generalize p s = r at hout ⊢
  rcases r with ⟨e | a, s'⟩
  · exact hh e s' hout
  · exact hout

lemma cleanup {last : σ → σ} (hp : Triple P p Q R) (hQ : ∀ a s, Q a s → Q' a (last s))
    (hR : ∀ e s, R e s → R' e (last s)) : Triple P (Prog.cleanup p last) Q' R' := by
  intro s hs
  have hout := hp s hs
  unfold Prog.cleanup
  generalize p s = r at hout ⊢
  rcases r with ⟨e | a, s'⟩
  · exact hR e s' hout
  · exact hQ a s' hout

lemma within {t : τ} {p : Prog (σ × τ) ε α}
    (h : Triple (fun s => P s.1 ∧ s.2 = t) p (fun a s => Q a s.1) (fun e s => R e s.1)) :
    Triple P (Prog.within t p) Q R := by
  intro s hs
  have hout := h (s, t) ⟨hs, rfl⟩
  unfold Prog.within
  generalize p (s, t) = r at hout ⊢
  rcases r with ⟨e | a, s'⟩
  · exact hout
  · exact hout

lemma lift {P : σ × τ → Prop} {Q : α → σ × τ → Prop} {R : ε → σ × τ → Prop}
    (h : ∀ t, Triple (fun s => P (s, t)) p (fun a s => Q a (s, t)) (fun e s => R e (s, t))) :
    Triple P (Prog.lift p) Q R := by
  intro s hs
  have hout := h s.2 s.1 hs
  unfold Prog.lift
  generalize p s.1 = r at hout ⊢
  rcases r with ⟨e | a, s'⟩
  · exact hout
  · exact hout

lemma lift_beside (h : Triple P p Q R) (L : τ → Prop) :
    Triple (fun s : σ × τ => P s.1 ∧ L s.2) (Prog.lift p) (fun a s => Q a s.1 ∧ L s.2)
      (fun e s => R e s.1 ∧ L s.2) := by
  intro s hs
  have hout := h s.1 hs.1
  unfold Prog.lift
  generalize p s.1 = r at hout ⊢
  rcases r with ⟨e | a, s'⟩
  · exact ⟨hout, hs.2⟩
  · exact ⟨hout, hs.2⟩

/-- A program that cannot throw returns, into its postcondition. -/
lemma returns (h : Triple P p Q (fun _ _ => False)) {s : σ} (hs : P s) :
    ∃ a, (p s).1 = .ok a ∧ Q a (p s).2 := by
  have hout := h s hs
  generalize p s = r at hout ⊢
  rcases r with ⟨e | a, s'⟩
  · exact absurd hout id
  · exact ⟨a, rfl, hout⟩

lemma both {P₁ P₂ : σ → Prop} {Q₁ Q₂ : α → σ → Prop} {R₁ R₂ : ε → σ → Prop} (h₁ : Triple P₁ p Q₁ R₁)
    (h₂ : Triple P₂ p Q₂ R₂) :
    Triple (fun s => P₁ s ∧ P₂ s) p (fun a s => Q₁ a s ∧ Q₂ a s) (fun e s => R₁ e s ∧ R₂ e s) := by
  intro s hs
  have hout₁ := h₁ s hs.1
  have hout₂ := h₂ s hs.2
  generalize p s = r at hout₁ hout₂ ⊢
  rcases r with ⟨e | a, s'⟩
  · exact ⟨hout₁, hout₂⟩
  · exact ⟨hout₁, hout₂⟩

end Triple

lemma Keeps.lift {I : σ → Prop} {p : Prog σ ε α} (h : Keeps I p) :
    Keeps (fun s : σ × τ => I s.1) (Prog.lift p) := Triple.lift (fun _ => h)

end SciForge
