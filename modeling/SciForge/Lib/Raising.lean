import Mathlib.Data.List.Forall2

/-!
# Computations that may raise

Rules for `Except`: when a sequence of steps, or a loop over a list, ends without raising.
-/

namespace SciForge

variable {ε α β : Type}

/-- The computation ends without raising. -/
def Returns (x : Except ε α) : Prop := ∃ a, x = .ok a

lemma returns_ok (a : α) : Returns (.ok a : Except ε α) := ⟨a, rfl⟩

lemma not_returns_error (e : ε) : ¬Returns (.error e : Except ε α) := by
  rintro ⟨a, h⟩
  cases h

lemma ok_bind (a : α) (f : α → Except ε β) : (Except.ok a >>= f) = f a := rfl

lemma bind_eq_ok {x : Except ε α} {f : α → Except ε β} {b : β} :
    x >>= f = .ok b ↔ ∃ a, x = .ok a ∧ f a = .ok b := by
  cases x with
  | error e => simp [Bind.bind, Except.bind]
  | ok a => simp [Bind.bind, Except.bind]

lemma returns_bind {x : Except ε α} {f : α → Except ε β} :
    Returns (x >>= f) ↔ ∃ a, x = .ok a ∧ Returns (f a) := by
  constructor
  · rintro ⟨b, h⟩
    obtain ⟨a, ha, hb⟩ := bind_eq_ok.mp h
    exact ⟨a, ha, b, hb⟩
  · rintro ⟨a, ha, b, hb⟩
    exact ⟨b, bind_eq_ok.mpr ⟨a, ha, hb⟩⟩

lemma map_eq_ok {x : Except ε α} {f : α → β} {b : β} : x.map f = .ok b ↔ ∃ a, x = .ok a ∧ f a = b := by
  cases x with
  | error e => simp [Except.map]
  | ok a => simp [Except.map]

lemma returns_map {x : Except ε α} {f : α → β} : Returns (x.map f) ↔ Returns x := by
  cases x with
  | error e => exact iff_of_false (not_returns_error e) (not_returns_error e)
  | ok a => exact iff_of_true (returns_ok (f a)) (returns_ok a)

lemma forall₂_mem_right {R : α → β → Prop} {xs : List α} {ys : List β} (h : List.Forall₂ R xs ys)
    {y : β} (hy : y ∈ ys) : ∃ x ∈ xs, R x y := by
  induction h with
  | nil => cases hy
  | cons hr _ ih =>
    rcases List.mem_cons.mp hy with rfl | hy
    · exact ⟨_, List.mem_cons_self, hr⟩
    · obtain ⟨x, hx, hr⟩ := ih hy
      exact ⟨x, List.mem_cons_of_mem _ hx, hr⟩

lemma forall₂_mem_left {R : α → β → Prop} {xs : List α} {ys : List β} (h : List.Forall₂ R xs ys)
    {x : α} (hx : x ∈ xs) : ∃ y ∈ ys, R x y :=
  forall₂_mem_right (List.Forall₂.flip h) hx

lemma exists_forall₂ {R : α → β → Prop} {xs : List α} : (∃ ys, List.Forall₂ R xs ys) ↔ ∀ x ∈ xs, ∃ y, R x y := by
  constructor
  · rintro ⟨ys, h⟩ x hx
    obtain ⟨y, -, hy⟩ := forall₂_mem_left h hx
    exact ⟨y, hy⟩
  · intro h
    induction xs with
    | nil => exact ⟨[], .nil⟩
    | cons x xs ih =>
      obtain ⟨⟨y, hy⟩, hrest⟩ := List.forall_mem_cons.mp h
      obtain ⟨ys, hys⟩ := ih hrest
      exact ⟨y :: ys, .cons hy hys⟩

lemma forall₂_and {R S : α → β → Prop} {xs : List α} {ys : List β} :
    List.Forall₂ (fun x y => R x y ∧ S x y) xs ys ↔ List.Forall₂ R xs ys ∧ List.Forall₂ S xs ys := by
  constructor
  · exact fun h => ⟨h.imp (fun _ _ hxy => hxy.1), h.imp (fun _ _ hxy => hxy.2)⟩
  · rintro ⟨hR, hS⟩
    induction hR with
    | nil => exact .nil
    | cons hxy _ ih =>
      cases hS with
      | cons hxy' hS => exact .cons ⟨hxy, hxy'⟩ (ih hS)

lemma mapM_eq_ok {f : α → Except ε β} {xs : List α} {ys : List β} :
    xs.mapM f = .ok ys ↔ List.Forall₂ (fun x y => f x = .ok y) xs ys := by
  induction xs generalizing ys with
  | nil =>
    rw [List.mapM_nil, List.forall₂_nil_left_iff]
    change Except.ok [] = Except.ok ys ↔ _
    rw [Except.ok.injEq, eq_comm]
  | cons x xs ih =>
    rw [List.mapM_cons, bind_eq_ok]
    constructor
    · rintro ⟨y, hy, h⟩
      obtain ⟨ys', hys, h⟩ := bind_eq_ok.mp h
      cases h
      exact .cons hy (ih.mp hys)
    · intro h
      cases h with
      | cons hy hys => exact ⟨_, hy, bind_eq_ok.mpr ⟨_, ih.mpr hys, rfl⟩⟩

lemma returns_mapM {f : α → Except ε β} {xs : List α} :
    Returns (xs.mapM f) ↔ ∀ x ∈ xs, Returns (f x) := by
  simp only [Returns, mapM_eq_ok]
  exact exists_forall₂

lemma mapM_of_forall {f : α → Except ε β} {P : β → Prop} {xs : List α} (h : ∀ x ∈ xs, ∃ y, f x = .ok y ∧ P y) :
    ∃ ys, xs.mapM f = .ok ys ∧ ys.length = xs.length ∧ ∀ y ∈ ys, P y := by
  obtain ⟨ys, hys⟩ := exists_forall₂.mpr h
  obtain ⟨hok, hP⟩ := forall₂_and.mp hys
  refine ⟨ys, mapM_eq_ok.mpr hok, hys.length_eq.symm, fun y hy => ?_⟩
  obtain ⟨x, -, hPy⟩ := forall₂_mem_right hP hy
  exact hPy

lemma mapM_eq_some {f : α → Option β} {xs : List α} {ys : List β} :
    xs.mapM f = some ys ↔ List.Forall₂ (fun x y => f x = some y) xs ys := by
  induction xs generalizing ys with
  | nil =>
    rw [List.mapM_nil, List.forall₂_nil_left_iff]
    change some [] = some ys ↔ _
    rw [Option.some.injEq, eq_comm]
  | cons x xs ih =>
    rw [List.mapM_cons, Option.bind_eq_bind, Option.bind_eq_some_iff]
    constructor
    · rintro ⟨y, hy, h⟩
      obtain ⟨ys', hys, h⟩ := Option.bind_eq_some_iff.mp h
      cases h
      exact .cons hy (ih.mp hys)
    · intro h
      cases h with
      | cons hy hys => exact ⟨_, hy, Option.bind_eq_some_iff.mpr ⟨_, ih.mpr hys, rfl⟩⟩

lemma mapM_zipWith {γ : Type} {R : α → β → Prop} {f : α → Option γ} {g : α → β → γ}
    (h : ∀ x y, R x y → f x = some (g x y)) {xs : List α} {ys : List β} (hxs : List.Forall₂ R xs ys) :
    xs.mapM f = some (List.zipWith g xs ys) := by
  rw [mapM_eq_some]
  induction hxs with
  | nil => exact .nil
  | cons hxy _ ih => exact .cons (h _ _ hxy) ih

lemma isSome_mapM {f : α → Option β} {xs : List α} : (xs.mapM f).isSome ↔ ∀ x ∈ xs, (f x).isSome := by
  induction xs with
  | nil => simp
  | cons x xs ih =>
    rw [List.forall_mem_cons, ← ih, List.mapM_cons]
    cases f x with
    | none => simp
    | some y => cases xs.mapM f <;> simp

/-- A loop over translated items, whose body gives the translated values. -/
lemma mapM_translated {γ δ : Type} {f : α → Except ε β} {f' : γ → Except ε δ} {t : α → γ} {u : β → δ}
    {xs : List α} (h : ∀ x ∈ xs, f' (t x) = (f x).map u) :
    (xs.map t).mapM f' = (xs.mapM f).map (List.map u) := by
  induction xs with
  | nil => rfl
  | cons x xs ih =>
    rw [List.map_cons, List.mapM_cons, List.mapM_cons, h x List.mem_cons_self,
      ih (fun x hx => h x (List.mem_cons_of_mem _ hx))]
    cases f x with
    | error e => rfl
    | ok y =>
      cases xs.mapM f with
      | error e => rfl
      | ok ys => rfl

end SciForge
