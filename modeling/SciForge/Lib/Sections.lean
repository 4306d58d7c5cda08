import Mathlib.Data.List.Basic

/-!
# Lists in sections

A list cut at its marked elements: what comes before the first of them, then each of them with the elements up to the
next.
-/

namespace SciForge

variable {α : Type*}

/-- A marked element and unmarked ones after it. -/
structure Section (mark : α → Bool) where
  head : α
  body : List α
  marked : mark head = true
  plain : ∀ x ∈ body, mark x = false

/-- Unmarked elements, then sections. -/
structure Sections (mark : α → Bool) where
  before : List α
  plain : ∀ x ∈ before, mark x = false
  parts : List (Section mark)

lemma append_sep_inj {x : α} {a b r r' : List α} (ha : x ∉ a) (hb : x ∉ b) (h : a ++ x :: r = b ++ x :: r') :
    a = b ∧ r = r' := by
  induction a generalizing b with
  | nil =>
    cases b with
    | nil => exact ⟨rfl, (List.cons.inj h).2⟩
    | cons y b => exact absurd ((List.cons.inj h).1 ▸ List.mem_cons_self) hb
  | cons y a ih =>
    cases b with
    | nil => exact absurd ((List.cons.inj h).1 ▸ List.mem_cons_self) ha
    | cons z b =>
      obtain ⟨rfl, hrest⟩ := List.cons.inj h
      obtain ⟨rfl, hr⟩ := ih (fun hmem => ha (List.mem_cons_of_mem _ hmem))
        (fun hmem => hb (List.mem_cons_of_mem _ hmem)) hrest
      exact ⟨rfl, hr⟩

namespace Sections

variable {mark : α → Bool}

def partLines (parts : List (Section mark)) : List α := parts.flatMap (fun s => s.head :: s.body)

def lines (d : Sections mark) : List α := d.before ++ partLines d.parts

/-- One more element in front. -/
def cons (x : α) (d : Sections mark) : Sections mark :=
  if h : mark x = true then ⟨[], fun _ hy => absurd hy List.not_mem_nil, ⟨x, d.before, h, d.plain⟩ :: d.parts⟩
  else ⟨x :: d.before, fun y hy => by
    rcases List.mem_cons.mp hy with rfl | hy
    · exact Bool.eq_false_iff.mpr h
    · exact d.plain y hy, d.parts⟩

def ofList : List α → Sections mark
  | [] => ⟨[], fun _ hy => absurd hy List.not_mem_nil, []⟩
  | x :: rest => (ofList rest).cons x

@[simp] lemma partLines_nil : partLines ([] : List (Section mark)) = [] := rfl

@[simp] lemma partLines_cons (s : Section mark) (parts : List (Section mark)) :
    partLines (s :: parts) = s.head :: (s.body ++ partLines parts) := rfl

@[simp] lemma partLines_append (parts more : List (Section mark)) :
    partLines (parts ++ more) = partLines parts ++ partLines more := List.flatMap_append

lemma lines_cons (x : α) (d : Sections mark) : (d.cons x).lines = x :: d.lines := by
  unfold cons
  split <;> rfl

@[simp] lemma lines_ofList (l : List α) : (ofList l : Sections mark).lines = l := by
  induction l with
  | nil => rfl
  | cons x rest ih => rw [ofList, lines_cons, ih]

lemma mem_lines {d : Sections mark} {s : Section mark} (h : s ∈ d.parts) : s.head ∈ d.lines :=
  List.mem_append_right _ (List.mem_flatMap.mpr ⟨s, h, List.mem_cons_self⟩)

lemma head_of_mem {d : Sections mark} {x : α} (hx : x ∈ d.lines) (hmark : mark x = true) :
    ∃ s ∈ d.parts, s.head = x := by
  rcases List.mem_append.mp hx with hbefore | hparts
  · exact absurd hmark (by rw [d.plain x hbefore]; exact Bool.false_ne_true)
  · obtain ⟨s, hs, hline⟩ := List.mem_flatMap.mp hparts
    rcases List.mem_cons.mp hline with rfl | hbody
    · exact ⟨s, hs, rfl⟩
    · exact absurd hmark (by rw [s.plain x hbody]; exact Bool.false_ne_true)

/-! ### The sections that satisfy a predicate -/

/-- The sections in front whose heads satisfy the predicate. -/
def leading (p : α → Bool) (parts : List (Section mark)) : List (Section mark) := parts.takeWhile (fun s => p s.head)

/-- The first stretch of sections whose heads satisfy the predicate. -/
def stretch (p : α → Bool) (parts : List (Section mark)) : List (Section mark) :=
  leading p (parts.dropWhile (fun s => !p s.head))

section

variable {p : α → Bool} {s : Section mark}

lemma leading_cons_of_pos (h : p s.head = true) (parts : List (Section mark)) :
    leading p (s :: parts) = s :: leading p parts :=
  List.takeWhile_cons_of_pos (p := fun s : Section mark => p s.head) h

lemma leading_cons_of_neg (h : p s.head = false) (parts : List (Section mark)) : leading p (s :: parts) = [] :=
  List.takeWhile_cons_of_neg (p := fun s : Section mark => p s.head) (by rw [h]; exact Bool.false_ne_true)

lemma stretch_cons_of_neg (h : p s.head = false) (parts : List (Section mark)) :
    stretch p (s :: parts) = stretch p parts := by
  unfold stretch
  rw [List.dropWhile_cons_of_pos (by rw [h]; rfl)]

lemma stretch_cons_of_pos (h : p s.head = true) (parts : List (Section mark)) :
    stretch p (s :: parts) = s :: leading p parts := by
  unfold stretch
  rw [List.dropWhile_cons_of_neg (by rw [h]; exact Bool.false_ne_true), leading_cons_of_pos h]

lemma stretch_append_of_neg {first : List (Section mark)} (h : ∀ t ∈ first, p t.head = false)
    (parts : List (Section mark)) : stretch p (first ++ parts) = stretch p parts := by
  induction first with
  | nil => rfl
  | cons t first ih =>
    rw [List.cons_append, stretch_cons_of_neg (h t List.mem_cons_self)]
    exact ih (fun u hu => h u (List.mem_cons_of_mem _ hu))

end

/-- What may be put in the place of a section: itself when its head satisfies the predicate, else sections whose heads
do not. -/
def Replaces (p : α → Bool) (f : Section mark → List (Section mark)) : Prop :=
  (∀ s, p s.head = true → f s = [s]) ∧ ∀ s, p s.head = false → f s ≠ [] ∧ ∀ t ∈ f s, p t.head = false

lemma leading_flatMap {p : α → Bool} {f : Section mark → List (Section mark)} (h : Replaces p f)
    (parts : List (Section mark)) : leading p (parts.flatMap f) = leading p parts := by
  induction parts with
  | nil => rfl
  | cons s parts ih =>
    rw [List.flatMap_cons]
    cases hs : p s.head with
    | true => rw [h.1 s hs, List.singleton_append, leading_cons_of_pos hs, leading_cons_of_pos hs, ih]
    | false =>
      obtain ⟨hne, hnone⟩ := h.2 s hs
      obtain ⟨t, rest, hf⟩ := List.exists_cons_of_ne_nil hne
      have ht : p t.head = false := hnone t (by rw [hf]; exact List.mem_cons_self)
      rw [hf, List.cons_append, leading_cons_of_neg ht, leading_cons_of_neg hs]

lemma stretch_flatMap {p : α → Bool} {f : Section mark → List (Section mark)} (h : Replaces p f)
    (parts : List (Section mark)) : stretch p (parts.flatMap f) = stretch p parts := by
  induction parts with
  | nil => rfl
  | cons s parts ih =>
    rw [List.flatMap_cons]
    cases hs : p s.head with
    | true =>
      rw [h.1 s hs, List.singleton_append, stretch_cons_of_pos hs, stretch_cons_of_pos hs, leading_flatMap h]
    | false => rw [stretch_append_of_neg (h.2 s hs).2, stretch_cons_of_neg hs, ih]

/-- The same heads, and the same sections under those that satisfy the predicate. -/
def Agree (p : α → Bool) (s t : Section mark) : Prop := s.head = t.head ∧ (p s.head = true → s = t)

lemma leading_forall₂ {p : α → Bool} {parts parts' : List (Section mark)} (h : List.Forall₂ (Agree p) parts parts') :
    leading p parts' = leading p parts := by
  induction h with
  | nil => rfl
  | @cons s t _ _ hst _ ih =>
    obtain ⟨hhead, hsame⟩ := hst
    cases hs : p s.head with
    | true =>
      obtain rfl := hsame hs
      rw [leading_cons_of_pos hs, leading_cons_of_pos hs, ih]
    | false => rw [leading_cons_of_neg hs, leading_cons_of_neg (hhead ▸ hs)]

lemma stretch_forall₂ {p : α → Bool} {parts parts' : List (Section mark)} (h : List.Forall₂ (Agree p) parts parts') :
    stretch p parts' = stretch p parts := by
  induction h with
  | nil => rfl
  | @cons s t _ _ hst hrest ih =>
    obtain ⟨hhead, hsame⟩ := hst
    cases hs : p s.head with
    | true =>
      obtain rfl := hsame hs
      rw [stretch_cons_of_pos hs, stretch_cons_of_pos hs, leading_forall₂ hrest]
    | false => rw [stretch_cons_of_neg hs, stretch_cons_of_neg (hhead ▸ hs), ih]

end Sections

end SciForge
