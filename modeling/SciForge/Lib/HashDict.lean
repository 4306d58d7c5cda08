import Mathlib.Data.Int.Notation
import Mathlib.Data.List.Induction
import Mathlib.Tactic.Cases

/-!
# Hash tables with a key equality

A table whose keys are found by a hash and an equality test. When the test is an equivalence that the hashes respect, the
table is a map on the classes of keys.
-/

namespace SciForge.HashDict

variable {K V : Type*}

/-- The hash of a key, and whether a stored key is the given one. -/
structure Keys (K : Type*) where
  hash : K → ℤ
  same : K → K → Bool

structure Keys.Lawful (keys : Keys K) : Prop where
  refl : ∀ k, keys.same k k = true
  symm : ∀ a b, keys.same a b = true → keys.same b a = true
  trans : ∀ a b c, keys.same a b = true → keys.same b c = true → keys.same a c = true
  hash : ∀ a b, keys.same a b = true → keys.hash a = keys.hash b

/-- The entries, oldest first. -/
abbrev Table (K V : Type*) := List (K × V)

section

variable (keys : Keys K)

/-- The test made on an entry: its hash first. -/
def hit (k : K) (entry : K × V) : Bool := keys.hash entry.1 = keys.hash k && keys.same entry.1 k

def get (table : Table K V) (k : K) : Option V := (table.find? (hit keys k)).map Prod.snd

/-- A key that is there keeps its entry. -/
def set (table : Table K V) (k : K) (v : V) : Table K V :=
  match table with
  | [] => [(k, v)]
  | entry :: rest => if hit keys k entry then (entry.1, v) :: rest else entry :: set rest k v

def erase (table : Table K V) (k : K) : Table K V := table.eraseP (hit keys k)

/-- What a program does with a table. -/
inductive Op (K V : Type*)
  | set (k : K) (v : V)
  | erase (k : K)

def step (table : Table K V) : Op K V → Table K V
  | .set k v => set keys table k v
  | .erase k => erase keys table k

/-- What the last operation on a key of `k`'s class left. -/
def latest (ops : List (Op K V)) (k : K) : Option V :=
  ops.foldl (fun value op =>
    match op with
    | .set k' v => if keys.same k' k then some v else value
    | .erase k' => if keys.same k' k then none else value) none

end

variable {keys : Keys K}

lemma Keys.Lawful.hit_iff (h : keys.Lawful) (k : K) (entry : K × V) :
    hit keys k entry = true ↔ keys.same entry.1 k = true := by
  unfold hit
  rw [Bool.and_eq_true, decide_eq_true_iff]
  exact and_iff_right_of_imp (h.hash entry.1 k)

lemma Keys.Lawful.same_congr (h : keys.Lawful) {a b : K} (hab : keys.same a b = true) (c : K) :
    keys.same c a = keys.same c b := by
  refine Bool.eq_iff_iff.mpr ⟨fun hca => h.trans c a b hca hab, fun hcb => h.trans c b a hcb (h.symm a b hab)⟩

lemma Keys.Lawful.hit_congr (h : keys.Lawful) {a b : K} (hab : keys.same a b = true) :
    (hit keys a : K × V → Bool) = hit keys b := by
  funext entry
  refine Bool.eq_iff_iff.mpr ?_
  rw [h.hit_iff, h.hit_iff, h.same_congr hab]

lemma set_nil (k : K) (v : V) : set keys [] k v = [(k, v)] := rfl

lemma set_cons (entry : K × V) (table : Table K V) (k : K) (v : V) : set keys (entry :: table) k v =
    if hit keys k entry then (entry.1, v) :: table else entry :: set keys table k v := rfl

lemma get_cons (table : Table K V) (entry : K × V) (k : K) :
    get keys (entry :: table) k = if hit keys k entry then some entry.2 else get keys table k := by
  unfold get
  rw [List.find?_cons]
  split
  · next heq => rw [if_pos heq]; rfl
  · next heq => rw [if_neg (by simpa using heq)]

lemma get_set (h : keys.Lawful) (table : Table K V) (k k' : K) (v : V) :
    get keys (set keys table k v) k' = if keys.same k k' then some v else get keys table k' := by
  induction table with
  | nil =>
    rw [set_nil, get_cons]
    simp only [h.hit_iff]
  | cons entry table ih =>
    rw [set_cons]
    by_cases hentry : hit keys k entry = true
    · rw [if_pos hentry, get_cons, get_cons]
      have hsame := (h.hit_iff k entry).mp hentry
      simp only [h.hit_iff]
      -- the entry stands for `k`, so it answers for the keys of its class
      have hclass : keys.same entry.1 k' = keys.same k k' := by
        refine Bool.eq_iff_iff.mpr ⟨fun he => ?_, fun hk => h.trans _ _ _ hsame hk⟩
        exact h.trans _ _ _ (h.symm _ _ hsame) he
      rw [hclass]
      by_cases hk : keys.same k k' = true
      · rw [if_pos hk, if_pos hk]
      · rw [if_neg hk, if_neg hk, if_neg hk]
    · rw [if_neg hentry, get_cons, get_cons, ih]
      by_cases hk : keys.same k k' = true
      · have hmiss : ¬hit keys k' entry = true := by rwa [← h.hit_congr hk]
        rw [if_neg hmiss, if_pos hk, if_pos hk]
      · rw [if_neg hk, if_neg hk]

/-- One entry a class. -/
def Distinct (keys : Keys K) (table : Table K V) : Prop :=
  table.Pairwise fun entry entry' => keys.same entry.1 entry'.1 = false

lemma mem_set {table : Table K V} {k : K} {v : V} {entry : K × V} (hmem : entry ∈ set keys table k v) :
    entry.1 = k ∨ ∃ entry' ∈ table, entry'.1 = entry.1 := by
  induction table with
  | nil =>
    rw [set_nil, List.mem_singleton] at hmem
    exact .inl (congrArg Prod.fst hmem)
  | cons first table ih =>
    rw [set_cons] at hmem
    split at hmem
    · rcases List.mem_cons.mp hmem with rfl | hmem
      · exact .inr ⟨first, List.mem_cons_self, rfl⟩
      · exact .inr ⟨entry, List.mem_cons_of_mem _ hmem, rfl⟩
    · rcases List.mem_cons.mp hmem with rfl | hmem
      · exact .inr ⟨entry, List.mem_cons_self, rfl⟩
      · rcases ih hmem with hk | ⟨entry', hentry', heq⟩
        · exact .inl hk
        · exact .inr ⟨entry', List.mem_cons_of_mem _ hentry', heq⟩

lemma Distinct.set (h : keys.Lawful) {table : Table K V} (hd : Distinct keys table) (k : K) (v : V) :
    Distinct keys (set keys table k v) := by
  induction table with
  | nil => exact List.pairwise_singleton _ _
  | cons entry table ih =>
    obtain ⟨hfirst, hrest⟩ := List.pairwise_cons.mp hd
    rw [set_cons]
    split
    · exact List.pairwise_cons.mpr ⟨hfirst, hrest⟩
    · next hmiss =>
      refine List.pairwise_cons.mpr ⟨fun entry' hentry' => ?_, ih hrest⟩
      rcases mem_set hentry' with hk | ⟨old, hold, heq⟩
      · rw [hk]
        exact Bool.eq_false_iff.mpr fun hsame => hmiss ((h.hit_iff k entry).mpr hsame)
      · rw [← heq]
        exact hfirst old hold

lemma Distinct.erase {table : Table K V} (hd : Distinct keys table) (k : K) : Distinct keys (erase keys table k) :=
  hd.sublist List.eraseP_sublist

lemma get_erase (h : keys.Lawful) {table : Table K V} (hd : Distinct keys table) (k k' : K) :
    get keys (erase keys table k) k' = if keys.same k k' then none else get keys table k' := by
  induction table with
  | nil => simp [erase, get]
  | cons entry table ih =>
    obtain ⟨hfirst, hrest⟩ := List.pairwise_cons.mp hd
    unfold erase at ih ⊢
    rw [List.eraseP_cons, Bool.cond_eq_ite]
    by_cases hentry : hit keys k entry = true
    · rw [if_pos hentry, get_cons]
      have hsame := (h.hit_iff k entry).mp hentry
      by_cases hk : keys.same k k' = true
      · -- the entry taken out was the only one of the class
        rw [if_pos hk]
        unfold get
        rw [Option.map_eq_none_iff, List.find?_eq_none]
        intro entry' hentry' hhit
        have hclass := h.symm _ _ ((h.hit_iff k' entry').mp hhit)
        have htaken := h.trans _ _ _ (h.trans _ _ _ hsame hk) hclass
        exact absurd htaken (Bool.eq_false_iff.mp (hfirst entry' hentry'))
      · rw [if_neg hk, if_neg]
        rw [h.hit_iff]
        exact fun he => hk (h.trans _ _ _ (h.symm _ _ hsame) he)
    · rw [if_neg hentry, get_cons, get_cons, ih hrest]
      by_cases hk : keys.same k k' = true
      · have hmiss : ¬hit keys k' entry = true := by rwa [← h.hit_congr hk]
        rw [if_neg hmiss, if_pos hk, if_pos hk]
      · rw [if_neg hk, if_neg hk]

/-- After any operations a key finds what the last one on its class left. -/
theorem get_run (h : keys.Lawful) (ops : List (Op K V)) (k : K) :
    get keys (ops.foldl (step keys) []) k = latest keys ops k := by
  have hrun : ∀ ops : List (Op K V), Distinct keys (ops.foldl (step keys) []) ∧
      ∀ k, get keys (ops.foldl (step keys) []) k = latest keys ops k := by
    intro ops
    induction ops using List.reverseRecOn with
    | nil => exact ⟨List.Pairwise.nil, fun _ => rfl⟩
    | append_singleton ops op ih =>
      obtain ⟨hd, hget⟩ := ih
      unfold latest at hget ⊢
      simp only [List.foldl_append, List.foldl_cons, List.foldl_nil]
      cases op with
      | set k v =>
        refine ⟨hd.set h k v, fun k' => ?_⟩
        rw [step, get_set h, hget]
      | erase k =>
        refine ⟨hd.erase k, fun k' => ?_⟩
        rw [step, get_erase h hd, hget]
  exact (hrun ops).2 k

end SciForge.HashDict
