import SciForge.Corpus.Grammar

/-!
# The enumerator against the grammar

Soundness is by induction on the budget, completeness by induction on the derivation. The two meet in
`enumeratePatterns`, for tier 1 without condition and for tier 2 up to the branch lists that the loops
of `alts` do not reach: a non-empty branch followed by two empty ones.
-/

namespace SciForge.Corpus

variable {alphabet : PyStr} {emptyBranches : Bool}

/-! ### What one call yields -/

lemma mem_atoms {b : ℤ} {s c} : (s, c) ∈ atoms b alphabet emptyBranches ↔
    1 ≤ b ∧ (s ∈ tier1Atoms alphabet ∧ c = 1 ∨
      2 ≤ b ∧ ∃ inner c', (inner, c') ∈ alts (b - 1) alphabet maxBranches emptyBranches ∧
        s = py "(" ++ inner ++ py ")" ∧ c = c' + 1) := by
  rw [atoms]
  by_cases hb : b < 1
  · simp [hb]
  · have hb1 : 1 ≤ b := by omega
    by_cases hb2 : 2 ≤ b
    · simp only [hb, ite_false, hb1, hb2, ite_true, true_and, List.mem_append, List.mem_map,
        Prod.mk.injEq, Prod.exists]
      grind
    · simp only [hb, ite_false, hb1, hb2, List.append_nil, true_and, false_and, or_false,
        List.mem_map, Prod.mk.injEq]
      grind

lemma mem_elements {b : ℤ} {s c} : (s, c) ∈ elements b alphabet emptyBranches ↔
    1 ≤ b ∧ (s ∈ anchors ∧ c = 1 ∨ (s, c) ∈ atoms b alphabet emptyBranches ∨
      ∃ atom c', (atom, c') ∈ atoms b alphabet emptyBranches ∧ (c' : ℤ) + 1 ≤ b ∧
        ∃ quant ∈ quants, s = atom ++ quant ∧ c = c' + 1) := by
  rw [elements]
  by_cases hb : b < 1
  · simp [hb]
  · have hb1 : 1 ≤ b := by omega
    simp only [hb, ite_false, hb1, true_and, List.mem_append, List.mem_map, List.mem_flatMap,
      List.mem_cons, Prod.mk.injEq, Prod.exists]
    constructor
    · rintro (⟨x, hx, rfl, rfl⟩ | ⟨atom, c', ha, h⟩)
      · exact .inl ⟨hx, rfl⟩
      · rcases h with ⟨rfl, rfl⟩ | h
        · exact .inr (.inl ha)
        · split at h
          · obtain ⟨q, hq, h1, h2⟩ := by simpa only [List.mem_map, Prod.mk.injEq] using h
            exact .inr (.inr ⟨atom, c', ha, ‹_›, q, hq, h1.symm, h2.symm⟩)
          · cases h
    · rintro (⟨hx, rfl⟩ | ha | ⟨atom, c', ha, hc, q, hq, rfl, rfl⟩)
      · exact .inl ⟨s, hx, rfl, rfl⟩
      · exact .inr ⟨s, c, ha, .inl ⟨rfl, rfl⟩⟩
      · refine .inr ⟨atom, c', ha, .inr ?_⟩
        rw [if_pos hc]
        exact List.mem_map.mpr ⟨q, hq, rfl⟩

lemma mem_seqs {b : ℤ} {d s c} : (s, c) ∈ seqs b alphabet d emptyBranches ↔
    (s, c) ∈ elements b alphabet emptyBranches ∨
      1 < d ∧ ∃ element c₁ rest c₂, (element, c₁) ∈ elements b alphabet emptyBranches ∧
        (rest, c₂) ∈ seqs (b - (c₁ : ℕ)) alphabet (d - 1) emptyBranches ∧
        s = element ++ rest ∧ c = c₁ + c₂ := by
  rw [seqs]
  simp only [List.mem_flatMap, List.mem_cons, Prod.mk.injEq, Prod.exists]
  constructor
  · rintro ⟨element, c₁, he, ⟨rfl, rfl⟩ | h⟩
    · exact .inl he
    · split at h
      · obtain ⟨rest, c₂, hr, h1, h2⟩ := by
          simpa only [List.mem_map, Prod.mk.injEq, Prod.exists] using h
        exact .inr ⟨‹_›, element, c₁, rest, c₂, he, hr, h1.symm, h2.symm⟩
      · cases h
  · rintro (he | ⟨hd, element, c₁, rest, c₂, he, hr, rfl, rfl⟩)
    · exact ⟨s, c, he, .inl ⟨rfl, rfl⟩⟩
    · refine ⟨element, c₁, he, .inr ?_⟩
      rw [if_pos hd]
      exact List.mem_map.mpr ⟨(rest, c₂), hr, rfl⟩

lemma mem_alts {b : ℤ} {br s c} : (s, c) ∈ alts b alphabet br emptyBranches ↔
    (s, c) ∈ seqs b alphabet maxSeq emptyBranches ∨
    (1 < br ∧ ∃ sequence c₁, (sequence, c₁) ∈ seqs b alphabet maxSeq emptyBranches ∧ (c₁ : ℤ) + 1 ≤ b ∧
      ((∃ rest c₂, (rest, c₂) ∈ alts (b - (c₁ : ℕ) - 1) alphabet (br - 1) emptyBranches ∧
          s = sequence ++ py "|" ++ rest ∧ c = c₁ + 1 + c₂) ∨
        emptyBranches = true ∧ s = sequence ++ py "|" ∧ c = c₁ + 1)) ∨
    (emptyBranches = true ∧ 1 < br ∧ 1 ≤ b ∧ ∃ rest c₂,
      (rest, c₂) ∈ alts (b - 1) alphabet (br - 1) emptyBranches ∧ s = py "|" ++ rest ∧ c = 1 + c₂) := by
  rw [alts]
  simp only [List.mem_append, List.mem_flatMap, List.mem_cons, Prod.mk.injEq, Prod.exists]
  constructor
  · rintro (⟨sequence, c₁, hs, ⟨rfl, rfl⟩ | h⟩ | h)
    · exact .inl hs
    · split at h
      · obtain ⟨hbr, hb⟩ := ‹1 < br ∧ _›
        refine .inr (.inl ⟨hbr, sequence, c₁, hs, hb, ?_⟩)
        rcases List.mem_append.mp h with h | h
        · obtain ⟨rest, c₂, hr, h1, h2⟩ := by
            simpa only [List.mem_map, Prod.mk.injEq, Prod.exists] using h
          exact .inl ⟨rest, c₂, hr, h1.symm, h2.symm⟩
        · split at h
          · rw [List.mem_singleton, Prod.mk.injEq] at h
            exact .inr ⟨‹_›, h.1, h.2⟩
          · cases h
      · cases h
    · split at h
      · obtain ⟨he, hbr, hb⟩ := ‹emptyBranches = true ∧ _›
        obtain ⟨rest, c₂, hr, h1, h2⟩ := by
          simpa only [List.mem_map, Prod.mk.injEq, Prod.exists] using h
        exact .inr (.inr ⟨he, hbr, hb, rest, c₂, hr, h1.symm, h2.symm⟩)
      · cases h
  · rintro (hs | ⟨hbr, sequence, c₁, hs, hb, h⟩ | ⟨he, hbr, hb, rest, c₂, hr, rfl, rfl⟩)
    · exact .inl ⟨s, c, hs, .inl ⟨rfl, rfl⟩⟩
    · refine .inl ⟨sequence, c₁, hs, .inr ?_⟩
      rw [if_pos ⟨hbr, hb⟩]
      rcases h with ⟨rest, c₂, hr, rfl, rfl⟩ | ⟨he, rfl, rfl⟩
      · exact List.mem_append_left _ (List.mem_map.mpr ⟨(rest, c₂), hr, rfl⟩)
      · rw [if_pos he]
        exact List.mem_append_right _ (List.mem_singleton.mpr rfl)
    · right
      rw [if_pos ⟨he, hbr, hb⟩]
      exact List.mem_map.mpr ⟨(rest, c₂), hr, rfl⟩

lemma alts_of_lt_one {b : ℤ} (hb : b < 1) (br : ℕ) : alts b alphabet br emptyBranches = [] := by
  have hseqs : seqs b alphabet maxSeq emptyBranches = [] := by
    rw [seqs, elements, if_pos hb, List.flatMap_nil]
  rw [alts, hseqs, List.flatMap_nil, if_neg (by omega), List.append_nil]

/-! ### Soundness -/

/-- What the groups of a call with budget `b` may rely on. -/
def GroupsSound (alphabet : PyStr) (emptyBranches : Bool) (b : ℤ) : Prop :=
  ∀ s c, (s, c) ∈ alts (b - 1) alphabet maxBranches emptyBranches →
    ∃ n, n ≤ 3 ∧ Branches alphabet emptyBranches n true s c ∧ (c : ℤ) ≤ b - 1

lemma atom_of_mem_tier1Atoms {s} (h : s ∈ tier1Atoms alphabet) : Atom alphabet emptyBranches s 1 := by
  rcases List.mem_append.mp h with h | h
  · obtain ⟨x, hx, rfl⟩ := List.mem_map.mp h
    exact .letter hx
  · simp only [List.mem_cons, List.not_mem_nil, or_false] at h
    rcases h with rfl | rfl | rfl
    · exact .dot
    · exact .oneOf
    · exact .noneOf

lemma atoms_sound {b : ℤ} (hg : GroupsSound alphabet emptyBranches b) {s c}
    (h : (s, c) ∈ atoms b alphabet emptyBranches) :
    Atom alphabet emptyBranches s c ∧ (c : ℤ) ≤ b := by
  obtain ⟨hb, ⟨hs, rfl⟩ | ⟨hb2, inner, c', hi, rfl, rfl⟩⟩ := mem_atoms.mp h
  · exact ⟨atom_of_mem_tier1Atoms hs, by omega⟩
  · obtain ⟨n, hn, hbr, hc⟩ := hg inner c' hi
    exact ⟨.group hbr hn, by omega⟩

lemma elements_sound {b : ℤ} (hg : GroupsSound alphabet emptyBranches b) {s c}
    (h : (s, c) ∈ elements b alphabet emptyBranches) :
    Element alphabet emptyBranches s c ∧ (c : ℤ) ≤ b := by
  obtain ⟨hb, ⟨hs, rfl⟩ | ha | ⟨atom, c', ha, hc, quant, hq, rfl, rfl⟩⟩ := mem_elements.mp h
  · simp only [anchors, List.mem_cons, List.not_mem_nil, or_false] at hs
    rcases hs with rfl | rfl
    · exact ⟨.caret, by omega⟩
    · exact ⟨.dollar, by omega⟩
  · exact ⟨.atom (atoms_sound hg ha).1, (atoms_sound hg ha).2⟩
  · have hatom := (atoms_sound hg ha).1
    simp only [quants, List.mem_cons, List.not_mem_nil, or_false] at hq
    rcases hq with rfl | rfl | rfl
    · exact ⟨.star hatom, by omega⟩
    · exact ⟨.plus hatom, by omega⟩
    · exact ⟨.opt hatom, by omega⟩

lemma seqs_sound (d : ℕ) {b : ℤ} (hg : ∀ b' ≤ b, GroupsSound alphabet emptyBranches b') {s c}
    (h : (s, c) ∈ seqs b alphabet d emptyBranches) :
    ∃ n, n ≤ max d 1 ∧ Sequence alphabet emptyBranches n s c ∧ (c : ℤ) ≤ b := by
  induction d generalizing b s c with
  | zero =>
    obtain he | ⟨hd, _⟩ := mem_seqs.mp h
    · obtain ⟨he, hc⟩ := elements_sound (hg b le_rfl) he
      exact ⟨1, by omega, .one he, hc⟩
    · omega
  | succ d ih =>
    obtain he | ⟨hd, element, c₁, rest, c₂, he, hr, rfl, rfl⟩ := mem_seqs.mp h
    · obtain ⟨he, hc⟩ := elements_sound (hg b le_rfl) he
      exact ⟨1, by omega, .one he, hc⟩
    · obtain ⟨he, hc₁⟩ := elements_sound (hg b le_rfl) he
      obtain ⟨n, hn, hseq, hc₂⟩ := ih (fun b' hb' => hg b' (by omega)) hr
      exact ⟨n + 1, by omega, .cons he hseq, by push_cast; omega⟩

lemma branch_sound {b : ℤ} (hg : ∀ b' ≤ b, GroupsSound alphabet emptyBranches b') {s c}
    (h : (s, c) ∈ seqs b alphabet maxSeq emptyBranches) :
    Branch alphabet emptyBranches true s c ∧ (c : ℤ) ≤ b := by
  obtain ⟨n, hn, hseq, hc⟩ := seqs_sound maxSeq hg h
  exact ⟨.seq hseq (by simpa [maxSeq] using hn), hc⟩

lemma alts_sound_step (br : ℕ) (hbr : 1 ≤ br) {b : ℤ}
    (hg : ∀ b' ≤ b, GroupsSound alphabet emptyBranches b') {s c}
    (h : (s, c) ∈ alts b alphabet br emptyBranches) :
    ∃ n, n ≤ br ∧ Branches alphabet emptyBranches n true s c ∧ (c : ℤ) ≤ b := by
  induction br, hbr using Nat.le_induction generalizing b s c with
  | base =>
    obtain hs | ⟨hlt, _⟩ | ⟨_, hlt, _⟩ := mem_alts.mp h
    · obtain ⟨hbranch, hc⟩ := branch_sound hg hs
      exact ⟨1, le_rfl, .one hbranch, hc⟩
    · omega
    · omega
  | succ br hbr ih =>
    have hrest : ∀ {b' : ℤ} {s c}, b' ≤ b → (s, c) ∈ alts b' alphabet br emptyBranches →
        ∃ n, n ≤ br ∧ Branches alphabet emptyBranches n true s c ∧ (c : ℤ) ≤ b' :=
      fun hb' hs => ih (fun b'' h'' => hg b'' (by omega)) hs
    obtain hs | ⟨_, sequence, c₁, hs, hb, h⟩ | ⟨he, _, hb, rest, c₂, hr, rfl, rfl⟩ := mem_alts.mp h
    · obtain ⟨hbranch, hc⟩ := branch_sound hg hs
      exact ⟨1, by omega, .one hbranch, hc⟩
    · have hbranch := (branch_sound hg hs).1
      rcases h with ⟨rest, c₂, hr, rfl, rfl⟩ | ⟨he, rfl, rfl⟩
      · obtain ⟨n, hn, hbranches, hc⟩ := hrest (by omega) hr
        exact ⟨n + 1, by omega, .cons hbranch hbranches, by push_cast; omega⟩
      · refine ⟨2, by omega, ?_, by push_cast; omega⟩
        have := Branches.cons hbranch (.one (.empty he))
        simpa using this
    · obtain ⟨n, hn, hbranches, hc⟩ := hrest (by omega) hr
      refine ⟨n + 1, by omega, ?_, by push_cast; omega⟩
      have := Branches.cons (.empty he) hbranches
      simpa [Nat.add_comm] using this

lemma groups_sound (b : ℤ) : GroupsSound alphabet emptyBranches b := by
  have hgroups : ∀ (m : ℕ) (b : ℤ), b ≤ m → GroupsSound alphabet emptyBranches b := by
    intro m
    induction m with
    | zero =>
      intro b hb s c hs
      rw [alts_of_lt_one (by push_cast at hb; omega)] at hs
      cases hs
    | succ m ih =>
      intro b hb s c hs
      exact alts_sound_step maxBranches (by decide) (fun b' hb' => ih b' (by push_cast at hb; omega)) hs
  exact hgroups b.toNat b (by omega)

/-- Whatever `alts` yields is a derivation within the budget and the branch cap. -/
theorem alts_sound {b : ℤ} {br : ℕ} (hbr : 1 ≤ br) {s c}
    (h : (s, c) ∈ alts b alphabet br emptyBranches) :
    ∃ n, n ≤ br ∧ Branches alphabet emptyBranches n true s c ∧ (c : ℤ) ≤ b :=
  alts_sound_step br hbr (fun b' _ => groups_sound b') h

/-! ### Completeness -/

/-- The budgets whose grammar has no non-empty branch followed by two empty ones, or an alphabet whose
own `|` spells those strings. -/
def Reached (alphabet : PyStr) (emptyBranches : Bool) (b : ℤ) : Prop :=
  emptyBranches = true → b ≤ 2 ∨ ord '|' ∈ alphabet

lemma Reached.mono {b b' : ℤ} (h : Reached alphabet emptyBranches b) (hb : b' ≤ b) :
    Reached alphabet emptyBranches b' := by
  intro he
  rcases h he with h | h
  · exact .inl (by omega)
  · exact .inr h

lemma bar_mem_alts (hbar : ord '|' ∈ alphabet) {b : ℤ} (hb : 1 ≤ b) (br : ℕ) :
    (py "|", 1) ∈ alts b alphabet br emptyBranches := by
  have hatom : (py "|", 1) ∈ atoms b alphabet emptyBranches :=
    mem_atoms.mpr ⟨hb, .inl ⟨List.mem_append_left _ (List.mem_map.mpr ⟨ord '|', hbar, rfl⟩), rfl⟩⟩
  exact mem_alts.mpr (.inl (mem_seqs.mpr (.inl (mem_elements.mpr ⟨hb, .inr (.inl hatom)⟩))))

mutual

theorem atoms_complete {s c} (h : Atom alphabet emptyBranches s c) (b : ℤ) (hc : (c : ℤ) ≤ b)
    (hr : Reached alphabet emptyBranches b) : (s, c) ∈ atoms b alphabet emptyBranches := by
  match h with
  | .letter hx =>
    exact mem_atoms.mpr ⟨by omega, .inl ⟨List.mem_append_left _ (List.mem_map.mpr ⟨_, hx, rfl⟩), rfl⟩⟩
  | .dot => exact mem_atoms.mpr ⟨by omega, .inl ⟨by simp [tier1Atoms], rfl⟩⟩
  | .oneOf => exact mem_atoms.mpr ⟨by omega, .inl ⟨by simp [tier1Atoms], rfl⟩⟩
  | .noneOf => exact mem_atoms.mpr ⟨by omega, .inl ⟨by simp [tier1Atoms], rfl⟩⟩
  | .group (s := inner) (c := c') hbranches hn =>
    have hpos := hbranches.cost_pos rfl
    push_cast at hc
    have hinner := alts_complete hbranches rfl (b - 1) maxBranches hn (by decide) (by omega)
      (hr.mono (by omega))
    exact mem_atoms.mpr ⟨by omega, .inr ⟨by omega, inner, c', hinner, rfl, rfl⟩⟩

theorem elements_complete {s c} (h : Element alphabet emptyBranches s c) (b : ℤ) (hc : (c : ℤ) ≤ b)
    (hr : Reached alphabet emptyBranches b) : (s, c) ∈ elements b alphabet emptyBranches := by
  match h with
  | .caret => exact mem_elements.mpr ⟨by omega, .inl ⟨by simp [anchors], rfl⟩⟩
  | .dollar => exact mem_elements.mpr ⟨by omega, .inl ⟨by simp [anchors], rfl⟩⟩
  | .atom ha =>
    have hpos := ha.cost_pos
    exact mem_elements.mpr ⟨by omega, .inr (.inl (atoms_complete ha b hc hr))⟩
  | .star (c := c') ha =>
    push_cast at hc
    exact mem_elements.mpr ⟨by omega, .inr (.inr ⟨_, c', atoms_complete ha b (by omega) hr, by omega,
      _, by simp [quants], rfl, rfl⟩)⟩
  | .plus (c := c') ha =>
    push_cast at hc
    exact mem_elements.mpr ⟨by omega, .inr (.inr ⟨_, c', atoms_complete ha b (by omega) hr, by omega,
      _, by simp [quants], rfl, rfl⟩)⟩
  | .opt (c := c') ha =>
    push_cast at hc
    exact mem_elements.mpr ⟨by omega, .inr (.inr ⟨_, c', atoms_complete ha b (by omega) hr, by omega,
      _, by simp [quants], rfl, rfl⟩)⟩

theorem seqs_complete {n s c} (h : Sequence alphabet emptyBranches n s c) (b : ℤ) (d : ℕ) (hd : n ≤ d)
    (hc : (c : ℤ) ≤ b) (hr : Reached alphabet emptyBranches b) :
    (s, c) ∈ seqs b alphabet d emptyBranches := by
  match h with
  | .one he => exact mem_seqs.mpr (.inl (elements_complete he b hc hr))
  | @Sequence.cons _ _ _ _ c₁ _ c₂ he hs =>
    have hpos := hs.length_pos
    push_cast at hc
    have hrest := seqs_complete hs (b - c₁) (d - 1) (by omega) (by omega) (hr.mono (by omega))
    exact mem_seqs.mpr (.inr ⟨by omega, _, c₁, _, c₂, elements_complete he b (by omega) hr, hrest,
      rfl, rfl⟩)

theorem alts_complete {n some s c} (h : Branches alphabet emptyBranches n some s c)
    (hsome : some = true) (b : ℤ) (br : ℕ) (hn : n ≤ br) (hbr : br ≤ 3) (hc : (c : ℤ) ≤ b)
    (hr : Reached alphabet emptyBranches b) : (s, c) ∈ alts b alphabet br emptyBranches := by
  match h with
  | .one (.seq hs hlen) => exact mem_alts.mpr (.inl (seqs_complete hs b maxSeq hlen hc hr))
  | @Branches.cons _ _ _ _ _ _ _ _ c₂ (.empty he) hrest =>
    have hpos := hrest.length_pos
    push_cast at hc
    have hmem := alts_complete hrest (by simpa using hsome) (b - 1) (br - 1) (by omega) (by omega)
      (by omega) (hr.mono (by omega))
    exact mem_alts.mpr (.inr (.inr ⟨he, by omega, by omega, _, c₂, hmem, rfl, by omega⟩))
  | @Branches.cons _ _ _ _ c₁ m some' rest c₂ (.seq hs hlen) hrest =>
    have hpos := hrest.length_pos
    have hcost := hs.cost_pos
    push_cast at hc
    have hseq := seqs_complete hs b maxSeq hlen (by omega) hr
    refine mem_alts.mpr (.inr (.inl ⟨by omega, _, c₁, hseq, by omega, ?_⟩))
    by_cases hsome' : some' = true
    · have hmem := alts_complete hrest hsome' (b - c₁ - 1) (br - 1) (by omega) (by omega) (by omega)
        (hr.mono (by omega))
      exact .inl ⟨rest, c₂, hmem, rfl, rfl⟩
    · -- the rest is empty, or one bar between two empty branches
      obtain ⟨hs', hc'⟩ := hrest.all_empty (by simpa using hsome')
      have he : emptyBranches = true := by
        by_contra he
        rw [Bool.not_eq_true] at he
        rw [he] at hrest
        exact hsome' hrest.nonempty
      rcases Nat.lt_or_ge m 2 with hm | hm
      · obtain rfl : m = 1 := by omega
        subst hs' hc'
        exact .inr ⟨he, by simp, by omega⟩
      · obtain rfl : m = 2 := by omega
        have hbar : ord '|' ∈ alphabet := by
          rcases hr he with h | h
          · omega
          · exact h
        subst hs' hc'
        exact .inl ⟨py "|", 1, bar_mem_alts hbar (by omega) _, rfl, rfl⟩

end

/-! ### The enumerated patterns -/

lemma mem_enumeratePatterns {k : ℤ} {tier : ℕ} {s : PyStr} : s ∈ enumeratePatterns k alphabet tier ↔
    ∃ c, (s, c) ∈ alts k alphabet maxBranches (decide (2 ≤ tier)) := by
  simp only [enumeratePatterns, Finset.mem_sort, List.mem_toFinset, List.mem_map, Prod.exists]
  constructor
  · rintro ⟨a, c, h, rfl⟩
    exact ⟨c, h⟩
  · rintro ⟨c, h⟩
    exact ⟨s, c, h, rfl⟩

lemma derivable_of_mem (tier : ℕ) {k : ℤ} {s : PyStr} (h : s ∈ enumeratePatterns k alphabet tier) :
    Derivable alphabet (decide (2 ≤ tier)) k s := by
  obtain ⟨c, h⟩ := mem_enumeratePatterns.mp h
  obtain ⟨n, hn, hbranches, hc⟩ := alts_sound (by decide) h
  exact ⟨n, c, hn, hbranches, hc⟩

lemma mem_of_derivable (tier : ℕ) {k : ℤ} (hr : Reached alphabet (decide (2 ≤ tier)) k) {s : PyStr}
    (h : Derivable alphabet (decide (2 ≤ tier)) k s) : s ∈ enumeratePatterns k alphabet tier := by
  obtain ⟨n, c, hn, hbranches, hc⟩ := h
  exact mem_enumeratePatterns.mpr
    ⟨c, alts_complete hbranches rfl k maxBranches hn (by decide) hc hr⟩

/-- Tier 1: strictly increasing, and exactly the strings of the grammar within the budget. -/
theorem enumeratePatterns_tier1_exact (k : ℤ) (alphabet : PyStr) :
    (enumeratePatterns k alphabet 1).Pairwise (· < ·) ∧
      ∀ s, s ∈ enumeratePatterns k alphabet 1 ↔ Derivable alphabet false k s := by
  refine ⟨(Finset.sortedLT_sort _).pairwise, fun s => ⟨derivable_of_mem 1, mem_of_derivable 1 ?_⟩⟩
  intro he
  cases he

/-! ### A non-empty branch followed by two empty ones -/

/-- Read from the end: not empty, not a bar alone, not two bars. -/
def NoDoubleBar : PyStr → Prop
  | [] => False
  | [x] => x ≠ ord '|'
  | x :: y :: _ => ¬(x = ord '|' ∧ y = ord '|')

lemma NoDoubleBar.append {r : PyStr} (h : NoDoubleBar r) (t : PyStr) : NoDoubleBar (r ++ t) := by
  match r, t with
  | [], _ => exact absurd h id
  | [x], [] => exact h
  | [x], y :: t => exact fun hxy => h hxy.1
  | x :: y :: r, t => exact h

lemma Element.last_ne_bar (hbar : ord '|' ∉ alphabet) {s c} (h : Element alphabet emptyBranches s c) :
    ∃ x init, s.reverse = x :: init ∧ x ≠ ord '|' := by
  have hatom : ∀ {s c}, Atom alphabet emptyBranches s c → ∃ x init, s.reverse = x :: init ∧ x ≠ ord '|' := by
    intro s c ha
    cases ha with
    | letter hx => exact ⟨_, [], rfl, fun hb => hbar (hb ▸ hx)⟩
    | dot => exact ⟨ord '.', [], rfl, by decide⟩
    | oneOf => exact ⟨ord ']', _, List.reverse_append, by decide⟩
    | noneOf => exact ⟨ord ']', _, List.reverse_append, by decide⟩
    | group _ _ => exact ⟨ord ')', _, List.reverse_append, by decide⟩
  cases h with
  | caret => exact ⟨ord '^', [], rfl, by decide⟩
  | dollar => exact ⟨ord '$', [], rfl, by decide⟩
  | atom ha => exact hatom ha
  | star _ => exact ⟨ord '*', _, List.reverse_append, by decide⟩
  | plus _ => exact ⟨ord '+', _, List.reverse_append, by decide⟩
  | opt _ => exact ⟨ord '?', _, List.reverse_append, by decide⟩

lemma Sequence.last_ne_bar (hbar : ord '|' ∉ alphabet) {n s c}
    (h : Sequence alphabet emptyBranches n s c) : ∃ x init, s.reverse = x :: init ∧ x ≠ ord '|' := by
  induction n generalizing s c with
  | zero => exact absurd h.length_pos (by omega)
  | succ n ih =>
    cases h with
    | one he => exact he.last_ne_bar hbar
    | cons _ hs =>
      obtain ⟨x, init, hx, hne⟩ := ih hs
      exact ⟨x, _, by rw [List.reverse_append, hx]; rfl, hne⟩

lemma alts_noDoubleBar (hbar : ord '|' ∉ alphabet) (br : ℕ) {b : ℤ} {s c}
    (h : (s, c) ∈ alts b alphabet br emptyBranches) : NoDoubleBar s.reverse := by
  have hseq : ∀ {b : ℤ} {s c}, (s, c) ∈ seqs b alphabet maxSeq emptyBranches →
      ∃ x init, s.reverse = x :: init ∧ x ≠ ord '|' := by
    intro b s c hs
    obtain ⟨n, _, hs, _⟩ := seqs_sound maxSeq (fun b' _ => groups_sound b') hs
    exact hs.last_ne_bar hbar
  induction br generalizing b s c with
  | zero =>
    obtain hs | ⟨hlt, _⟩ | ⟨_, hlt, _⟩ := mem_alts.mp h
    · obtain ⟨x, init, hx, hne⟩ := hseq hs
      rw [hx]
      exact NoDoubleBar.append (r := [x]) hne init
    · omega
    · omega
  | succ br ih =>
    obtain hs | ⟨_, sequence, c₁, hs, _, h⟩ | ⟨_, _, _, rest, c₂, hr, rfl, rfl⟩ := mem_alts.mp h
    · obtain ⟨x, init, hx, hne⟩ := hseq hs
      rw [hx]
      exact NoDoubleBar.append (r := [x]) hne init
    · obtain ⟨x, init, hx, hne⟩ := hseq hs
      rcases h with ⟨rest, c₂, hr, rfl, rfl⟩ | ⟨_, rfl, rfl⟩
      · rw [List.reverse_append]
        exact (ih hr).append _
      · rw [List.reverse_append, hx]
        exact fun hxy => hne hxy.2
    · rw [List.reverse_append]
      exact (ih hr).append _

lemma missing_derivable {alphabet : PyStr} {s : PyStr} (hs : Atom alphabet true s 1) {k : ℤ} (hk : 3 ≤ k) :
    Derivable alphabet true k (s ++ py "||") := by
  refine ⟨3, 3, le_rfl, ?_, by exact_mod_cast hk⟩
  have hseq : Branch alphabet true true s 1 := .seq (.one (.atom hs)) (by decide)
  have := Branches.cons hseq (.cons (.empty rfl) (.one (.empty rfl)))
  simpa [List.append_assoc, py] using this

lemma missing_not_mem (hbar : ord '|' ∉ alphabet) (s : PyStr) (k : ℤ) (tier : ℕ) :
    s ++ py "||" ∉ enumeratePatterns k alphabet tier := by
  intro h
  obtain ⟨c, h⟩ := mem_enumeratePatterns.mp h
  have hbars := alts_noDoubleBar hbar _ h
  rw [List.reverse_append] at hbars
  exact hbars ⟨rfl, rfl⟩

/-- Tier 2 is exact up to cost two, and beyond it only when the alphabet holds a `|` of its own. -/
theorem enumeratePatterns_tier2_exact_iff (k : ℤ) (alphabet : PyStr) :
    (∀ s, s ∈ enumeratePatterns k alphabet 2 ↔ Derivable alphabet true k s) ↔
      k ≤ 2 ∨ ord '|' ∈ alphabet := by
  constructor
  · intro h
    by_contra hcon
    rw [not_or, not_le] at hcon
    have hmem := (h (py "." ++ py "||")).mpr (missing_derivable .dot (by omega))
    exact missing_not_mem hcon.2 _ _ _ hmem
  · exact fun hk s => ⟨derivable_of_mem 2, mem_of_derivable 2 (fun _ => hk)⟩

/-- `a||` costs three constructs and is missing at `k = 3`. -/
theorem enumeratePatterns_tier2_misses :
    Derivable (py "ab") true 3 (py "a||") ∧ py "a||" ∉ enumeratePatterns 3 (py "ab") 2 :=
  ⟨missing_derivable (.letter (x := ord 'a') (by decide)) le_rfl,
    missing_not_mem (by decide) (py "a") 3 2⟩

end SciForge.Corpus
