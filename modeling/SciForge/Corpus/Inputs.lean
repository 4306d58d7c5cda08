import SciForge.Corpus.Exhaustive
import Mathlib.Algebra.Ring.GeomSum
import Mathlib.Algebra.BigOperators.Group.List.Basic
import Mathlib.Data.List.Nodup

/-!
# The enumerated inputs

The words of one length as an iterated product, the words up to a length as their union, and the
count of both. Appending a text with a letter of its own gives words that are not among them.
-/

namespace SciForge.Corpus

/-- A word of length at most `n` over the alphabet. -/
def WordUpTo (n : ℕ) (alphabet s : PyStr) : Prop := s.length ≤ n ∧ ∀ c ∈ s, c ∈ alphabet

/-! ### Words of one length -/

lemma mem_product {alphabet : PyStr} {length : ℕ} {s : PyStr} :
    s ∈ product alphabet length ↔ s.length = length ∧ ∀ c ∈ s, c ∈ alphabet := by
  induction length generalizing s with
  | zero => simp +contextual [product, List.length_eq_zero_iff]
  | succ length ih =>
    simp only [product, List.mem_flatMap, List.mem_map, ih]
    constructor
    · rintro ⟨combo, ⟨hlen, hcombo⟩, letter, hletter, rfl⟩
      refine ⟨by rw [List.length_append, hlen, List.length_singleton], fun c hc => ?_⟩
      rcases List.mem_append.mp hc with hc | hc
      · exact hcombo c hc
      · exact List.mem_singleton.mp hc ▸ hletter
    · rintro ⟨hlen, hs⟩
      have hne : s ≠ [] := List.ne_nil_of_length_eq_add_one hlen
      have hsplit := List.dropLast_append_getLast hne
      refine ⟨s.dropLast, ⟨by rw [List.length_dropLast, hlen, Nat.add_sub_cancel], ?_⟩,
        s.getLast hne, hs _ (List.getLast_mem hne), hsplit⟩
      exact fun c hc => hs c (List.mem_of_mem_dropLast hc)

lemma length_product (alphabet : PyStr) (length : ℕ) :
    (product alphabet length).length = alphabet.length ^ length := by
  induction length with
  | zero => rfl
  | succ length ih =>
    simp only [product, List.length_flatMap, List.length_map, List.map_const', List.sum_replicate, ih, pow_succ]
    rfl

lemma nodup_product {alphabet : PyStr} (h : alphabet.Nodup) (length : ℕ) :
    (product alphabet length).Nodup := by
  induction length with
  | zero => exact List.nodup_singleton _
  | succ length ih =>
    rw [product, List.nodup_flatMap]
    constructor
    · intro combo _
      exact h.map (fun a b hab => List.singleton_injective (List.append_cancel_left hab))
    · refine ih.imp (fun {combo combo'} hne => ?_)
      rw [Function.onFun, List.disjoint_left]
      intro s hs hs'
      obtain ⟨letter, -, rfl⟩ := List.mem_map.mp hs
      obtain ⟨letter', -, heq⟩ := List.mem_map.mp hs'
      exact hne (List.append_inj_left' heq.symm rfl)

/-! ### Words up to a length -/

lemma mem_baseInputs {n : ℕ} {alphabet s : PyStr} : s ∈ baseInputs n alphabet ↔ WordUpTo n alphabet s := by
  simp only [baseInputs, List.mem_cons, List.mem_flatMap, List.mem_range'_1, mem_product, WordUpTo]
  constructor
  · rintro (rfl | ⟨length, hlength, rfl, hs⟩)
    · exact ⟨Nat.zero_le n, fun c hc => absurd hc List.not_mem_nil⟩
    · exact ⟨by omega, hs⟩
  · rintro ⟨hlength, hs⟩
    rcases s.eq_nil_or_concat with rfl | ⟨init, c, rfl⟩
    · exact .inl rfl
    · refine .inr ⟨_, ?_, rfl, hs⟩
      rw [List.concat_eq_append, List.length_append, List.length_singleton] at hlength ⊢
      omega

lemma length_baseInputs (n : ℕ) (alphabet : PyStr) :
    (baseInputs n alphabet).length = ∑ length ∈ Finset.range (n + 1), alphabet.length ^ length := by
  induction n with
  | zero => rfl
  | succ n ih =>
    rw [Finset.sum_range_succ, ← ih]
    simp only [baseInputs, List.range'_1_concat, List.flatMap_append, List.length_cons, List.length_append,
      List.flatMap_singleton, length_product]
    rw [Nat.add_right_comm, Nat.add_comm 1 n]

lemma nodup_baseInputs (n : ℕ) {alphabet : PyStr} (h : alphabet.Nodup) : (baseInputs n alphabet).Nodup := by
  rw [baseInputs, List.nodup_cons]
  constructor
  · intro hnil
    obtain ⟨length, hlength, hmem⟩ := List.mem_flatMap.mp hnil
    have hzero := (mem_product.mp hmem).1
    rw [List.length_nil] at hzero
    rw [List.mem_range'_1] at hlength
    omega
  · rw [List.nodup_flatMap]
    refine ⟨fun length _ => nodup_product h length, (List.nodup_range').imp (fun {i j} hne => ?_)⟩
    rw [Function.onFun, List.disjoint_left]
    intro s hs hs'
    exact hne ((mem_product.mp hs).1.symm.trans (mem_product.mp hs').1)

/-! ### The count -/

lemma length_baseInputs_le (n : ℕ) (alphabet : PyStr) :
    (baseInputs n alphabet).length ≤ countInputs n alphabet [] ∧
      (alphabet ≠ [] → (baseInputs n alphabet).length = countInputs n alphabet []) := by
  rw [length_baseInputs]
  simp only [countInputs, if_true]
  rcases Nat.lt_or_ge 1 alphabet.length with hmany | hfew
  · rw [if_pos hmany, Nat.geomSum_eq hmany]
    exact ⟨le_rfl, fun _ => rfl⟩
  · rw [if_neg (Nat.not_lt.mpr hfew)]
    rcases Nat.le_one_iff_eq_zero_or_eq_one.mp hfew with hzero | hone
    · rw [hzero, Finset.sum_range_succ', Finset.sum_eq_zero (fun k _ => zero_pow (Nat.succ_ne_zero k))]
      exact ⟨by omega, fun hne => absurd (List.length_eq_zero_iff.mp hzero) hne⟩
    · rw [hone, Finset.sum_congr rfl (fun k _ => one_pow k), Finset.sum_const, Finset.card_range]
      simp

/-- The list before it is sorted. -/
def inputs (n : ℕ) (alphabet extra : PyStr) : List PyStr :=
  if extra ≠ [] then baseInputs n alphabet ++ (baseInputs n alphabet).map (fun text => text ++ extra)
  else baseInputs n alphabet

lemma mem_inputs {n : ℕ} {alphabet extra s : PyStr} :
    s ∈ inputs n alphabet extra ↔
      WordUpTo n alphabet s ∨ extra ≠ [] ∧ ∃ w, WordUpTo n alphabet w ∧ s = w ++ extra := by
  unfold inputs
  by_cases h : extra ≠ []
  · simp [h, mem_baseInputs, eq_comm]
  · simp [h, mem_baseInputs]

lemma countInputs_extra (n : ℕ) (alphabet : PyStr) {extra : PyStr} (h : extra ≠ []) :
    countInputs n alphabet extra = countInputs n alphabet [] + countInputs n alphabet [] := by
  simp only [countInputs, h, if_true, if_false]
  omega

lemma length_inputs_le (n : ℕ) (alphabet extra : PyStr) :
    (inputs n alphabet extra).length ≤ countInputs n alphabet extra ∧
      (alphabet ≠ [] → (inputs n alphabet extra).length = countInputs n alphabet extra) := by
  have hbase := length_baseInputs_le n alphabet
  unfold inputs
  by_cases h : extra = []
  · rw [if_neg (not_not.mpr h), h]
    exact hbase
  · rw [if_pos h, List.length_append, List.length_map, countInputs_extra n alphabet h]
    exact ⟨Nat.add_le_add hbase.1 hbase.1, fun hne => by rw [hbase.2 hne]⟩

lemma nodup_inputs (n : ℕ) {alphabet extra : PyStr} (hletters : alphabet.Nodup)
    (hextra : extra = [] ∨ ∃ c ∈ extra, c ∉ alphabet) : (inputs n alphabet extra).Nodup := by
  have hbase := nodup_baseInputs n hletters
  unfold inputs
  rcases hextra with hnone | ⟨c, hc, hout⟩
  · rw [if_neg (not_not.mpr hnone)]
    exact hbase
  · rw [if_pos (List.ne_nil_of_mem hc), List.nodup_append]
    refine ⟨hbase, hbase.map (fun _ _ => List.append_cancel_right), ?_⟩
    rintro s hs t ht rfl
    obtain ⟨w, -, rfl⟩ := List.mem_map.mp ht
    exact hout ((mem_baseInputs.mp hs).2 c (List.mem_append_right w hc))

/-! ### The sorted list -/

/-- Shorter texts first, texts of one length in lexicographic order. -/
def Shorter (s t : PyStr) : Prop := s.length < t.length ∨ s.length = t.length ∧ s < t

lemma inputKey_lt {s t : PyStr} : inputKey s < inputKey t ↔ Shorter s t := by
  rw [inputKey, inputKey, Prod.Lex.toLex_lt_toLex]
  rfl

lemma inputKey_injective : Function.Injective inputKey :=
  fun _ _ h => congrArg (fun key => (ofLex key).2) h

lemma enumerateInputs_perm (n : ℕ) (alphabet extra : PyStr) :
    (enumerateInputs n alphabet extra).Perm (inputs n alphabet extra).dedup :=
  List.perm_insertionSort _ _

lemma enumerateInputs_nodup (n : ℕ) (alphabet extra : PyStr) : (enumerateInputs n alphabet extra).Nodup :=
  (enumerateInputs_perm n alphabet extra).nodup_iff.mpr (List.nodup_dedup _)

instance : Std.Total (fun s t : PyStr => inputKey s ≤ inputKey t) :=
  ⟨fun s t => le_total (inputKey s) (inputKey t)⟩

instance : IsTrans PyStr (fun s t => inputKey s ≤ inputKey t) :=
  ⟨fun _ _ _ => le_trans⟩

lemma enumerateInputs_sorted (n : ℕ) (alphabet extra : PyStr) :
    (enumerateInputs n alphabet extra).Pairwise Shorter := by
  have hle : (enumerateInputs n alphabet extra).Pairwise (fun s t => inputKey s ≤ inputKey t) :=
    List.pairwise_insertionSort _ _
  refine hle.imp₂ (fun s t hkey hne => ?_) (enumerateInputs_nodup n alphabet extra)
  exact inputKey_lt.mp (lt_of_le_of_ne hkey (fun h => hne (inputKey_injective h)))

/-- The enumerated inputs: without repetition, sorted, the words and the words before `extra`, and as
many as counted when no two of them coincide. -/
theorem enumerateInputs_spec (n : ℕ) (alphabet extra : PyStr) :
    (enumerateInputs n alphabet extra).Nodup ∧
    (enumerateInputs n alphabet extra).Pairwise Shorter ∧
    (∀ s, s ∈ enumerateInputs n alphabet extra ↔
      WordUpTo n alphabet s ∨ extra ≠ [] ∧ ∃ w, WordUpTo n alphabet w ∧ s = w ++ extra) ∧
    (enumerateInputs n alphabet extra).length ≤ countInputs n alphabet extra ∧
    (alphabet ≠ [] → alphabet.Nodup → (extra = [] ∨ ∃ c ∈ extra, c ∉ alphabet) →
      (enumerateInputs n alphabet extra).length = countInputs n alphabet extra) := by
  have hperm := enumerateInputs_perm n alphabet extra
  have hcount := length_inputs_le n alphabet extra
  refine ⟨enumerateInputs_nodup n alphabet extra, enumerateInputs_sorted n alphabet extra, ?_, ?_, ?_⟩
  · intro s
    rw [hperm.mem_iff, List.mem_dedup, mem_inputs]
  · calc (enumerateInputs n alphabet extra).length
        = (inputs n alphabet extra).dedup.length := hperm.length_eq
      _ ≤ (inputs n alphabet extra).length := (List.dedup_sublist _).length_le
      _ ≤ countInputs n alphabet extra := hcount.1
  · intro hne hletters hextra
    rw [hperm.length_eq, (nodup_inputs n hletters hextra).dedup, hcount.2 hne]

end SciForge.Corpus
