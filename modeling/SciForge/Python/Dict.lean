import Mathlib.Data.List.Basic
import Mathlib.Data.List.Nodup

/-!
# Python dicts

An insertion-ordered association list whose `set` replaces the value of a key in place.
-/

namespace SciForge

/-- A `dict` as the list of its items, oldest key first. -/
abbrev Dict (κ ν : Type) := List (κ × ν)

namespace Dict

variable {κ ν : Type} [DecidableEq κ]

def get (d : Dict κ ν) (k : κ) : Option ν :=
  match d with
  | [] => none
  | (k', v) :: rest => if k' = k then some v else get rest k

/-- `d[k] = v`. -/
def set (d : Dict κ ν) (k : κ) (v : ν) : Dict κ ν :=
  match d with
  | [] => [(k, v)]
  | (k', v') :: rest => if k' = k then (k, v) :: rest else (k', v') :: set rest k v

def keys (d : Dict κ ν) : List κ := d.map Prod.fst

lemma get_set_self (d : Dict κ ν) (k : κ) (v : ν) : (d.set k v).get k = some v := by
  induction d with
  | nil => simp [set, get]
  | cons p rest ih =>
    rcases p with ⟨k', v'⟩
    by_cases h : k' = k
    · simp [set, get, h]
    · simp [set, get, h, ih]

lemma get_set_of_ne (d : Dict κ ν) {k k' : κ} (hk : k' ≠ k) (v : ν) : (d.set k' v).get k = d.get k := by
  induction d with
  | nil => simp [set, get, hk]
  | cons p rest ih =>
    rcases p with ⟨k'', v''⟩
    by_cases h : k'' = k'
    · subst h
      simp [set, get, hk]
    · by_cases h' : k'' = k
      · subst h'
        simp [set, get, h]
      · simp [set, get, h, h', ih]

lemma mem_of_get {d : Dict κ ν} {k : κ} {v : ν} (h : d.get k = some v) : (k, v) ∈ d := by
  induction d with
  | nil => cases h
  | cons item rest ih =>
    unfold get at h
    split at h
    · next hk =>
      obtain rfl := Option.some.inj h
      rw [← hk]
      exact List.mem_cons_self
    · exact List.mem_cons_of_mem _ (ih h)

lemma get_of_mem {d : Dict κ ν} (hnodup : d.keys.Nodup) {item : κ × ν} (h : item ∈ d) :
    d.get item.1 = some item.2 := by
  induction d with
  | nil => cases h
  | cons first rest ih =>
    obtain ⟨hnew, hrest⟩ := List.nodup_cons.mp hnodup
    rw [get]
    rcases List.mem_cons.mp h with rfl | h
    · exact if_pos rfl
    · have hne : first.1 ≠ item.1 := fun hk => hnew (hk ▸ List.mem_map_of_mem h)
      rw [if_neg hne, ih hrest h]

lemma get_set_cases {d : Dict κ ν} {k k' : κ} {v x : ν} (h : (d.set k v).get k' = some x) :
    (k = k' ∧ x = v) ∨ d.get k' = some x := by
  by_cases he : k = k'
  · rw [← he, get_set_self] at h
    exact .inl ⟨he, (Option.some.inj h).symm⟩
  · rw [get_set_of_ne _ he] at h
    exact .inr h

lemma keys_set_of_mem {d : Dict κ ν} {k : κ} (hk : k ∈ d.keys) (v : ν) : (d.set k v).keys = d.keys := by
  induction d with
  | nil => simp [keys] at hk
  | cons p rest ih =>
    rcases p with ⟨k', v'⟩
    by_cases h : k' = k
    · simp [set, keys, h]
    · have hrest : k ∈ Dict.keys rest := by
        simp only [keys, List.map_cons, List.mem_cons] at hk
        exact hk.resolve_left (fun he => h he.symm)
      have hi := ih hrest
      simp only [keys] at hi
      simp [set, keys, h, hi]

/-! ### Updates -/

/-- `d.update(items)`, also `{**d, **items}`. -/
def update (d : Dict κ ν) (items : List (κ × ν)) : Dict κ ν := items.foldl (fun d item => d.set item.1 item.2) d

@[simp] lemma update_nil (d : Dict κ ν) : d.update [] = d := rfl

@[simp] lemma update_cons (d : Dict κ ν) (item : κ × ν) (items : List (κ × ν)) :
    d.update (item :: items) = (d.set item.1 item.2).update items := rfl

lemma get_update_of_not_mem (d : Dict κ ν) {items : List (κ × ν)} {k : κ} (hk : k ∉ Dict.keys items) :
    (d.update items).get k = d.get k := by
  induction items generalizing d with
  | nil => rfl
  | cons item items ih =>
    rcases item with ⟨k', v⟩
    simp only [keys, List.map_cons, List.mem_cons, not_or] at hk
    rw [update_cons, ih _ hk.2, get_set_of_ne _ (fun he => hk.1 he.symm)]

lemma get_eq_none {d : Dict κ ν} {k : κ} : d.get k = none ↔ k ∉ d.keys := by
  induction d with
  | nil => simp [get, keys]
  | cons p rest ih =>
    rcases p with ⟨k', v⟩
    by_cases h : k' = k
    · simp [get, keys, h]
    · simp only [keys] at ih
      simp [get, keys, h, ih, Ne.symm h]

lemma get_update {d items : Dict κ ν} (hnodup : items.keys.Nodup) (k : κ) :
    (d.update items).get k = (items.get k).or (d.get k) := by
  induction items generalizing d with
  | nil => rfl
  | cons item items ih =>
    rcases item with ⟨k', v⟩
    simp only [keys, List.map_cons, List.nodup_cons] at hnodup
    rw [update_cons]
    by_cases h : k' = k
    · subst h
      rw [get_update_of_not_mem _ hnodup.1, get_set_self]
      simp [get]
    · rw [ih hnodup.2, get_set_of_ne _ h]
      simp [get, h]

lemma set_of_not_mem {d : Dict κ ν} {k : κ} (hk : k ∉ d.keys) (v : ν) : d.set k v = d ++ [(k, v)] := by
  induction d with
  | nil => rfl
  | cons p rest ih =>
    rcases p with ⟨k', v'⟩
    simp only [keys, List.map_cons, List.mem_cons, not_or] at hk
    rw [set, if_neg (fun h => hk.1 h.symm), ih hk.2]
    rfl

lemma mem_keys_set {d : Dict κ ν} {k k' : κ} {v : ν} : k ∈ (d.set k' v).keys ↔ k = k' ∨ k ∈ d.keys := by
  by_cases hk' : k' ∈ d.keys
  · rw [keys_set_of_mem hk']
    constructor
    · exact .inr
    · rintro (rfl | hk)
      · exact hk'
      · exact hk
  · rw [set_of_not_mem hk']
    simp [keys, or_comm]

lemma mem_keys_of_update {d : Dict κ ν} {items : List (κ × ν)} {k : κ} (h : k ∈ (d.update items).keys) :
    k ∈ d.keys ∨ k ∈ Dict.keys items := by
  induction items generalizing d with
  | nil => exact .inl h
  | cons item items ih =>
    rcases ih h with hk | hk
    · rcases mem_keys_set.mp hk with rfl | hk
      · exact .inr List.mem_cons_self
      · exact .inl hk
    · exact .inr (List.mem_cons_of_mem _ hk)

lemma keys_set_nodup {d : Dict κ ν} (hd : d.keys.Nodup) (k : κ) (v : ν) : (d.set k v).keys.Nodup := by
  by_cases hk : k ∈ d.keys
  · rwa [keys_set_of_mem hk]
  · rw [set_of_not_mem hk]
    simp only [keys, List.map_append, List.map_cons, List.map_nil]
    exact hd.append (List.nodup_singleton k) (fun x hx hx' => hk (List.mem_singleton.mp hx' ▸ hx))

lemma keys_update_nodup {d : Dict κ ν} (hd : d.keys.Nodup) (items : List (κ × ν)) : (d.update items).keys.Nodup := by
  induction items generalizing d with
  | nil => exact hd
  | cons item items ih => exact ih (keys_set_nodup hd item.1 item.2)

lemma mem_of_mem_set {d : Dict κ ν} {k : κ} {v : ν} {item : κ × ν} (h : item ∈ d.set k v) :
    item = (k, v) ∨ item ∈ d := by
  induction d with
  | nil => exact .inl (List.mem_singleton.mp h)
  | cons first rest ih =>
    rcases first with ⟨k', v'⟩
    unfold set at h
    split at h
    · exact (List.mem_cons.mp h).imp id (List.mem_cons_of_mem _)
    · rcases List.mem_cons.mp h with rfl | h
      · exact .inr List.mem_cons_self
      · exact (ih h).imp id (List.mem_cons_of_mem _)

lemma mem_of_mem_update {d : Dict κ ν} {items : List (κ × ν)} {item : κ × ν} (h : item ∈ d.update items) :
    item ∈ d ∨ item ∈ items := by
  induction items generalizing d with
  | nil => exact .inl h
  | cons first rest ih =>
    rw [update_cons] at h
    rcases ih h with hset | hrest
    · rcases mem_of_mem_set hset with rfl | hd
      · exact .inr List.mem_cons_self
      · exact .inl hd
    · exact .inr (List.mem_cons_of_mem _ hrest)

lemma update_of_disjoint {d items : Dict κ ν} (hnodup : items.keys.Nodup) (hnew : ∀ k ∈ items.keys, k ∉ d.keys) :
    d.update items = d ++ items := by
  induction items generalizing d with
  | nil => exact (List.append_nil d).symm
  | cons item items ih =>
    rcases item with ⟨k, v⟩
    simp only [keys, List.map_cons, List.nodup_cons] at hnodup
    have hk : k ∉ d.keys := hnew k (by simp [keys])
    have hrest : ∀ k' ∈ Dict.keys items, k' ∉ (d ++ [(k, v)] : Dict κ ν).keys := by
      intro k' hk' hmem
      simp only [keys, List.map_append, List.map_cons, List.map_nil, List.mem_append, List.mem_singleton] at hmem
      rcases hmem with hmem | rfl
      · exact hnew k' (List.mem_cons_of_mem _ hk') hmem
      · exact hnodup.1 hk'
    rw [update_cons, set_of_not_mem hk, ih hnodup.2 hrest, List.append_assoc]
    rfl

lemma set_set (d : Dict κ ν) (k : κ) (v v' : ν) : (d.set k v).set k v' = d.set k v' := by
  induction d with
  | nil => simp [set]
  | cons p rest ih =>
    rcases p with ⟨k', v''⟩
    by_cases h : k' = k
    · simp [set, h]
    · simp [set, h, ih]

lemma set_comm {d : Dict κ ν} {k k' : κ} (hk : k ∈ d.keys) (hne : k ≠ k') (v v' : ν) :
    (d.set k' v').set k v = (d.set k v).set k' v' := by
  induction d with
  | nil => simp [keys] at hk
  | cons p rest ih =>
    rcases p with ⟨k'', v''⟩
    by_cases h : k'' = k
    · subst h
      simp [set, hne]
    · have hrest : k ∈ Dict.keys rest := by
        simp only [keys, List.map_cons, List.mem_cons] at hk
        exact hk.resolve_left (fun he => h he.symm)
      by_cases h' : k'' = k'
      · subst h'
        simp [set, h]
      · simp [set, h, h', ih hrest]

lemma set_update {d items : Dict κ ν} {k : κ} (hk : k ∈ d.keys) (hitems : k ∉ items.keys) (v : ν) :
    (d.update items).set k v = (d.set k v).update items := by
  induction items generalizing d with
  | nil => rfl
  | cons item items ih =>
    rcases item with ⟨k', v'⟩
    simp only [keys, List.map_cons, List.mem_cons, not_or] at hitems
    rw [update_cons, update_cons, ih (mem_keys_set.mpr (.inr hk)) hitems.2, set_comm hk hitems.1]

lemma update_set {d items : Dict κ ν} (hitems : items.keys.Nodup) (k : κ) (v : ν) :
    (d.update items).set k v = d.update (items.set k v) := by
  induction items generalizing d with
  | nil => rfl
  | cons item items ih =>
    rcases item with ⟨k', v'⟩
    simp only [keys, List.map_cons, List.nodup_cons] at hitems
    by_cases h : k' = k
    · subst h
      have hmem : k' ∈ (d.set k' v').keys := mem_keys_set.mpr (.inl rfl)
      rw [update_cons, set_update hmem hitems.1, set_set, set, if_pos rfl, update_cons]
    · rw [update_cons, ih hitems.2, set, if_neg h, update_cons]

lemma update_update (d : Dict κ ν) {items : Dict κ ν} (hitems : items.keys.Nodup) (more : List (κ × ν)) :
    (d.update items).update more = d.update (items.update more) := by
  induction more generalizing items with
  | nil => rfl
  | cons item more ih => rw [update_cons, update_cons, update_set hitems, ih (keys_set_nodup hitems _ _)]

/-! ### Lengths -/

lemma length_set (d : Dict κ ν) (k : κ) (v : ν) :
    (d.set k v).length = if k ∈ d.keys then d.length else d.length + 1 := by
  by_cases hk : k ∈ d.keys
  · have hkeys := congrArg List.length (keys_set_of_mem hk v)
    simp only [keys, List.length_map] at hkeys
    rw [if_pos hk, hkeys]
  · rw [if_neg hk, set_of_not_mem hk, List.length_append]
    rfl

lemma length_update_le (d : Dict κ ν) (items : List (κ × ν)) : (d.update items).length ≤ d.length + items.length := by
  induction items generalizing d with
  | nil => exact Nat.le_refl _
  | cons item items ih =>
    have hrest := ih (d.set item.1 item.2)
    have hset := length_set d item.1 item.2
    rw [update_cons, List.length_cons]
    split_ifs at hset <;> omega

lemma keys_of_length_update {d : Dict κ ν} {items : List (κ × ν)}
    (h : (d.update items).length = d.length + items.length) :
    (Dict.keys items).Nodup ∧ ∀ k ∈ Dict.keys items, k ∉ d.keys := by
  induction items generalizing d with
  | nil => exact ⟨List.nodup_nil, fun k hk => nomatch hk⟩
  | cons item items ih =>
    rcases item with ⟨k, v⟩
    simp only [update_cons, List.length_cons] at h
    have hle := length_update_le (d.set k v) items
    have hset := length_set d k v
    by_cases hk : k ∈ d.keys
    · rw [if_pos hk] at hset
      omega
    · rw [if_neg hk] at hset
      have hlength : ((d.set k v).update items).length = (d.set k v).length + items.length := by omega
      obtain ⟨hnodup, hnew⟩ := ih hlength
      have hmem : k ∈ (d.set k v).keys := mem_keys_set.mpr (.inl rfl)
      refine ⟨List.nodup_cons.mpr ⟨fun h => hnew k h hmem, hnodup⟩, ?_⟩
      intro k' hk'
      rcases List.mem_cons.mp hk' with rfl | hk'
      · exact hk
      · exact fun h => hnew k' hk' (mem_keys_set.mpr (.inr h))

end Dict

end SciForge
