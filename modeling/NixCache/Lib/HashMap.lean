import Mathlib.Data.List.AList
import Mathlib.Data.List.Induction
import Mathlib.Logic.Function.Basic
/-!
# Hash maps

A `HashMap` value is an association list with distinct keys: the list is the order in which the map
iterates, which the program never chooses.  Two maps are equal as maps when they answer every
lookup alike, whatever their order.
-/

namespace NixCache.Lib

/-- `std::collections::HashMap`. -/
abbrev HashMap (κ ν : Type) := AList (fun _ : κ => ν)

namespace HashMap

variable {κ ν : Type}

/-- `iter()`, in iteration order. -/
def toList (m : HashMap κ ν) : List (κ × ν) := m.entries.map fun e => (e.1, e.2)

/-- `values()`. -/
def values (m : HashMap κ ν) : List ν := m.entries.map fun e => e.2

/-- `len()`. -/
def size (m : HashMap κ ν) : Nat := m.entries.length

/-- The entries whose key satisfies `p`. -/
def filter (p : κ → Bool) (m : HashMap κ ν) : HashMap κ ν :=
  ⟨m.entries.filter fun e => p e.1, List.NodupKeys.sublist List.filter_sublist m.nodupKeys⟩

/-- The same map with every value replaced. -/
def mapValues {μ : Type} (f : κ → ν → μ) (m : HashMap κ ν) : HashMap κ μ :=
  ⟨m.entries.map fun e => ⟨e.1, f e.1 e.2⟩, by
    have h := m.nodupKeys
    unfold List.NodupKeys List.keys at h ⊢
    rwa [List.map_map]⟩

@[simp] theorem length_keys (m : HashMap κ ν) : m.keys.length = m.size := by
  simp [AList.keys, List.keys, size]

theorem map_fst_toList (m : HashMap κ ν) : m.toList.map Prod.fst = m.keys := by
  simp [toList, AList.keys, List.keys, List.map_map, Function.comp_def]

section Lookup

variable [DecidableEq κ]

/-- `extend`: the entries of `n` replace those of `m`. -/
def extend (m n : HashMap κ ν) : HashMap κ ν := n ∪ m

/-- `collect()` from pairs: a later pair replaces an earlier one with its key. -/
def ofList : List (κ × ν) → HashMap κ ν
  | [] => ∅
  | pair :: rest =>
      let m := ofList rest
      if pair.1 ∈ m then m else m.insert pair.1 pair.2

theorem mem_entries_iff {m : HashMap κ ν} {k : κ} {v : ν} :
    (⟨k, v⟩ : Σ _ : κ, ν) ∈ m.entries ↔ m.lookup k = some v :=
  AList.mem_lookup_iff.symm

theorem mem_toList_iff {m : HashMap κ ν} {k : κ} {v : ν} :
    (k, v) ∈ m.toList ↔ m.lookup k = some v := by
  rw [← mem_entries_iff, toList, List.mem_map]
  constructor
  · rintro ⟨⟨k', v'⟩, hmem, heq⟩
    simp only [Prod.mk.injEq] at heq
    obtain ⟨rfl, rfl⟩ := heq
    exact hmem
  · intro hmem
    exact ⟨⟨k, v⟩, hmem, rfl⟩

theorem mem_values_iff {m : HashMap κ ν} {v : ν} :
    v ∈ m.values ↔ ∃ k, m.lookup k = some v := by
  rw [values, List.mem_map]
  constructor
  · rintro ⟨⟨k, v'⟩, hmem, rfl⟩
    exact ⟨k, mem_entries_iff.mp hmem⟩
  · rintro ⟨k, hk⟩
    exact ⟨⟨k, v⟩, mem_entries_iff.mpr hk, rfl⟩

theorem mem_iff_lookup {m : HashMap κ ν} {k : κ} : k ∈ m ↔ ∃ v, m.lookup k = some v := by
  rw [← AList.lookup_isSome, Option.isSome_iff_exists]

theorem lookup_filter (p : κ → Bool) (m : HashMap κ ν) (k : κ) :
    (m.filter p).lookup k = if p k then m.lookup k else none := by
  apply Option.ext
  intro v
  rw [← mem_entries_iff, filter, List.mem_filter, mem_entries_iff]
  split <;> rename_i hp <;> simp [hp]

theorem lookup_filter_eq_some {p : κ → Bool} {m : HashMap κ ν} {k : κ} {v : ν} :
    (m.filter p).lookup k = some v ↔ m.lookup k = some v ∧ p k = true := by
  rw [lookup_filter]
  split <;> rename_i hp <;> simp [hp]

theorem mem_filter {p : κ → Bool} {m : HashMap κ ν} {k : κ} :
    k ∈ m.filter p ↔ k ∈ m ∧ p k = true := by
  rw [mem_iff_lookup, mem_iff_lookup, lookup_filter]
  split <;> rename_i hp <;> simp [hp]

theorem lookup_extend (m n : HashMap κ ν) (k : κ) :
    (m.extend n).lookup k = (n.lookup k).or (m.lookup k) := by
  by_cases hk : k ∈ n
  · obtain ⟨v, hv⟩ := mem_iff_lookup.mp hk
    rw [extend, AList.lookup_union_left hk, hv, Option.some_or]
  · rw [extend, AList.lookup_union_right hk, AList.lookup_eq_none.mpr hk, Option.none_or]

theorem lookup_insert_eq (m : HashMap κ ν) (k k' : κ) (v : ν) :
    (m.insert k v).lookup k' = if k' = k then some v else m.lookup k' := by
  split
  · rename_i h
    subst h
    exact AList.lookup_insert m
  · rename_i h
    exact AList.lookup_insert_ne h

theorem lookup_erase_eq (m : HashMap κ ν) (k k' : κ) :
    (m.erase k).lookup k' = if k' = k then none else m.lookup k' := by
  split
  · rename_i h
    subst h
    exact AList.lookup_erase k' m
  · rename_i h
    exact AList.lookup_erase_ne h

/-- Maps that answer every lookup alike hold the same pairs, in some order. -/
theorem entries_perm_of_lookup_eq {m n : HashMap κ ν} (h : ∀ k, m.lookup k = n.lookup k) :
    m.entries.Perm n.entries := by
  rw [List.perm_ext_iff_of_nodup m.nodupKeys.nodup n.nodupKeys.nodup]
  rintro ⟨k, v⟩
  rw [mem_entries_iff, mem_entries_iff, h k]

theorem size_eq_of_lookup_eq {m n : HashMap κ ν} (h : ∀ k, m.lookup k = n.lookup k) :
    m.size = n.size :=
  (entries_perm_of_lookup_eq h).length_eq

theorem keys_perm_of_lookup_eq {m n : HashMap κ ν} (h : ∀ k, m.lookup k = n.lookup k) :
    m.keys.Perm n.keys :=
  (entries_perm_of_lookup_eq h).map _

theorem mem_ofList {pairs : List (κ × ν)} {k : κ} :
    k ∈ ofList pairs ↔ k ∈ pairs.map Prod.fst := by
  induction pairs with
  | nil => simp [ofList]
  | cons pair rest ih =>
      unfold ofList
      by_cases hmem : pair.1 ∈ ofList rest
      · rw [if_pos hmem, ih, List.map_cons, List.mem_cons]
        constructor
        · exact Or.inr
        · rintro (rfl | h)
          · exact ih.mp hmem
          · exact h
      · rw [if_neg hmem, AList.mem_insert, ih, List.map_cons, List.mem_cons]

theorem mem_of_lookup_ofList {pairs : List (κ × ν)} {k : κ} {v : ν}
    (h : (ofList pairs).lookup k = some v) : (k, v) ∈ pairs := by
  induction pairs with
  | nil => simp [ofList] at h
  | cons pair rest ih =>
      unfold ofList at h
      by_cases hmem : pair.1 ∈ ofList rest
      · rw [if_pos hmem] at h
        exact List.mem_cons_of_mem pair (ih h)
      · rw [if_neg hmem, lookup_insert_eq] at h
        by_cases hk : k = pair.1
        · rw [if_pos hk] at h
          rw [hk, ← Option.some.inj h]
          exact List.mem_cons_self
        · rw [if_neg hk] at h
          exact List.mem_cons_of_mem pair (ih h)

/-- Looking up a collected list of pairs with distinct keys. -/
theorem lookup_ofList {pairs : List (κ × ν)} (hnodup : (pairs.map Prod.fst).Nodup) {k : κ} {v : ν} :
    (ofList pairs).lookup k = some v ↔ (k, v) ∈ pairs := by
  induction pairs with
  | nil => simp [ofList]
  | cons pair rest ih =>
      rw [List.map_cons, List.nodup_cons] at hnodup
      have hnot : pair.1 ∉ ofList rest := fun h => hnodup.1 (mem_ofList.mp h)
      unfold ofList
      rw [if_neg hnot, lookup_insert_eq, List.mem_cons]
      by_cases hk : k = pair.1
      · subst hk
        have habsent : (pair.1, v) ∉ rest := fun h => hnodup.1 (List.mem_map.mpr ⟨_, h, rfl⟩)
        simp [habsent, Prod.ext_iff, eq_comm]
      · simp [hk, ih hnodup.2, Prod.ext_iff]

/-- Pairs with distinct keys are kept in their order. -/
theorem toList_ofList {pairs : List (κ × ν)} (hnodup : (pairs.map Prod.fst).Nodup) :
    (ofList pairs).toList = pairs := by
  induction pairs with
  | nil => rfl
  | cons pair rest ih =>
      rw [List.map_cons, List.nodup_cons] at hnodup
      have hnot : pair.1 ∉ ofList rest := fun h => hnodup.1 (mem_ofList.mp h)
      unfold ofList
      rw [if_neg hnot, toList, AList.entries_insert_of_notMem hnot, List.map_cons]
      congr 1
      exact ih hnodup.2

/-- A map is collected again from its pairs. -/
theorem ofList_toList (m : HashMap κ ν) : ofList m.toList = m := by
  have hnodup : (m.toList.map Prod.fst).Nodup := by
    rw [map_fst_toList]
    exact m.nodupKeys
  have hlist := toList_ofList hnodup
  apply AList.ext
  have hinj : Function.Injective fun e : (Σ _ : κ, ν) => (e.1, e.2) := by
    rintro ⟨a, b⟩ ⟨c, d⟩ h
    simp only [Prod.mk.injEq] at h
    rw [h.1, h.2]
  exact hinj.list_map hlist

/-- Writing the pairs of a map one by one over what was there. -/
theorem foldl_update (m : HashMap κ ν) (f : κ → Option ν) :
    m.toList.foldl (fun (g : κ → Option ν) pair => Function.update g pair.1 (some pair.2)) f =
      fun k => (m.lookup k).or (f k) := by
  suffices hgen : ∀ (pairs : List (κ × ν)) (f : κ → Option ν), (pairs.map Prod.fst).Nodup →
      pairs.foldl (fun (g : κ → Option ν) pair => Function.update g pair.1 (some pair.2)) f =
        fun k => ((ofList pairs).lookup k).or (f k) by
    have hnodup : (m.toList.map Prod.fst).Nodup := by
      rw [map_fst_toList]
      exact m.nodupKeys
    rw [hgen m.toList f hnodup, ofList_toList]
  intro pairs
  induction pairs with
  | nil =>
      intro f _
      rfl
  | cons pair rest ih =>
      intro f hnodup
      rw [List.map_cons, List.nodup_cons] at hnodup
      have hnot : pair.1 ∉ ofList rest := fun h => hnodup.1 (mem_ofList.mp h)
      rw [List.foldl_cons, ih _ hnodup.2, ofList, if_neg hnot]
      funext k
      rw [lookup_insert_eq]
      by_cases hk : k = pair.1
      · rw [hk, AList.lookup_eq_none.mpr hnot, Function.update_self, if_pos rfl]
        rfl
      · rw [if_neg hk, Function.update_of_ne hk]

theorem lookup_mapValues {μ : Type} (f : κ → ν → μ) (m : HashMap κ ν) (k : κ) :
    (m.mapValues f).lookup k = (m.lookup k).map (f k) := by
  apply Option.ext
  intro v
  rw [← mem_entries_iff, mapValues, List.mem_map]
  constructor
  · rintro ⟨⟨k', v'⟩, hmem, heq⟩
    cases heq
    rw [mem_entries_iff.mp hmem, Option.map_some]
  · intro h
    obtain ⟨w, hw, rfl⟩ := Option.map_eq_some_iff.mp h
    exact ⟨⟨k, w⟩, mem_entries_iff.mpr hw, rfl⟩

end Lookup

end HashMap

end NixCache.Lib
