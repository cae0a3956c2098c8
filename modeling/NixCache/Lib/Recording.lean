import NixCache.Lib.HashMap
/-!
# Maps that keep the first value of a key

`entry(key).or_insert(value)`, and what a map has recorded after a sequence of such insertions: at
least one value for every key that was offered, and only values that were offered.
-/

namespace NixCache.Lib.HashMap

variable {κ ν : Type} [DecidableEq κ]

/-- `entry(key).or_insert(value)`. -/
def orInsert (m : HashMap κ ν) (key : κ) (value : ν) : HashMap κ ν :=
  if key ∈ m then m else m.insert key value

theorem size_insert_of_notMem {m : HashMap κ ν} {key : κ} {value : ν} (h : key ∉ m) :
    HashMap.size (m.insert key value) = m.size + 1 := by
  rw [size, AList.entries_insert_of_notMem h, List.length_cons, size]

theorem mem_orInsert {m : HashMap κ ν} {key k : κ} {value : ν} :
    k ∈ m.orInsert key value ↔ k = key ∨ k ∈ m := by
  unfold orInsert
  by_cases hmem : key ∈ m
  · rw [if_pos hmem]
    constructor
    · exact Or.inr
    · rintro (rfl | h)
      · exact hmem
      · exact h
  · rw [if_neg hmem, AList.mem_insert]

theorem lookup_orInsert_of_lookup {m : HashMap κ ν} {key k : κ} {value v : ν}
    (h : m.lookup k = some v) : (m.orInsert key value).lookup k = some v := by
  unfold orInsert
  by_cases hmem : key ∈ m
  · rw [if_pos hmem, h]
  · have hne : k ≠ key := by
      rintro rfl
      exact hmem (mem_iff_lookup.mpr ⟨v, h⟩)
    rw [if_neg hmem, AList.lookup_insert_ne hne, h]

theorem of_lookup_orInsert {m : HashMap κ ν} {key k : κ} {value v : ν}
    (h : (m.orInsert key value).lookup k = some v) :
    m.lookup k = some v ∨ k = key ∧ v = value := by
  unfold orInsert at h
  by_cases hmem : key ∈ m
  · rw [if_pos hmem] at h
    exact Or.inl h
  · rw [if_neg hmem] at h
    by_cases hkey : k = key
    · subst hkey
      rw [AList.lookup_insert, Option.some.injEq] at h
      exact Or.inr ⟨rfl, h.symm⟩
    · rw [AList.lookup_insert_ne hkey] at h
      exact Or.inl h

/-- Since `before`, exactly the values in `R` were offered to the map. -/
structure Records (R : κ → ν → Prop) (before after : HashMap κ ν) : Prop where
  kept : ∀ k v, before.lookup k = some v → after.lookup k = some v
  offered : ∀ k v, R k v → k ∈ after
  source : ∀ k v, after.lookup k = some v → before.lookup k = some v ∨ R k v

namespace Records

variable {R S : κ → ν → Prop} {first middle last : HashMap κ ν}

theorem refl (h : ∀ k v, R k v → k ∈ first) : Records R first first where
  kept _ _ hk := hk
  offered := h
  source _ _ hk := Or.inl hk

theorem mem (h : Records R first last) {k : κ} (hk : k ∈ first) : k ∈ last := by
  obtain ⟨v, hv⟩ := mem_iff_lookup.mp hk
  exact mem_iff_lookup.mpr ⟨v, h.kept k v hv⟩

theorem orInsert (m : HashMap κ ν) (key : κ) (value : ν) :
    Records (fun k v => k = key ∧ v = value) m (m.orInsert key value) where
  kept _ _ hk := lookup_orInsert_of_lookup hk
  offered _ _ hR := mem_orInsert.mpr (Or.inl hR.1)
  source _ _ hk := of_lookup_orInsert hk

theorem trans (h : Records R first middle) (h' : Records S middle last) :
    Records (fun k v => R k v ∨ S k v) first last where
  kept k v hk := h'.kept k v (h.kept k v hk)
  offered k v hRS := by
    rcases hRS with hR | hS
    · exact h'.mem (h.offered k v hR)
    · exact h'.offered k v hS
  source k v hk := by
    rcases h'.source k v hk with hmiddle | hS
    · exact (h.source k v hmiddle).imp_right Or.inl
    · exact Or.inr (Or.inr hS)

theorem congr (h : Records R first last) (hRS : ∀ k v, R k v ↔ S k v) : Records S first last where
  kept := h.kept
  offered k v hS := h.offered k v ((hRS k v).mpr hS)
  source k v hk := (h.source k v hk).imp_right (hRS k v).mp

/-- What is recorded since the empty map. -/
theorem mem_iff (h : Records R ∅ last) (k : κ) : k ∈ last ↔ ∃ v, R k v := by
  constructor
  · intro hk
    obtain ⟨v, hv⟩ := mem_iff_lookup.mp hk
    rcases h.source k v hv with hempty | hR
    · cases hempty
    · exact ⟨v, hR⟩
  · rintro ⟨v, hR⟩
    exact h.offered k v hR

end Records

end NixCache.Lib.HashMap
