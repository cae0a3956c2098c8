import NixCache.Lib.HashMap
/-!
# Maps in parts

A map whose entries are divided among parts by their key.  `partition` divides a map; a family of
parts in which every key stands in its own part is one map again.
-/

namespace NixCache.Lib

namespace HashMap

variable {κ ν ι : Type} [DecidableEq κ] [DecidableEq ι]

theorem size_eq_zero_iff {m : HashMap κ ν} : m.size = 0 ↔ ∀ k, m.lookup k = none := by
  constructor
  · intro h k
    have hentries : m.entries = [] := List.eq_nil_of_length_eq_zero h
    rw [AList.lookup, hentries]
    rfl
  · intro h
    exact (size_eq_of_lookup_eq (n := ∅) fun k => by rw [h k, AList.lookup_empty]).trans rfl

section

variable (place : κ → ι)

/-- `parts.entry(place(k)).or_default().insert(k, v)`. -/
def insertAt (parts : HashMap ι (HashMap κ ν)) (item : κ × ν) : HashMap ι (HashMap κ ν) :=
  parts.insert (place item.1) (((parts.lookup (place item.1)).getD ∅).insert item.1 item.2)

def partition (m : HashMap κ ν) : HashMap ι (HashMap κ ν) := m.toList.foldl (insertAt place) ∅

/-- The part of `m` at `i`. -/
def part (m : HashMap κ ν) (i : ι) : HashMap κ ν := ((partition place m).lookup i).getD ∅

theorem lookup_foldl_insertAt (items : List (κ × ν)) (parts : HashMap ι (HashMap κ ν))
    (hnodup : (items.map Prod.fst).Nodup) (i : ι) (k : κ) (v : ν) :
    (((items.foldl (insertAt place) parts).lookup i).getD ∅).lookup k = some v ↔
      ((k, v) ∈ items ∧ place k = i) ∨
        (k ∉ items.map Prod.fst ∨ place k ≠ i) ∧ ((parts.lookup i).getD ∅).lookup k = some v := by
  induction items generalizing parts with
  | nil => simp
  | cons item items ih =>
      obtain ⟨k', v'⟩ := item
      rw [List.map_cons, List.nodup_cons] at hnodup
      obtain ⟨hnew, hnodup⟩ := hnodup
      rw [List.foldl_cons, ih _ hnodup]
      -- what the step has put into the part at `i`
      have hstep : (((insertAt place parts (k', v')).lookup i).getD ∅).lookup k =
          if place k' = i ∧ k = k' then some v' else ((parts.lookup i).getD ∅).lookup k := by
        rw [insertAt, lookup_insert_eq]
        by_cases hi : i = place k'
        · subst hi
          rw [if_pos rfl, Option.getD_some, lookup_insert_eq]
          by_cases hk : k = k' <;> simp [hk]
        · rw [if_neg hi, if_neg fun h => hi h.1.symm]
      rw [hstep]
      by_cases hk : k = k'
      · subst hk
        have habsent : ∀ w, (k, w) ∉ items := fun w h => hnew (List.mem_map.mpr ⟨_, h, rfl⟩)
        by_cases hi : place k = i <;> simp [hi, habsent, hnew, eq_comm]
      · have hne : (k, v) ≠ (k', v') := fun h => hk (Prod.mk.inj h).1
        simp [hk, List.mem_cons, hne]

theorem lookup_part (m : HashMap κ ν) (i : ι) (k : κ) :
    (part place m i).lookup k = if place k = i then m.lookup k else none := by
  apply Option.ext
  intro v
  have hnodup : (m.toList.map Prod.fst).Nodup := by
    rw [map_fst_toList]
    exact m.nodupKeys
  rw [part, partition, lookup_foldl_insertAt place m.toList ∅ hnodup i k v, mem_toList_iff]
  by_cases hi : place k = i <;> simp [hi]

end

/-! ## Families of parts -/

/-- Every key of the first `n` parts stands in its own part. -/
def Placed (place : κ → Nat) (n : Nat) (parts : Nat → HashMap κ ν) : Prop :=
  ∀ i < n, ∀ k v, (parts i).lookup k = some v → place k = i

/-- The entry is in one of the first `n` parts. -/
def InParts (n : Nat) (parts : Nat → HashMap κ ν) (k : κ) (v : ν) : Prop :=
  ∃ i < n, (parts i).lookup k = some v

theorem Placed.inParts_iff {place : κ → Nat} {n : Nat} {parts : Nat → HashMap κ ν}
    (h : Placed place n parts) (hplace : ∀ k, place k < n) {k : κ} {v : ν} :
    InParts n parts k v ↔ (parts (place k)).lookup k = some v := by
  constructor
  · rintro ⟨i, hi, hlookup⟩
    rwa [h i hi k v hlookup]
  · intro hlookup
    exact ⟨place k, hplace k, hlookup⟩

end HashMap

end NixCache.Lib
