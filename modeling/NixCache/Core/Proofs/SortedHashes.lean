import NixCache.Core.Sharding
import Mathlib.Data.List.Destutter
/-!
# Sorted lists of hashes

A `StoreHash` is ordered by its text.  A list of hashes that is sorted and has no repetitions is
determined by its members, however it was put together.
-/

namespace NixCache.Core

namespace StoreHash

instance : Std.Total fun left right : StoreHash => left ≤ right :=
  ⟨fun left right => le_total left.val right.val⟩

instance : IsTrans StoreHash fun left right => left ≤ right :=
  ⟨fun _ _ _ (hab : _ ≤ _) (hbc : _ ≤ _) => le_trans (α := String) hab hbc⟩

instance : Std.Antisymm fun left right : StoreHash => left ≤ right :=
  ⟨fun _ _ hab hba => StoreHash.ext (le_antisymm (α := String) hab hba)⟩

theorem lt_of_le_of_ne {left right : StoreHash} (hle : left ≤ right) (hne : left ≠ right) :
    left < right :=
  Ne.lt_of_le (fun h : left.val = right.val => hne (StoreHash.ext h)) hle

end StoreHash

variable {hash : StoreHash} {hashes left right : List StoreHash}

theorem pairwise_lt_of_nodup (hle : hashes.Pairwise (· ≤ ·)) (hnodup : hashes.Nodup) :
    hashes.Pairwise (· < ·) := by
  have hboth : hashes.Pairwise fun a b => a ≤ b ∧ a ≠ b := hle.and hnodup
  exact hboth.imp fun h => StoreHash.lt_of_le_of_ne h.1 h.2

/-- A strictly increasing list is determined by its members. -/
theorem eq_of_pairwise_lt (hleft : left.Pairwise (· < ·)) (hright : right.Pairwise (· < ·))
    (h : ∀ hash, hash ∈ left ↔ hash ∈ right) : left = right := by
  have hirrefl : Std.Irrefl fun a b : StoreHash => a < b :=
    ⟨fun a => lt_irrefl (α := String) a.val⟩
  have hantisymm : Std.Antisymm fun a b : StoreHash => a < b :=
    ⟨fun a b hab hba => absurd hab (lt_asymm (α := String) hba)⟩
  exact hleft.eq_of_mem_iff hright h

/-! ## Sorting and `dedup` -/

/-- `sort_unstable` and `dedup`. -/
theorem destutter_insertionSort (hashes : List StoreHash) :
    (hashes.insertionSort (· ≤ ·)).destutter (· ≠ ·) = (hashes.insertionSort (· ≤ ·)).dedup := by
  have hsorted : (hashes.insertionSort (· ≤ ·)).Pairwise fun a b => a ≤ b :=
    List.pairwise_insertionSort _ _
  exact hsorted.destutter_eq_dedup

theorem mem_destutter_insertionSort :
    hash ∈ (hashes.insertionSort (· ≤ ·)).destutter (· ≠ ·) ↔ hash ∈ hashes := by
  rw [destutter_insertionSort, List.mem_dedup, List.mem_insertionSort]

theorem pairwise_destutter_insertionSort (hashes : List StoreHash) :
    ((hashes.insertionSort (· ≤ ·)).destutter (· ≠ ·)).Pairwise (· < ·) := by
  rw [destutter_insertionSort]
  apply pairwise_lt_of_nodup
  · exact (List.pairwise_insertionSort _ _).sublist (List.dedup_sublist _)
  · exact List.nodup_dedup _

end NixCache.Core
