import Mathlib.Data.Set.Lattice
/-!
# Bloom filters

A set of keys kept as the positions that are marked for them.  A key is reported if all its
positions are marked, so no key is lost, whatever the positions are.
-/

namespace NixCache.Lib.BloomFilter

variable {Key Position : Type} (positions : Key → Set Position)

def insert (marked : Set Position) (key : Key) : Set Position := marked ∪ positions key

def Reports (marked : Set Position) (key : Key) : Prop := positions key ⊆ marked

variable {positions} {marked marked' : Set Position} {key : Key}

theorem subset_insert : marked ⊆ insert positions marked key :=
  Set.subset_union_left

theorem reports_insert : Reports positions (insert positions marked key) key :=
  Set.subset_union_right

theorem Reports.mono (h : Reports positions marked key) (hsub : marked ⊆ marked') :
    Reports positions marked' key :=
  Set.Subset.trans h hsub

end NixCache.Lib.BloomFilter
