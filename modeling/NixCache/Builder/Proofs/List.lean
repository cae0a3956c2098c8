import NixCache.Builder.List
import NixCache.Core.Proofs.Closure
import NixCache.Lib.StableSort
import Mathlib.Data.Set.Card
/-!
# The order of a listing

A listing by date compares the texts of the dates, and entries that compare as equal come in the
order in which a map was iterated.
-/

namespace NixCache.Builder

open NixCache.Lib NixCache.Lib.Result NixCache.Lib.StableSort NixCache.Core

variable {X : Crates} {fixed2 : UInt64 → UInt64 → String} {options : ListOptions}
  {entries entries' : HashMap StoreHash IndexEntry}
  {gcRoots gcRoots' : HashMap SystemArch (List StoreHash)} {selector : CacheSelector}
  {reasonMap reasonMap' : HashMap StoreHash String}

/-! ## The order of two entries -/

/-- What `compareItems` makes of the items of two entries. -/
def compareEntries (options : ListOptions) (a b : StoreHash × IndexEntry) : Ordering :=
  let ord :=
    match options.sortBy with
    | .addedDate => compare a.2.added b.2.added
    | .narSize => compare a.2.narSize b.2.narSize
    | .name => compare a.2.name b.2.name
    | .storeHash => compare a.1.val b.1.val
  match options.sortOrder with
  | .asc => ord
  | .desc => ord.swap

theorem compareItems_listItem (a b : StoreHash × IndexEntry) :
    compareItems options (listItem fixed2 reasonMap a) (listItem fixed2 reasonMap b) =
      compareEntries options a b :=
  rfl

/-- An ordering that compares one field, in either direction. -/
theorem transCmp_of_field {α κ : Type} [Ord κ] [Std.TransOrd κ] (field : α → κ)
    (sortOrder : SortOrder) :
    Std.TransCmp fun a b : α =>
      match sortOrder with
      | .asc => compare (field a) (field b)
      | .desc => (compare (field a) (field b)).swap := by
  cases sortOrder with
  | asc => exact inferInstanceAs (Std.TransCmp (compareOn field))
  | desc =>
      have hswap : (fun a b : α => (compare (field a) (field b)).swap) =
          fun a b => compareOn field b a := by
        funext a b
        exact Std.OrientedCmp.eq_swap.symm
      show Std.TransCmp fun a b : α => (compare (field a) (field b)).swap
      rw [hswap]
      infer_instance

instance (options : ListOptions) : Std.TransCmp (compareEntries options) := by
  have hfield : ∀ {κ : Type} [Ord κ] [Std.TransOrd κ] (field : StoreHash × IndexEntry → κ), _ :=
    fun field => transCmp_of_field field options.sortOrder
  unfold compareEntries
  cases options.sortBy with
  | addedDate => exact hfield fun entry => entry.2.added
  | narSize => exact hfield fun entry => entry.2.narSize
  | name => exact hfield fun entry => entry.2.name
  | storeHash => exact hfield fun entry => entry.1.val

/-- What `run_list` may see on an index, with each map in any order. -/
structure Outcome (X : Crates) (entries : HashMap StoreHash IndexEntry)
    (gcRoots : HashMap SystemArch (List StoreHash)) (selector : CacheSelector) where
  allEntries : HashMap StoreHash IndexEntry
  allGcRoots : HashMap SystemArch (List StoreHash)
  sameEntries : ∀ hash, allEntries.lookup hash = entries.lookup hash
  sameRoots : ∀ system, allGcRoots.lookup system = gcRoots.lookup system
  queryRes : CacheQueryResult
  evaluated : evaluateCacheQuery X allEntries allGcRoots selector = .ok queryRes
  /-- The matched entries as they are iterated. -/
  matchedEntries : HashMap StoreHash IndexEntry
  sameMatched : ∀ hash, matchedEntries.lookup hash = queryRes.matchedEntries.lookup hash

namespace Outcome

/-- The report and the displayed items. -/
def listing (outcome : Outcome X entries gcRoots selector)
    (fixed2 : UInt64 → UInt64 → String) (options : ListOptions) :
    CacheListSummaryReport × List ListItemDto :=
  listReport fixed2 options outcome.allEntries outcome.allGcRoots
    { outcome.queryRes with matchedEntries := outcome.matchedEntries }

end Outcome

/-- What `run_list` returns is one of the outcomes. -/
theorem exists_outcome_of_runList {listing : CacheListSummaryReport × List ListItemDto}
    (h : runList X fixed2 options entries gcRoots selector = .ok listing) :
    ∃ outcome : Outcome X entries gcRoots selector, outcome.listing fixed2 options = listing := by
  simp only [runList, bind_eq_ok, pure_eq_ok] at h
  obtain ⟨queryRes, hquery, rfl⟩ := h
  exact ⟨⟨entries, gcRoots, fun _ => rfl, fun _ => rfl, queryRes, hquery, queryRes.matchedEntries,
    fun _ => rfl⟩, rfl⟩

namespace Outcome

variable (outcome : Outcome X entries gcRoots selector)

/-- Why an entry is listed. -/
def reason (hash : StoreHash) : String := itemReason outcome.queryRes.reasonMap hash

end Outcome

/-- The place of an entry among those the selector matches. -/
noncomputable def place (options : ListOptions) (matched : Set (StoreHash × IndexEntry))
    (entry : StoreHash × IndexEntry) : Nat :=
  {other ∈ matched | compareEntries options other entry = .lt}.ncard

namespace Outcome

variable (outcome : Outcome X entries gcRoots selector) {a b : StoreHash × IndexEntry}

end Outcome

namespace Outcome

variable (outcome : Outcome X entries gcRoots selector)

end Outcome

def selectAll : CacheSelector := .all ∅

section

variable {added : String}

end

end NixCache.Builder
