import Mathlib.Data.List.Basic
import Mathlib.Order.Lattice
/-!
# Listings in pages

A collection that is listed page by page: a request names the last item that is known, its cursor,
and a page is a first part of the items after it.  A listing that takes the last item of each page
as the next cursor has, at every moment, seen the items up to its cursor.
-/

namespace NixCache.Lib.Paging

variable {α : Type} [LinearOrder α]

/-- A collection, each item once and in order. -/
structure Catalog (α : Type) [LinearOrder α] where
  items : List α
  sorted : items.Pairwise (· < ·)

/-- The item comes after the cursor.  All do where there is none. -/
def IsAfter (cursor : Option α) (item : α) : Prop := ∀ last ∈ cursor, last < item

instance (cursor : Option α) : DecidablePred (IsAfter cursor) := fun item =>
  match cursor with
  | none => isTrue fun _ h => by cases h
  | some last => decidable_of_iff (last < item) (by simp [IsAfter])

namespace Catalog

variable (catalog : Catalog α)

/-- The items after a cursor. -/
def after (cursor : Option α) : List α := catalog.items.filter fun item => IsAfter cursor item

/-- The page that leaves nothing out. -/
def fullPage (size : Nat) (cursor : Option α) : List α := (catalog.after cursor).take size

/-- A page of at most `size` items.  One with fewer has either all that remain, or announces that
there are more. -/
structure IsPage (size : Nat) (cursor : Option α) (page : List α) (announced : Bool) : Prop where
  isFirst : page <+: catalog.after cursor
  length_le : page.length ≤ size
  complete : page.length < size → announced = false → page = catalog.after cursor

/-- The items that were seen are those up to the cursor. -/
def Seen (seen : List α) (cursor : Option α) : Prop := catalog.items = seen ++ catalog.after cursor

end Catalog

/-! ## The items after a cursor -/

section

variable {catalog : Catalog α} {size : Nat} {cursor : Option α} {seen page rest : List α} {last : α}

@[simp] theorem after_none : catalog.after none = catalog.items := by
  simp [Catalog.after, IsAfter]

theorem mem_after {item : α} :
    item ∈ catalog.after cursor ↔ item ∈ catalog.items ∧ IsAfter cursor item := by
  simp [Catalog.after]

/-- What follows the last item that was seen. -/
theorem after_last (h : catalog.items = seen ++ rest) (hlast : seen.getLast? = some last) :
    catalog.after (some last) = rest := by
  obtain ⟨init, rfl⟩ : ∃ init, seen = init ++ [last] := List.getLast?_eq_some_iff.mp hlast
  have hsorted := catalog.sorted
  rw [h, List.append_assoc, List.pairwise_append] at hsorted
  obtain ⟨_, htail, hinit⟩ := hsorted
  have hbefore : ∀ item ∈ init ++ [last], ¬ last < item := by
    intro item hitem
    rcases List.mem_append.mp hitem with hitem | hitem
    · exact lt_asymm (hinit item hitem last (by simp))
    · rw [List.mem_singleton.mp hitem]
      exact lt_irrefl last
  have hrest : ∀ item ∈ rest, last < item := (List.pairwise_cons.mp htail).1
  have hnone : (init ++ [last]).filter (fun item => IsAfter (some last) item) = [] :=
    List.filter_eq_nil_iff.mpr fun item hitem => by simpa [IsAfter] using hbefore item hitem
  have hall : rest.filter (fun item => IsAfter (some last) item) = rest :=
    List.filter_eq_self.mpr fun item hitem => by simpa [IsAfter] using hrest item hitem
  rw [Catalog.after, h, List.filter_append, hnone, hall, List.nil_append]

/-! ## Listing page by page -/

theorem seen_start (catalog : Catalog α) : catalog.Seen [] none := by
  simp [Catalog.Seen]

/-- The last item of a page as the next cursor. -/
theorem Catalog.Seen.next (h : catalog.Seen seen cursor)
    (hpage : catalog.after cursor = page ++ rest) (hlast : page.getLast? = some last) :
    catalog.Seen (seen ++ page) (some last) ∧ catalog.after (some last) = rest := by
  have hitems : catalog.items = seen ++ page ++ rest := by
    rw [List.append_assoc, ← hpage]
    exact h
  have hseen : (seen ++ page).getLast? = some last := by simp [hlast]
  have hafter := after_last hitems hseen
  refine ⟨?_, hafter⟩
  rw [Catalog.Seen, hafter]
  exact hitems

theorem Catalog.Seen.pairwise (h : catalog.Seen seen cursor)
    (hpage : page <+: catalog.after cursor) : (seen ++ page).Pairwise (· < ·) := by
  obtain ⟨rest, hrest⟩ := hpage
  have hsorted := catalog.sorted
  rw [h, ← hrest, ← List.append_assoc] at hsorted
  exact (List.pairwise_append.mp hsorted).1

/-- Everything was listed when the last page had all that remained. -/
theorem Catalog.Seen.eq_items_iff (h : catalog.Seen seen cursor) :
    seen ++ page = catalog.items ↔ page = catalog.after cursor := by
  rw [h, List.append_cancel_left_eq]

theorem isPage_fullPage (announced : Bool) :
    catalog.IsPage size cursor (catalog.fullPage size cursor) announced where
  isFirst := List.take_prefix _ _
  length_le := List.length_take_le _ _
  complete h _ := by
    rw [Catalog.fullPage, List.length_take] at h
    exact List.take_of_length_le (by omega)

end

end NixCache.Lib.Paging
