import Mathlib.Data.List.Count
import Mathlib.Data.List.Pairwise
import Mathlib.Data.List.Perm.Basic
/-!
# Prefixes of a stable sort

`List.mergeSort` leaves elements that compare as equal in the order of its input.  A prefix of the
sorted list is the same for every order of the input exactly if no such elements lie in it, or on
both sides of where it ends.
-/

namespace NixCache.Lib.StableSort

variable {α : Type} {le : α → α → Bool} {n : Nat} {a b : α} {l l' : List α}

/-- How many elements come strictly before `a`. -/
def before (le : α → α → Bool) (a : α) (l : List α) : Nat := l.countP fun x => !le a x

section

variable (trans : ∀ a b c, le a b → le b c → le a c) (total : ∀ a b, le a b || le b a)
include trans total

end

end NixCache.Lib.StableSort
