import NixCache.Lib.Result
/-!
# Slices

Access by index and by range, which panics outside the slice.
-/

namespace NixCache.Lib.Slice

variable {α : Type}

inductive Panic where
  | outOfBounds
deriving DecidableEq, Repr

/-- `xs[i]`. -/
def index (xs : List α) (i : Nat) : Except Panic α :=
  match xs[i]? with
  | some x => .ok x
  | none => .error .outOfBounds

/-- `&xs[start..stop]`. -/
def range (xs : List α) (start stop : Nat) : Except Panic (List α) :=
  if start ≤ stop ∧ stop ≤ xs.length then .ok ((xs.drop start).take (stop - start))
  else .error .outOfBounds

/-- `xs[i] = f(xs[i])`. -/
def modify (xs : List α) (i : Nat) (f : α → α) : Except Panic (List α) :=
  if i < xs.length then .ok (xs.modify i f) else .error .outOfBounds

theorem index_eq_ok {xs : List α} {i : Nat} {x : α} : index xs i = .ok x ↔ xs[i]? = some x := by
  unfold index
  cases xs[i]? <;> simp

theorem range_eq_ok {xs : List α} {start stop : Nat} (hstart : start ≤ stop)
    (hstop : stop ≤ xs.length) : range xs start stop = .ok ((xs.drop start).take (stop - start)) :=
  if_pos ⟨hstart, hstop⟩

theorem modify_eq_ok {xs : List α} {i : Nat} {f : α → α} (h : i < xs.length) :
    modify xs i f = .ok (xs.modify i f) :=
  if_pos h

end NixCache.Lib.Slice
