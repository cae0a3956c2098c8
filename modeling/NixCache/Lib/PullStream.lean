import Mathlib.Logic.Basic
/-!
# Streams that are polled

A stream is a state with a `poll_next`.  A poll that is not ready leaves the state as it is, so only
the ready ones are counted.
-/

namespace NixCache.Lib.PullStream

variable {σ α : Type} (poll : σ → Option α × σ)

/-- The state after a number of polls. -/
def after : Nat → σ → σ
  | 0, state => state
  | n + 1, state => after n (poll state).2

/-- What the poll after `n` others returns. -/
def answer (n : Nat) (state : σ) : Option α := (poll (after poll n state)).1

/-- The stream returns these items and then `None` at every poll. -/
def Yields (state : σ) (items : List α) : Prop := ∀ n, answer poll n state = items[n]?

variable {poll} {state next : σ} {item : α} {items items' : List α}

theorem answer_succ (n : Nat) : answer poll (n + 1) state = answer poll n (poll state).2 := rfl

theorem after_of_stopped (h : poll state = (none, state)) (n : Nat) : after poll n state = state := by
  induction n with
  | zero => rfl
  | succ n ih =>
      rw [after, h]
      exact ih

theorem yields_of_stopped (h : poll state = (none, state)) : Yields poll state [] := by
  intro n
  rw [answer, after_of_stopped h, h, List.getElem?_nil]

/-- The stream ends at the next poll. -/
theorem yields_of_ended (h : poll state = (none, next)) (hstopped : poll next = (none, next)) :
    Yields poll state [] := by
  intro n
  cases n with
  | zero => rw [answer, after, h, List.getElem?_nil]
  | succ n =>
      rw [answer_succ, h]
      exact yields_of_stopped hstopped n

theorem Yields.cons (hnext : Yields poll next items) (h : poll state = (some item, next)) :
    Yields poll state (item :: items) := by
  intro n
  cases n with
  | zero => rw [answer, after, h, List.getElem?_cons_zero]
  | succ n =>
      rw [answer_succ, h, List.getElem?_cons_succ]
      exact hnext n

theorem Yields.unique (h : Yields poll state items) (h' : Yields poll state items') :
    items = items' := by
  apply List.ext_getElem?
  intro n
  rw [← h n, ← h' n]

end NixCache.Lib.PullStream
