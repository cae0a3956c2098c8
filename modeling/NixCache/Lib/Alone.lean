import NixCache.Lib.Concurrent
/-!
# A task that runs alone

What an action does to a state when nothing else changes it: its trace is answered by the state, and
do-notation passes the state on.
-/

namespace NixCache.Lib.Action

open Program (Trace Follows follows_append)

variable {ι ρ ε α β σ : Type} {step : σ → ι × ρ → σ → Prop} {before after : σ} {trace : Trace ι ρ}

/-- Alone, the action takes the state from `before` to `after` and ends with `result`. -/
def Takes (step : σ → ι × ρ → σ → Prop) (action : Action ι ρ ε α) (before : σ) (trace : Trace ι ρ)
    (result : Except ε α) (after : σ) : Prop :=
  Runs action trace result ∧ Follows step before trace after

theorem takes_ofExcept {value result : Except ε α} :
    Takes step (ofExcept value) before trace result after ↔
      trace = [] ∧ result = value ∧ after = before := by
  unfold Takes
  rw [runs_ofExcept]
  constructor
  · rintro ⟨⟨rfl, rfl⟩, rfl⟩
    exact ⟨rfl, rfl, rfl⟩
  · rintro ⟨rfl, rfl, rfl⟩
    exact ⟨⟨rfl, rfl⟩, rfl⟩

theorem takes_pure {value : α} {result : Except ε α} :
    Takes step (pure value) before trace result after ↔
      trace = [] ∧ result = .ok value ∧ after = before :=
  takes_ofExcept

theorem takes_request {question : ι} {result : Except ε ρ} :
    Takes step (request question) before trace result after ↔
      ∃ reply, trace = [(question, reply)] ∧ result = .ok reply ∧
        step before (question, reply) after := by
  unfold Takes
  rw [runs_request]
  constructor
  · rintro ⟨⟨reply, rfl, rfl⟩, _, hstep, rfl⟩
    exact ⟨reply, rfl, rfl, hstep⟩
  · rintro ⟨reply, rfl, rfl, hstep⟩
    exact ⟨⟨reply, rfl, rfl⟩, _, hstep, rfl⟩

theorem takes_bind {first : Action ι ρ ε α} {next : α → Action ι ρ ε β} {result : Except ε β} :
    Takes step (first >>= next) before trace result after ↔
      (∃ front back value middle, trace = front ++ back ∧
        Takes step first before front (.ok value) middle ∧
        Takes step (next value) middle back result after) ∨
      ∃ error, result = .error error ∧ Takes step first before trace (.error error) after := by
  unfold Takes
  rw [runs_bind]
  constructor
  · rintro ⟨⟨front, back, value, rfl, hfirst, hnext⟩ | ⟨error, rfl, hfirst⟩, hfollows⟩
    · obtain ⟨middle, hfront, hback⟩ := follows_append.mp hfollows
      exact Or.inl ⟨front, back, value, middle, rfl, ⟨hfirst, hfront⟩, hnext, hback⟩
    · exact Or.inr ⟨error, rfl, hfirst, hfollows⟩
  · rintro (⟨front, back, value, middle, rfl, ⟨hfirst, hfront⟩, hnext, hback⟩ |
      ⟨error, rfl, hfirst, hfollows⟩)
    · exact ⟨Or.inl ⟨front, back, value, rfl, hfirst, hnext⟩,
        follows_append.mpr ⟨middle, hfront, hback⟩⟩
    · exact ⟨Or.inr ⟨error, rfl, hfirst⟩, hfollows⟩

theorem takes_bind_ok {first : Action ι ρ ε α} {next : α → Action ι ρ ε β} {value : β} :
    Takes step (first >>= next) before trace (.ok value) after ↔
      ∃ front back found middle, trace = front ++ back ∧
        Takes step first before front (.ok found) middle ∧
        Takes step (next found) middle back (.ok value) after := by
  rw [takes_bind]
  simp

theorem Takes.bind {first : Action ι ρ ε α} {next : α → Action ι ρ ε β} {middle : σ}
    {front back : Trace ι ρ} {value : α} {result : Except ε β}
    (hfirst : Takes step first before front (.ok value) middle)
    (hnext : Takes step (next value) middle back result after) :
    Takes step (first >>= next) before (front ++ back) result after :=
  takes_bind.mpr (Or.inl ⟨front, back, value, middle, rfl, hfirst, hnext⟩)

theorem takes_pure_bind {value : α} {next : α → Action ι ρ ε β} {result : Except ε β} :
    Takes step (pure value >>= next) before trace result after ↔
      Takes step (next value) before trace result after :=
  Iff.rfl

/-- An operation whose answer is read, alone: the state answers it. -/
theorem takes_ask {error : ε} {operation : ι} {read : ρ → Option α} {result : Except ε α} :
    Takes step (ask error operation read) before trace result after ↔
      ∃ answer, trace = [(operation, answer)] ∧ result = Result.okOr error (read answer) ∧
        step before (operation, answer) after := by
  unfold ask
  constructor
  · intro h
    rcases takes_bind.mp h with ⟨front, back, answer, middle, rfl, hfirst, hnext⟩ |
      ⟨_, _, hfirst⟩
    · obtain ⟨_, rfl, hanswer, hstep⟩ := takes_request.mp hfirst
      cases hanswer
      obtain ⟨rfl, hresult, rfl⟩ := takes_ofExcept.mp hnext
      exact ⟨answer, rfl, hresult, hstep⟩
    · obtain ⟨_, _, herror, _⟩ := takes_request.mp hfirst
      cases herror
  · rintro ⟨answer, rfl, rfl, hstep⟩
    exact Takes.bind (takes_request.mpr ⟨answer, rfl, rfl, hstep⟩)
      (takes_ofExcept.mpr ⟨rfl, rfl, rfl⟩)

end NixCache.Lib.Action
