import NixCache.Lib.Action
/-!
# Requests and what came before them

Rules for a property of each request that depends on the exchanges before it, such as that a request
uses only what some reply has given.
-/

namespace NixCache.Lib.Action

open Program (Trace)

variable {ι ρ ε ε' α β : Type} {P : Trace ι ρ → ι → Prop} {history : Trace ι ρ}

/-- In every run after `history`, each request meets `P` at the exchanges before it, and the run ends
in `Q`. -/
def Meets (P : Trace ι ρ → ι → Prop) (history : Trace ι ρ) (action : Action ι ρ ε α)
    (Q : Trace ι ρ → Except ε α → Prop) : Prop :=
  ∀ trace result, Runs action trace result →
    (∀ before event after, trace = before ++ event :: after → P (history ++ before) event.1) ∧
    Q (history ++ trace) result

theorem Meets.imp {action : Action ι ρ ε α} {Q Q' : Trace ι ρ → Except ε α → Prop}
    (h : Meets P history action Q) (hQ : ∀ past result, Q past result → Q' past result) :
    Meets P history action Q' := by
  intro trace result hruns
  obtain ⟨hrequests, hend⟩ := h trace result hruns
  exact ⟨hrequests, hQ _ _ hend⟩

theorem meets_ofExcept {value : Except ε α} {Q : Trace ι ρ → Except ε α → Prop}
    (h : Q history value) : Meets P history (ofExcept value) Q := by
  rintro trace result ⟨rfl, rfl⟩
  refine ⟨?_, by rwa [List.append_nil]⟩
  intro before event after hsplit
  simp at hsplit

theorem meets_pure {value : α} {Q : Trace ι ρ → Except ε α → Prop} (h : Q history (.ok value)) :
    Meets P history (pure value : Action ι ρ ε α) Q :=
  meets_ofExcept h

/-- An action that sends only requests that meet `P` at any time from now on. -/
theorem meets_of_only {R : ι → Prop} {action : Action ι ρ ε α} {Q : Trace ι ρ → Except ε α → Prop}
    (honly : Only R action) (hP : ∀ request, R request → ∀ before, P (history ++ before) request)
    (hQ : ∀ trace result, Runs action trace result → Q (history ++ trace) result) :
    Meets P history action Q := by
  intro trace result hruns
  refine ⟨?_, hQ trace result hruns⟩
  rintro before event after rfl
  exact hP _ (honly.forall_mem hruns event (by simp)) before

theorem Meets.bind {first : Action ι ρ ε α} {next : α → Action ι ρ ε β}
    {M : Trace ι ρ → Except ε α → Prop} {Q : Trace ι ρ → Except ε β → Prop}
    (hfirst : Meets P history first M)
    (hnext : ∀ past value, M past (.ok value) → Meets P past (next value) Q)
    (herror : ∀ past error, M past (.error error) → Q past (.error error)) :
    Meets P history (first >>= next) Q := by
  intro trace result hruns
  rcases runs_bind.mp hruns with ⟨front, back, value, rfl, hfront, hback⟩ | ⟨error, rfl, hfront⟩
  · obtain ⟨hrequests, hmiddle⟩ := hfirst front (.ok value) hfront
    obtain ⟨hrequests', hend⟩ := hnext _ value hmiddle back result hback
    refine ⟨?_, by rwa [List.append_assoc] at hend⟩
    intro before event after hsplit
    -- the request is in the first action, or after it
    rcases List.append_eq_append_iff.mp hsplit with ⟨more, rfl, hevent⟩ | ⟨more, hevent, hmore⟩
    · rw [← List.append_assoc]
      exact hrequests' more event after hevent
    · cases more with
      | nil =>
          have hfirst' := hrequests' [] event after hmore.symm
          rwa [List.append_nil, hevent, List.append_nil] at hfirst'
      | cons head tail =>
          obtain ⟨rfl, -⟩ := List.cons.inj hmore
          exact hrequests before event tail hevent
  · obtain ⟨hrequests, hend⟩ := hfirst trace (.error error) hfront
    exact ⟨hrequests, herror _ error hend⟩

/-- When what comes next needs nothing of what came first. -/
theorem Meets.seq {first : Action ι ρ ε α} {next : α → Action ι ρ ε β}
    (hfirst : Meets P history first fun _ _ => True)
    (hnext : ∀ past value, Meets P past (next value) fun _ _ => True) :
    Meets P history (first >>= next) fun _ _ => True :=
  hfirst.bind (fun past value _ => hnext past value) fun _ _ _ => trivial

theorem Meets.ofExcept_bind {first : Except ε α} {next : α → Action ι ρ ε β}
    {Q : Trace ι ρ → Except ε β → Prop}
    (hnext : ∀ value, first = .ok value → Meets P history (next value) Q)
    (herror : ∀ error, first = .error error → Q history (.error error)) :
    Meets P history (ofExcept first >>= next) Q := by
  have hfirst : Meets P history (ofExcept first)
      fun past result => past = history ∧ result = first :=
    meets_ofExcept ⟨rfl, rfl⟩
  apply hfirst.bind
  · rintro past value ⟨rfl, hvalue⟩
    exact hnext value hvalue.symm
  · rintro past error ⟨rfl, hvalue⟩
    exact herror error hvalue.symm

theorem Meets.attempt {action : Action ι ρ ε α} {Q : Trace ι ρ → Except ε' (Except ε α) → Prop}
    (h : Meets P history action fun past result => Q past (.ok result)) :
    Meets P history (Action.attempt action) Q := by
  intro trace result hruns
  obtain ⟨outcome, rfl, haction⟩ := runs_attempt.mp hruns
  exact h trace outcome haction

theorem Meets.mapErr {f : ε → ε'} {action : Action ι ρ ε α} {Q : Trace ι ρ → Except ε' α → Prop}
    (h : Meets P history action fun past result => Q past (Result.mapErr f result)) :
    Meets P history (Action.mapErr f action) Q := by
  intro trace result hruns
  obtain ⟨outcome, rfl, haction⟩ := runs_mapErr.mp hruns
  exact h trace outcome haction

end NixCache.Lib.Action
