import Mathlib.Data.List.Induction
import NixCache.Lib.History
/-!
# Tasks on a shared state

A task is an action whose requests are atomic operations on a state that all tasks share.  An
execution interleaves the events of the tasks, of which some may not have come to their end, and
events from outside.  What a task writes is justified by what it did before, and that by what the
state answered; so a fact about the state and about all answers needs to be checked for one event.
-/

namespace NixCache.Lib

open Program (Trace Follows follows_append)
open NixCache.Lib.Action (Runs Meets)

variable {ι ρ ε α σ τ : Type}

/-! ## Typed operations -/

/-- An operation whose answer is read; an answer of another kind is an error. -/
def Action.ask (error : ε) (operation : ι) (read : ρ → Option α) : Action ι ρ ε α := do
  let answer ← Action.request operation
  Action.ofExcept (Result.okOr error (read answer))

namespace Action

theorem runs_ask_ok {error : ε} {operation : ι} {read : ρ → Option α} {trace : Trace ι ρ}
    {value : α} :
    Runs (ask error operation read) trace (.ok value) ↔
      ∃ answer, trace = [(operation, answer)] ∧ read answer = some value := by
  unfold ask
  rw [runs_bind_ok]
  constructor
  · rintro ⟨_, _, answer, rfl, hrequest, rfl, hread⟩
    obtain ⟨_, rfl, hanswer⟩ := runs_request.mp hrequest
    cases hanswer
    exact ⟨answer, rfl, Result.okOr_eq_ok.mp hread.symm⟩
  · rintro ⟨answer, rfl, hread⟩
    exact ⟨[(operation, answer)], [], answer, rfl, Runs.request operation answer, rfl,
      (Result.okOr_eq_ok.mpr hread).symm⟩

/-- What is asked, and what is then in the past. -/
theorem meets_ask {P : Trace ι ρ → ι → Prop} {history : Trace ι ρ} {error : ε} {operation : ι}
    {read : ρ → Option α} (h : P history operation) :
    Meets P history (ask error operation read) fun past result =>
      ∃ answer, past = history ++ [(operation, answer)] ∧
        result = Result.okOr error (read answer) := by
  intro trace result hruns
  have hevents : ∃ answer, trace = [(operation, answer)] ∧
      result = Result.okOr error (read answer) := by
    rcases runs_bind.mp hruns with ⟨_, _, answer, rfl, hrequest, rfl, hread⟩ | ⟨_, _, hrequest⟩
    · obtain ⟨_, rfl, hanswer⟩ := runs_request.mp hrequest
      cases hanswer
      exact ⟨answer, rfl, hread⟩
    · obtain ⟨_, _, herror⟩ := runs_request.mp hrequest
      cases herror
  obtain ⟨answer, rfl, hresult⟩ := hevents
  refine ⟨?_, answer, rfl, hresult⟩
  intro before event after hsplit
  obtain ⟨rfl, rfl, -⟩ : before = [] ∧ event = (operation, answer) ∧ after = [] := by
    cases before with
    | nil =>
        obtain ⟨hevent, hafter⟩ := List.cons.inj hsplit
        exact ⟨rfl, hevent.symm, hafter.symm⟩
    | cons first rest => simp at hsplit
  rwa [List.append_nil]

/-- An answer that is passed on. -/
theorem Meets.ask_bind {P : Trace ι ρ → ι → Prop} {history : Trace ι ρ} {error : ε} {operation : ι}
    {β : Type} {read : ρ → Option α} {next : α → Action ι ρ ε β}
    {Q : Trace ι ρ → Except ε β → Prop} (h : P history operation)
    (hnext : ∀ answer value, read answer = some value →
      Meets P (history ++ [(operation, answer)]) (next value) Q)
    (herror : ∀ past, Q past (.error error)) :
    Meets P history (ask error operation read >>= next) Q := by
  apply (meets_ask h).bind
  · rintro past value ⟨answer, rfl, hvalue⟩
    exact hnext answer value (Result.okOr_eq_ok.mp hvalue.symm)
  · rintro past failure ⟨answer, rfl, hvalue⟩
    cases hread : read answer with
    | some value =>
        rw [hread] at hvalue
        cases hvalue
    | none =>
        rw [hread] at hvalue
        cases hvalue
        exact herror _

end Action

/-! ## Executions -/

section

variable [DecidableEq τ]

/-- The events of one task. -/
def eventsOf (task : τ) (events : List (Option τ × (ι × ρ))) : Trace ι ρ :=
  (events.filter fun event => event.1 = some task).map Prod.snd

theorem eventsOf_append (task : τ) (first rest : List (Option τ × (ι × ρ))) :
    eventsOf task (first ++ rest) = eventsOf task first ++ eventsOf task rest := by
  simp [eventsOf]

@[simp] theorem eventsOf_map (task : τ) (trace : Trace ι ρ) :
    eventsOf task (trace.map fun event => (some task, event)) = trace := by
  simp [eventsOf, List.filter_map, Function.comp_def]

theorem eventsOf_map_of_ne {task other : τ} (h : other ≠ task) (trace : Trace ι ρ) :
    eventsOf other (trace.map fun event => (some task, event)) = [] := by
  simp [eventsOf, List.filter_map, Function.comp_def, Ne.symm h]

theorem mem_of_mem_eventsOf {task : τ} {events : List (Option τ × (ι × ρ))} {event : ι × ρ}
    (h : event ∈ eventsOf task events) : (some task, event) ∈ events := by
  obtain ⟨tagged, hmem, rfl⟩ := List.mem_map.mp h
  obtain ⟨hmem, htask⟩ := List.mem_filter.mp hmem
  rw [← show tagged.1 = some task by simpa using htask]
  exact hmem

/-- The events are those of the tasks, interleaved, each as far as it has come, and events from
outside; together they take the state from `first` to `last`. -/
structure Executes (step : σ → ι × ρ → σ → Prop) (outside : ι → Prop)
    (tasks : τ → Action ι ρ ε α) (first : σ) (events : List (Option τ × (ι × ρ))) (last : σ) :
    Prop where
  follows : Follows step first (events.map Prod.snd) last
  runs : ∀ task, ∃ more result, (tasks task).Runs (eventsOf task events ++ more) result
  outside : ∀ event ∈ events, event.1 = none → outside event.2.1

namespace Executes

variable {step : σ → ι × ρ → σ → Prop} {outside : ι → Prop} {tasks : τ → Action ι ρ ε α}
  {first last : σ} {events : List (Option τ × (ι × ρ))}

theorem nil (htasks : ∀ task, ∃ trace result, (tasks task).Runs trace result) :
    Executes step outside tasks first [] first where
  follows := rfl
  runs task := htasks task
  outside := by simp

/-- A task that has not begun runs to its end. -/
theorem complete {task : τ} {trace : Trace ι ρ} {result : Except ε α} {final : σ}
    (h : Executes step outside tasks first events last) (hnew : eventsOf task events = [])
    (hruns : (tasks task).Runs trace result) (hfollows : Follows step last trace final) :
    Executes step outside tasks first (events ++ trace.map fun event => (some task, event)) final where
  follows := by
    rw [List.map_append, List.map_map, follows_append]
    refine ⟨last, h.follows, ?_⟩
    rwa [show Prod.snd ∘ (fun event => (some task, event)) = id from rfl, List.map_id]
  runs other := by
    by_cases hother : other = task
    · refine ⟨[], result, ?_⟩
      rw [hother, eventsOf_append, hnew, eventsOf_map, List.nil_append, List.append_nil]
      exact hruns
    · rw [eventsOf_append, eventsOf_map_of_ne hother, List.append_nil]
      exact h.runs other
  outside event hevent hnone := by
    rcases List.mem_append.mp hevent with hevent | hevent
    · exact h.outside event hevent hnone
    · obtain ⟨_, _, rfl⟩ := List.mem_map.mp hevent
      cases hnone

/-- An event from outside. -/
theorem outer {operation : ι} {answer : ρ} {final : σ}
    (h : Executes step outside tasks first events last) (houtside : outside operation)
    (hstep : step last (operation, answer) final) :
    Executes step outside tasks first (events ++ [(none, (operation, answer))]) final where
  follows := by
    rw [List.map_append, follows_append]
    exact ⟨last, h.follows, final, hstep, rfl⟩
  runs task := by
    rw [eventsOf_append, show eventsOf task [(none, (operation, answer))] = [] from rfl,
      List.append_nil]
    exact h.runs task
  outside event hevent hnone := by
    rcases List.mem_append.mp hevent with hevent | hevent
    · exact h.outside event hevent hnone
    · rw [List.mem_singleton.mp hevent]
      exact houtside

/-- The last event, and the execution before it. -/
theorem init {event : Option τ × (ι × ρ)}
    (h : Executes step outside tasks first (events ++ [event]) last) :
    ∃ middle, Executes step outside tasks first events middle ∧ step middle event.2 last := by
  have hfollows := h.follows
  rw [List.map_append, follows_append] at hfollows
  obtain ⟨middle, hfollows, last', hstep, hlast⟩ := hfollows
  cases hlast
  refine ⟨middle, ⟨hfollows, ?_, ?_⟩, hstep⟩
  · intro task
    obtain ⟨more, result, hruns⟩ := h.runs task
    rw [eventsOf_append, List.append_assoc] at hruns
    exact ⟨_, result, hruns⟩
  · intro event hevent
    exact h.outside event (List.mem_append_left _ hevent)

/-- An event of a task is one that the task may bring about after its events so far. -/
theorem justified {P : Trace ι ρ → ι → Prop}
    {task : τ} {event : ι × ρ} (hmeets : Meets P [] (tasks task) fun _ _ => True)
    (h : Executes step outside tasks first (events ++ [(some task, event)]) last) :
    P (eventsOf task events) event.1 := by
  obtain ⟨more, result, hruns⟩ := h.runs task
  have hsplit : eventsOf task (events ++ [(some task, event)]) ++ more =
      eventsOf task events ++ event :: more := by
    simp [eventsOf]
  rw [hsplit] at hruns
  exact (hmeets _ result hruns).1 _ event more rfl

/-- What holds of the state at some time and of all answers since then, when it is kept by every
event that is justified by what its task did before that time and by answers of which it holds. -/
theorem invariant_after {P : Trace ι ρ → ι → Prop} {R : ι × ρ → Prop} {I : σ → Prop}
    {before after : List (Option τ × (ι × ρ))}
    (h : Executes step outside tasks first (before ++ after) last)
    (hmeets : ∀ task, Meets P [] (tasks task) fun _ _ => True)
    (hmiddle : ∀ middle, Follows step first (before.map Prod.snd) middle → I middle)
    (htask : ∀ task recent s event s', (some task, event) ∈ after →
      (∀ earlier ∈ recent, R earlier) → P (eventsOf task before ++ recent) event.1 → I s → step s event s' → R event ∧ I s')
    (houtside : ∀ s event s', outside event.1 → I s → step s event s' → R event ∧ I s') :
    (∀ event ∈ after, R event.2) ∧ I last := by
  -- by induction over the events since then, from the last one
  induction after using List.reverseRecOn generalizing last with
  | nil =>
      have hfollows := h.follows
      rw [List.append_nil] at hfollows
      exact ⟨by simp, hmiddle last hfollows⟩
  | append_singleton events event ih =>
      rw [← List.append_assoc] at h
      obtain ⟨middle, hbefore, hstep⟩ := h.init
      obtain ⟨hall, hmiddle⟩ := ih hbefore fun task recent s event s' hmem =>
        htask task recent s event s' (List.mem_append_left _ hmem)
      have hevent : R event.2 ∧ I last := by
        obtain ⟨tag, event⟩ := event
        cases tag with
        | none =>
            have hout : outside event.1 := h.outside (none, event) (by simp) rfl
            exact houtside middle event last hout hmiddle hstep
        | some task =>
            refine htask task (eventsOf task events) middle event last (by simp) ?_ ?_ hmiddle hstep
            · intro earlier hearlier
              exact hall _ (mem_of_mem_eventsOf hearlier)
            · rw [← eventsOf_append]
              exact h.justified (hmeets task)
      refine ⟨?_, hevent.2⟩
      intro other hother
      rcases List.mem_append.mp hother with hother | hother
      · exact hall other hother
      · rw [List.mem_singleton.mp hother]
        exact hevent.1

/-- What holds of the state and of all answers, when it is kept by every event that is justified by
answers of which it holds. -/
theorem invariant {P : Trace ι ρ → ι → Prop} {R : ι × ρ → Prop} {I : σ → Prop}
    (h : Executes step outside tasks first events last)
    (hmeets : ∀ task, Meets P [] (tasks task) fun _ _ => True) (hfirst : I first)
    (htask : ∀ past s event s', (∀ earlier ∈ past, R earlier) → P past event.1 → I s →
      step s event s' → R event ∧ I s')
    (houtside : ∀ s event s', outside event.1 → I s → step s event s' → R event ∧ I s') :
    (∀ event ∈ events, R event.2) ∧ I last := by
  rw [← List.nil_append events] at h
  apply h.invariant_after hmeets ?_ ?_ houtside
  · intro middle hmiddle
    rw [show middle = first from hmiddle]
    exact hfirst
  · intro task recent s event s' _ hrecent hjustified
    exact htask recent s event s' hrecent hjustified

end Executes

end

end NixCache.Lib
