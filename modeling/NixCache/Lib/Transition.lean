import Mathlib.Logic.Relation
import Mathlib.Data.List.Basic
/-!
# Runs of a labelled relation

A run is a sequence of labelled steps with the list of its labels.  Facts about whole runs come from
facts about one step: invariants over the labels and the state, facts that are kept once they hold,
and the runs of one system as the runs of another.
-/

namespace NixCache.Lib.Transition

variable {σ τ ε δ : Type}

/-- The runs from `first`, with their labels in order. -/
inductive Run (step : σ → ε → σ → Prop) (first : σ) : List ε → σ → Prop where
  | nil : Run step first [] first
  | snoc {labels : List ε} {s t : σ} {label : ε} : Run step first labels s → step s label t →
      Run step first (labels ++ [label]) t

namespace Run

variable {step : σ → ε → σ → Prop} {first s t : σ} {labels more : List ε}

theorem single {label : ε} (h : step first label t) : Run step first [label] t :=
  .snoc .nil h

theorem append (h : Run step first labels s) (h' : Run step s more t) :
    Run step first (labels ++ more) t := by
  induction h' with
  | nil => simpa using h
  | snoc _ hstep ih =>
      rw [← List.append_assoc]
      exact .snoc ih hstep

/-- A run passes through a state wherever its labels are cut. -/
theorem split (h : Run step first (labels ++ more) t) :
    ∃ s, Run step first labels s ∧ Run step s more t := by
  generalize hall : labels ++ more = all at h
  induction h generalizing labels more with
  | nil =>
      obtain ⟨rfl, rfl⟩ := List.append_eq_nil_iff.mp hall
      exact ⟨first, .nil, .nil⟩
  | @snoc before s t label hrun hstep ih =>
      rcases List.eq_nil_or_concat more with rfl | ⟨rest, last, rfl⟩
      · rw [List.append_nil] at hall
        subst hall
        exact ⟨t, .snoc hrun hstep, .nil⟩
      · rw [List.concat_eq_append] at hall ⊢
        rw [← List.append_assoc] at hall
        obtain ⟨rfl, hlast⟩ := List.append_inj' hall rfl
        obtain rfl := List.singleton_inj.mp hlast
        obtain ⟨m, hleft, hright⟩ := ih rfl
        exact ⟨m, hleft, .snoc hright hstep⟩

/-- The last step of a run. -/
theorem last {label : ε} (h : Run step first (labels ++ [label]) t) :
    ∃ s, Run step first labels s ∧ step s label t := by
  generalize hall : labels ++ [label] = all at h
  cases h with
  | nil => simp at hall
  | @snoc before s _ last hrun hstep =>
      obtain ⟨rfl, hlast⟩ := List.append_inj' hall rfl
      obtain rfl := List.singleton_inj.mp hlast
      exact ⟨s, hrun, hstep⟩

/-- What holds at first and is kept by every step holds after every run. -/
theorem invariant {I : List ε → σ → Prop} (h : Run step first labels t) (hfirst : I [] first)
    (hstep : ∀ labels s label t, Run step first labels s → I labels s → step s label t →
      I (labels ++ [label]) t) : I labels t := by
  induction h with
  | nil => exact hfirst
  | snoc hrun h ih => exact hstep _ _ _ _ hrun ih h

/-- What every step keeps is kept by every run. -/
theorem stable {P : σ → Prop} (h : Run step s labels t)
    (hstep : ∀ s label t, P s → step s label t → P t) (hs : P s) : P t :=
  h.invariant (I := fun _ s => P s) hs fun _ s label t _ hP h => hstep s label t hP h

/-- When every step of one system is a step of another or leaves it as it is, its runs are runs of
the other. -/
theorem simulate {step' : τ → δ → τ → Prop} (f : σ → τ) (h : Run step first labels t)
    (hstep : ∀ s label t, step s label t → f t = f s ∨ ∃ label', step' (f s) label' (f t)) :
    ∃ labels', Run step' (f first) labels' (f t) := by
  induction h with
  | nil => exact ⟨[], .nil⟩
  | @snoc _ s t label _ h ih =>
      obtain ⟨labels', hrun⟩ := ih
      rcases hstep s label t h with heq | ⟨label', h'⟩
      · rw [heq]
        exact ⟨labels', hrun⟩
      · exact ⟨labels' ++ [label'], .snoc hrun h'⟩

end Run

end NixCache.Lib.Transition
