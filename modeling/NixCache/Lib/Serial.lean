import NixCache.Lib.Program
/-!
# Serial replacement of one cell

Several parties change a shared state, which holds a cell.  The commits of a run replace the content
of the cell one after the other; a run in which every commit replaces what it was made for is a
serial history of the cell.
-/

namespace NixCache.Lib

open Program (Follows Trace)

variable {κ γ σ ι ρ : Type}

/-- Starting from `content`, the commits replace the content of a cell in turn. -/
def Serial (replaces : κ → Option γ → γ → Prop) : Option γ → List κ → Option γ → Prop
  | content, [], final => final = content
  | content, commit :: rest, final =>
      ∃ next, replaces commit content next ∧ Serial replaces (some next) rest final

namespace Serial

/-- A run is a serial history when each of its events leaves the cell alone or is a commit that
replaces what the cell held. -/
theorem of_follows {step : σ → ι × ρ → σ → Prop} {replaces : κ → Option γ → γ → Prop}
    {before after : σ} {events : Trace ι ρ} (cell : σ → Option γ) (commit : ι × ρ → Option κ)
    (hfollows : Follows step before events after)
    (hstep : ∀ s event s', event ∈ events → step s event s' →
      match commit event with
      | none => cell s' = cell s
      | some k => ∃ next, replaces k (cell s) next ∧ cell s' = some next) :
    Serial replaces (cell before) (events.filterMap commit) (cell after) := by
  induction events generalizing before with
  | nil =>
      obtain rfl := hfollows
      rfl
  | cons event events ih =>
      obtain ⟨middle, hfirst, hrest⟩ := hfollows
      have hhead := hstep before event middle (by simp) hfirst
      have htail := ih hrest fun s e s' he => hstep s e s' (by simp [he])
      cases hcommit : commit event with
      | none =>
          rw [hcommit] at hhead
          rw [List.filterMap_cons_none hcommit, ← hhead]
          exact htail
      | some k =>
          rw [hcommit] at hhead
          obtain ⟨next, hreplaces, hnext⟩ := hhead
          rw [List.filterMap_cons_some hcommit]
          exact ⟨next, hreplaces, hnext ▸ htail⟩

end Serial

end NixCache.Lib
