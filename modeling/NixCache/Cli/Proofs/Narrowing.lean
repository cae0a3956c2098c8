import NixCache.Cli.Proofs.Invocation
import NixCache.Cli.Proofs.Values
/-!
# Bounds and the other filters

A size or a time bound is one reason among others: it narrows a selection only where no other
reason can match outside it.
-/

namespace NixCache.Cli

open NixCache.Lib NixCache.Lib.Result NixCache.Core

namespace Selection

abbrev older (sel : Selection) : Option Int := sel.bound .olderThan

abbrev newer (sel : Selection) : Option Int := sel.bound .newerThan

abbrev minSize (sel : Selection) : Option UInt64 := sel.bound .minSize

abbrev maxSize (sel : Selection) : Option UInt64 := sel.bound .maxSize

/-- The size satisfies the bounds that were given. -/
def SizeWithin (sel : Selection) (size : UInt64) : Prop :=
  (∀ min ∈ sel.minSize, min ≤ size) ∧ ∀ max ∈ sel.maxSize, size ≤ max

/-- The instant lies before `older` and after `newer`, as far as they were given. -/
def TimeWithin (sel : Selection) (instant : Int) : Prop :=
  (∀ older ∈ sel.older, instant < older) ∧ ∀ newer ∈ sel.newer, newer < instant

/-- Some time bound was given. -/
def Timed (sel : Selection) : Prop := sel.timeFilter ≠ none

/-- One of the two size bounds was given. -/
def OneSizeBound (sel : Selection) : Prop := sel.minSize.isSome ≠ sel.maxSize.isSome

variable {X : Crates} {sel : Selection} {hash : StoreHash} {entry : IndexEntry}

/-! ## The two filters -/

theorem matches_iff_sizeWithin {filter : SizeFilter} (h : filter ∈ sel.sizeFilter)
    (size : UInt64) : filter.matches size = true ↔ sel.SizeWithin size := by
  unfold sizeFilter sizeFilterOf at h
  unfold SizeWithin minSize maxSize
  cases hmin : sel.bound .minSize <;> cases hmax : sel.bound .maxSize <;>
    rw [hmin, hmax] at h <;> cases h <;> simp [SizeFilter.matches]

theorem sizeFilter_eq_none : sel.sizeFilter = none ↔ sel.minSize = none ∧ sel.maxSize = none := by
  unfold sizeFilter sizeFilterOf minSize maxSize
  cases sel.bound .minSize <;> cases sel.bound .maxSize <;> simp

theorem timeFilter_eq_none : sel.timeFilter = none ↔ sel.older = none ∧ sel.newer = none := by
  unfold timeFilter timeFilterOf older newer
  cases sel.bound .olderThan <;> cases sel.bound .newerThan <;> simp

/-- Between two strict bounds the inclusive range matches, whatever its order. -/
theorem matches_of_timeWithin {filter : TimeFilter} (h : filter ∈ sel.timeFilter) {instant : Int}
    (hwithin : sel.TimeWithin instant) : filter.matches instant = true := by
  obtain ⟨holder, hnewer⟩ := hwithin
  unfold timeFilter timeFilterOf at h
  unfold older at holder
  unfold newer at hnewer
  cases hold : sel.bound .olderThan with
  | none =>
      cases hnew : sel.bound .newerThan with
      | none => simp [hold, hnew] at h
      | some n =>
          rw [hold, hnew] at h
          cases h
          simpa [TimeFilter.matches] using hnewer n hnew
  | some o =>
      have hbefore := holder o hold
      cases hnew : sel.bound .newerThan with
      | none =>
          rw [hold, hnew] at h
          cases h
          simpa [TimeFilter.matches] using hbefore
      | some n =>
          have hafter := hnewer n hnew
          have hle : n ≤ o := le_of_lt (lt_trans hafter hbefore)
          rw [hold, hnew] at h
          simp only [hle, if_true, Option.mem_def, Option.some.injEq] at h
          subst h
          simpa [TimeFilter.matches] using ⟨le_of_lt hafter, le_of_lt hbefore⟩

theorem sizeMatches_iff : sel.predicates.sizeMatches entry = true ↔
    ∃ filter ∈ sel.sizeFilter, filter.matches entry.narSize = true := by
  simp [FilterPredicates.sizeMatches, predicates, Option.any_eq_true]

theorem timeMatches_iff : sel.predicates.timeMatches X entry = true ↔
    ∃ instant, X.parseFromRfc3339 entry.added = some instant ∧
      ∃ filter ∈ sel.timeFilter, filter.matches instant = true := by
  unfold FilterPredicates.timeMatches predicates
  cases sel.timeFilter <;> cases X.parseFromRfc3339 entry.added <;> simp

theorem hasItemFilters_iff : sel.predicates.hasItemFilters = true ↔
    sel.predicates.HasItems ∨ sel.Timed ∨ sel.sizeFilter ≠ none := by
  simp only [FilterPredicates.hasItemFilters, FilterPredicates.HasItems, Timed, predicates,
    decide_eq_true_eq, Option.isSome_iff_ne_none]
  tauto

theorem hasItems_of_itemReason (h : sel.predicates.ItemReason hash entry) :
    sel.predicates.HasItems := by
  unfold FilterPredicates.HasItems
  rcases h with hhash | hpattern | hjob | hrun
  · refine Or.inl (Finset.ne_empty_of_mem (a := hash) ?_)
    simpa [FilterPredicates.hashMatches] using hhash
  · obtain ⟨pattern, hmem, -⟩ := List.any_eq_true.mp hpattern
    exact Or.inr (Or.inl (List.ne_nil_of_mem hmem))
  · simp only [FilterPredicates.jobMatches, Option.any_eq_true, decide_eq_true_eq] at hjob
    obtain ⟨origin, -, job, -, hmem⟩ := hjob
    exact Or.inr (Or.inr (Or.inl (Finset.ne_empty_of_mem hmem)))
  · simp only [FilterPredicates.runMatches, Option.any_eq_true, decide_eq_true_eq] at hrun
    obtain ⟨origin, -, run, -, hmem⟩ := hrun
    exact Or.inr (Or.inr (Or.inr (Finset.ne_empty_of_mem hmem)))

/-! ## When the bounds decide -/

/-- The entry satisfies every bound that was given. -/
structure BoundsHold (X : Crates) (sel : Selection) (entry : IndexEntry) : Prop where
  size : sel.SizeWithin entry.narSize
  older : ∀ older ∈ sel.older, ∃ added, X.parseFromRfc3339 entry.added = some added ∧ added < older
  newer : ∀ newer ∈ sel.newer, ∃ added, X.parseFromRfc3339 entry.added = some added ∧ newer < added

/-- No reason matches outside the bounds. -/
structure BoundsDecide (X : Crates) (sel : Selection) : Prop where
  /-- Beside hashes, patterns, jobs or runs there is no time bound, and every size is in bounds. -/
  items : sel.predicates.HasItems → (∀ size, sel.SizeWithin size) ∧ ¬ sel.Timed
  /-- Beside sizes that can match there is no time bound. -/
  sizes : (∃ filter ∈ sel.sizeFilter, ∃ size, filter.matches size = true) → ¬ sel.Timed
  /-- The times that match are in bounds, and beside them every size is. -/
  times : ∀ text instant, X.parseFromRfc3339 text = some instant →
    (∃ filter ∈ sel.timeFilter, filter.matches instant = true) →
    (∀ size, sel.SizeWithin size) ∧ sel.TimeWithin instant

theorem not_timed_of (hnone : X.parseFromRfc3339 entry.added = none)
    (h : sel.BoundsHold X entry) : ¬ sel.Timed := by
  rw [Timed, ne_eq, timeFilter_eq_none, not_not]
  constructor
  · apply Option.eq_none_iff_forall_not_mem.mpr
    intro older holder
    obtain ⟨added, hadded, -⟩ := h.older older holder
    rw [hnone] at hadded
    cases hadded
  · apply Option.eq_none_iff_forall_not_mem.mpr
    intro newer hnewer
    obtain ⟨added, hadded, -⟩ := h.newer newer hnewer
    rw [hnone] at hadded
    cases hadded

theorem boundsHold_of_not_timed (htimed : ¬ sel.Timed) (hsize : sel.SizeWithin entry.narSize) :
    sel.BoundsHold X entry := by
  obtain ⟨holder, hnewer⟩ := timeFilter_eq_none.mp (not_not.mp htimed)
  exact ⟨hsize, by simp [holder], by simp [hnewer]⟩

/-- The entries that match satisfy the bounds exactly when the bounds decide. -/
theorem boundsHold_iff (hblank : X.parseFromRfc3339 "" = none) :
    (∀ hash entry, sel.predicates.Matches X hash entry → sel.BoundsHold X entry) ↔
      sel.BoundsDecide X := by
  constructor
  · intro hkeeps
    refine ⟨fun hitems => ?_, ?_, ?_⟩
    · have hmatch : ∀ size, ∃ entry : IndexEntry, entry.narSize = size ∧ entry.added = "" ∧
          sel.BoundsHold X entry := by
        intro size
        obtain ⟨hash, entry, hreason, hsystem, hsize, hadded⟩ :=
          sel.predicates.exists_itemReason hitems size ""
        exact ⟨entry, hsize, hadded, hkeeps hash entry
          (FilterPredicates.matches_iff.mpr ⟨hsystem, fun _ => Or.inl hreason⟩)⟩
      constructor
      · intro size
        obtain ⟨entry, rfl, -, hbounds⟩ := hmatch size
        exact hbounds.size
      · obtain ⟨entry, -, hadded, hbounds⟩ := hmatch 0
        exact not_timed_of (by rw [hadded, hblank]) hbounds
    · rintro ⟨filter, hfilter, size, hmatches⟩
      obtain ⟨system, hsystem⟩ := exists_systemAllowed sel.predicates.systems
      have hentry : sel.predicates.sizeMatches (plainEntry "" system size "" none) = true :=
        sizeMatches_iff.mpr ⟨filter, hfilter, hmatches⟩
      exact not_timed_of hblank (hkeeps ⟨""⟩ (plainEntry "" system size "" none)
        (FilterPredicates.matches_iff.mpr ⟨hsystem, fun _ => Or.inr (Or.inr hentry)⟩))
    · intro text instant hparse hmatches
      obtain ⟨system, hsystem⟩ := exists_systemAllowed sel.predicates.systems
      have hbounds : ∀ size, sel.BoundsHold X (plainEntry "" system size text none) := by
        intro size
        have hentry : sel.predicates.timeMatches X (plainEntry "" system size text none) = true :=
          timeMatches_iff.mpr ⟨instant, hparse, hmatches⟩
        exact hkeeps ⟨""⟩ _
          (FilterPredicates.matches_iff.mpr ⟨hsystem, fun _ => Or.inr (Or.inl hentry)⟩)
      refine ⟨fun size => (hbounds size).size, fun older holder => ?_, fun newer hnewer => ?_⟩
      · obtain ⟨added, hadded, hlt⟩ := (hbounds 0).older older holder
        cases hparse.symm.trans hadded
        exact hlt
      · obtain ⟨added, hadded, hlt⟩ := (hbounds 0).newer newer hnewer
        cases hparse.symm.trans hadded
        exact hlt
  · intro hdecide hash entry hmatches
    by_cases hfilters : sel.predicates.hasItemFilters = true
    · rcases (FilterPredicates.matches_iff.mp hmatches).2 hfilters with hitem | htime | hsize
      · obtain ⟨hfree, htimed⟩ := hdecide.items (hasItems_of_itemReason hitem)
        exact boundsHold_of_not_timed htimed (hfree _)
      · obtain ⟨instant, hparse, hfilter⟩ := timeMatches_iff.mp htime
        obtain ⟨hfree, holder, hnewer⟩ := hdecide.times _ instant hparse hfilter
        exact ⟨hfree _, fun older h => ⟨instant, hparse, holder older h⟩,
          fun newer h => ⟨instant, hparse, hnewer newer h⟩⟩
      · obtain ⟨filter, hfilter, hsizes⟩ := sizeMatches_iff.mp hsize
        exact boundsHold_of_not_timed (hdecide.sizes ⟨filter, hfilter, _, hsizes⟩)
          ((matches_iff_sizeWithin hfilter _).mp hsizes)
    · rw [hasItemFilters_iff] at hfilters
      push Not at hfilters
      obtain ⟨-, htimed, hsizes⟩ := hfilters
      obtain ⟨hmin, hmax⟩ := sizeFilter_eq_none.mp (by simpa using hsizes)
      exact boundsHold_of_not_timed htimed ⟨by simp [hmin], by simp [hmax]⟩

/-! ## Without one bound -/

theorem SizeWithin.setBound_none {size : UInt64} (h : sel.SizeWithin size) (bound : Bound) :
    (sel.setBound bound none).SizeWithin size := by
  obtain ⟨hmin, hmax⟩ := h
  cases bound
  · exact ⟨hmin, hmax⟩
  · exact ⟨hmin, hmax⟩
  · exact ⟨by simp [minSize], hmax⟩
  · exact ⟨hmin, by simp [maxSize]⟩

theorem TimeWithin.setBound_none {instant : Int} (h : sel.TimeWithin instant) (bound : Bound) :
    (sel.setBound bound none).TimeWithin instant := by
  obtain ⟨holder, hnewer⟩ := h
  cases bound
  · exact ⟨by simp [older], hnewer⟩
  · exact ⟨holder, by simp [newer]⟩
  · exact ⟨holder, hnewer⟩
  · exact ⟨holder, hnewer⟩

theorem Timed.of_setBound_none {bound : Bound} (h : (sel.setBound bound none).Timed) :
    sel.Timed := by
  intro hnone
  obtain ⟨holder, hnewer⟩ := timeFilter_eq_none.mp hnone
  refine h (timeFilter_eq_none.mpr ?_)
  cases bound
  · exact ⟨setBound_same .., hnewer⟩
  · exact ⟨holder, setBound_same ..⟩
  · exact ⟨holder, hnewer⟩
  · exact ⟨holder, hnewer⟩

/-- A size filter that is gone without one bound rested on that bound alone. -/
theorem oneSizeBound_of_setBound_none {bound : Bound} {filter : SizeFilter}
    (hfilter : filter ∈ sel.sizeFilter) (hnone : (sel.setBound bound none).sizeFilter = none) :
    sel.OneSizeBound := by
  obtain ⟨hmin, hmax⟩ := sizeFilter_eq_none.mp hnone
  have hsome : ¬ (sel.minSize = none ∧ sel.maxSize = none) := by
    rw [← sizeFilter_eq_none, Option.mem_def.mp hfilter]
    exact Option.some_ne_none filter
  unfold OneSizeBound
  intro hsame
  cases bound
  · exact hsome ⟨hmin, hmax⟩
  · exact hsome ⟨hmin, hmax⟩
  · have hmax' : sel.maxSize = none := hmax
    exact hsome ⟨by simpa [hmax'] using hsame, hmax'⟩
  · have hmin' : sel.minSize = none := hmin
    exact hsome ⟨hmin', by simpa [hmin'] using hsame.symm⟩

/-- Where the bounds decide, a selection without one of them still matches what it matched, unless
the only size bound was an alternative to other reasons. -/
theorem BoundsDecide.matchedBy_setBound_none (hdecide : sel.BoundsDecide X) (bound : Bound)
    (halone : sel.predicates.HasItems → sel.OneSizeBound → "" ∈ sel.patterns) :
    sel.MatchedBy X (sel.setBound bound none) := by
  intro hash entry hmatches
  obtain ⟨hsystem, hreason⟩ := FilterPredicates.matches_iff.mp hmatches
  refine FilterPredicates.matches_iff.mpr ⟨hsystem, fun hfilters => ?_⟩
  have hitems : (sel.setBound bound none).predicates.HasItems ↔ sel.predicates.HasItems := Iff.rfl
  have hfilters' := hasItemFilters_iff.mp hfilters
  have hreasons := hreason (hasItemFilters_iff.mpr (by
    rcases hfilters' with h | h | h
    · exact Or.inl h
    · exact Or.inr (Or.inl h.of_setBound_none)
    · refine Or.inr (Or.inr fun hnone => h (sizeFilter_eq_none.mpr ?_))
      obtain ⟨hmin, hmax⟩ := sizeFilter_eq_none.mp hnone
      cases bound
      · exact ⟨hmin, hmax⟩
      · exact ⟨hmin, hmax⟩
      · exact ⟨setBound_same .., hmax⟩
      · exact ⟨hmin, setBound_same ..⟩))
  rcases hreasons with hitem | htime | hsize
  · exact Or.inl hitem
  · obtain ⟨instant, hparse, hfilter⟩ := timeMatches_iff.mp htime
    obtain ⟨hfree, hwithin⟩ := hdecide.times _ instant hparse hfilter
    rcases hfilters' with h | h | h
    · obtain ⟨filter, hsome, -⟩ := hfilter
      exact absurd (by rw [Timed, Option.mem_def.mp hsome]; simp) (hdecide.items h).2
    · obtain ⟨filter, hfilter'⟩ := Option.ne_none_iff_exists'.mp h
      exact Or.inr (Or.inl (timeMatches_iff.mpr ⟨instant, hparse, filter, hfilter',
        matches_of_timeWithin hfilter' (hwithin.setBound_none bound)⟩))
    · obtain ⟨filter, hfilter'⟩ := Option.ne_none_iff_exists'.mp h
      exact Or.inr (Or.inr (sizeMatches_iff.mpr ⟨filter, hfilter',
        (matches_iff_sizeWithin hfilter' _).mpr ((hfree _).setBound_none bound)⟩))
  · obtain ⟨filter, hfilter, hmatch⟩ := sizeMatches_iff.mp hsize
    have htimed := hdecide.sizes ⟨filter, hfilter, _, hmatch⟩
    cases hfilter' : (sel.setBound bound none).sizeFilter with
    | some filter' =>
        have hwithin := (matches_iff_sizeWithin hfilter _).mp hmatch
        exact Or.inr (Or.inr (sizeMatches_iff.mpr ⟨filter', hfilter',
          (matches_iff_sizeWithin hfilter' _).mpr (hwithin.setBound_none bound)⟩))
    | none =>
        -- only the hashes, patterns, jobs and runs are left
        rcases hfilters' with h | h | h
        · exact Or.inl (FilterPredicates.itemReason_of_empty_mem
            (halone h (oneSizeBound_of_setBound_none hfilter hfilter')) hash entry)
        · exact absurd h.of_setBound_none htimed
        · exact absurd hfilter' h

/-- Beside other reasons a single size bound adds entries, unless a pattern is empty. -/
theorem empty_mem_of_matchedBy (hblank : X.parseFromRfc3339 "" = none)
    (hitems : sel.predicates.HasItems) (hone : sel.OneSizeBound)
    (h : ∀ bound, sel.MatchedBy X (sel.setBound bound none)) : "" ∈ sel.patterns := by
  obtain ⟨bound, filter, size, hfilter, hmatch, hnone⟩ : ∃ bound filter size,
      filter ∈ sel.sizeFilter ∧ filter.matches size = true ∧
        (sel.setBound bound none).sizeFilter = none := by
    cases hmin : sel.minSize with
    | none =>
        cases hmax : sel.maxSize with
        | none => simp [OneSizeBound, hmin, hmax] at hone
        | some max =>
            exact ⟨.maxSize, .maxBytes max, max, by simp [sizeFilter, sizeFilterOf, hmin, hmax],
              by simp [SizeFilter.matches], sizeFilter_eq_none.mpr ⟨hmin, setBound_same ..⟩⟩
    | some min =>
        cases hmax : sel.maxSize with
        | none =>
            exact ⟨.minSize, .minBytes min, min, by simp [sizeFilter, sizeFilterOf, hmin, hmax],
              by simp [SizeFilter.matches], sizeFilter_eq_none.mpr ⟨setBound_same .., hmax⟩⟩
        | some max => simp [OneSizeBound, hmin, hmax] at hone
  by_contra hempty
  obtain ⟨hash, entry, hitem, hsystem, rfl, hadded⟩ :=
    sel.predicates.exists_no_itemReason hempty size ""
  have hbefore : sel.predicates.Matches X hash entry := FilterPredicates.matches_iff.mpr
    ⟨hsystem, fun _ => Or.inr (Or.inr (sizeMatches_iff.mpr ⟨filter, hfilter, hmatch⟩))⟩
  obtain ⟨-, hreason⟩ := FilterPredicates.matches_iff.mp (h bound hash entry hbefore)
  rcases hreason (hasItemFilters_iff.mpr (Or.inl hitems)) with h | h | h
  · exact hitem h
  · obtain ⟨instant, hparse, -⟩ := timeMatches_iff.mp h
    rw [hadded, hblank] at hparse
    cases hparse
  · obtain ⟨filter', hfilter', -⟩ := sizeMatches_iff.mp h
    rw [hnone] at hfilter'
    cases hfilter'

end Selection

/-! ## Invocations -/

namespace Invocation

/-- The selector that the arguments make. -/
def selector (inv : Invocation) (defaultCascade : CascadeMode) (policy : DefaultScopePolicy) :
    Except Failure CacheSelector :=
  inv.args.toSelectorWithPolicy inv.host inv.extraHashes defaultCascade policy

/-- The entry was added before `--older-than` and after `--newer-than`, and its size lies between
`--min-size` and `--max-size`, as far as these are given. -/
structure SatisfiesBounds (inv : Invocation) (entry : IndexEntry) : Prop where
  olderThan : ∀ older, inv.args.resolveOlderThan inv.host = .ok (some older) →
    ∃ added, inv.host.crates.parseFromRfc3339 entry.added = some added ∧ added < older
  newerThan : ∀ newer, inv.args.resolveNewerThan inv.host = .ok (some newer) →
    ∃ added, inv.host.crates.parseFromRfc3339 entry.added = some added ∧ newer < added
  minSize : ∀ min, inv.args.resolveMinSize inv.host = .ok (some min) → min ≤ entry.narSize
  maxSize : ∀ max, inv.args.resolveMaxSize inv.host = .ok (some max) → entry.narSize ≤ max

structure FiltersNarrow (inv : Invocation) : Prop where
  /-- What the predicates match satisfies the bounds. -/
  bounded : ∀ predicates, inv.args.resolvePredicates inv.host inv.extraHashes = .ok predicates →
    ∀ hash entry reasons, predicates.evaluateEntry inv.host.crates hash entry = some reasons →
      inv.SatisfiesBounds entry
  /-- A selection that has all but one of the bounds starts from no less. -/
  adds_nothing : ∀ bound defaultCascade policy narrow wide,
    inv.selector defaultCascade policy = .ok narrow →
    (inv.dropText bound).selector defaultCascade policy = .ok wide → wide.scope ≠ .none →
    Covers inv.host.crates narrow wide

variable {inv : Invocation} {sel : Selection}

theorem satisfiesBounds_iff (hread : inv.read = .ok sel) (entry : IndexEntry) :
    inv.SatisfiesBounds entry ↔ sel.BoundsHold inv.host.crates entry := by
  have hbound := (read_eq_ok.mp hread).bound
  have holder : ∀ value, inv.args.resolveOlderThan inv.host = .ok (some value) ↔
      value ∈ sel.older := fun value => by
    rw [show inv.args.resolveOlderThan inv.host = .ok sel.older from hbound .olderThan]
    simp
  have hnewer : ∀ value, inv.args.resolveNewerThan inv.host = .ok (some value) ↔
      value ∈ sel.newer := fun value => by
    rw [show inv.args.resolveNewerThan inv.host = .ok sel.newer from hbound .newerThan]
    simp
  have hmin : ∀ value, inv.args.resolveMinSize inv.host = .ok (some value) ↔
      value ∈ sel.minSize := fun value => by
    rw [show inv.args.resolveMinSize inv.host = .ok sel.minSize from hbound .minSize]
    simp
  have hmax : ∀ value, inv.args.resolveMaxSize inv.host = .ok (some value) ↔
      value ∈ sel.maxSize := fun value => by
    rw [show inv.args.resolveMaxSize inv.host = .ok sel.maxSize from hbound .maxSize]
    simp
  constructor
  · rintro ⟨h1, h2, h3, h4⟩
    exact ⟨⟨fun v hv => h3 v ((hmin v).mpr hv), fun v hv => h4 v ((hmax v).mpr hv)⟩,
      fun v hv => h1 v ((holder v).mpr hv), fun v hv => h2 v ((hnewer v).mpr hv)⟩
  · rintro ⟨⟨h3, h4⟩, h1, h2⟩
    exact ⟨fun v hv => h1 v ((holder v).mp hv), fun v hv => h2 v ((hnewer v).mp hv),
      fun v hv => h3 v ((hmin v).mp hv), fun v hv => h4 v ((hmax v).mp hv)⟩

theorem selector_eq_ok {defaultCascade : CascadeMode} {policy : DefaultScopePolicy}
    {selector : CacheSelector} : inv.selector defaultCascade policy = .ok selector ↔
      ∃ sel, inv.read = .ok sel ∧ inv.selectorOf defaultCascade policy sel = selector := by
  rw [Invocation.selector, toSelectorWithPolicy_eq, map_eq_ok]

theorem read_dropText (hread : inv.read = .ok sel) (bound : Bound) :
    (inv.dropText bound).read = .ok (sel.setBound bound none) := by
  refine (sameBut_dropText bound).read ?_ hread
  rw [readBound, text_dropText]
  rfl

theorem scope_selectAll_ne_none (inv : Invocation) (defaultCascade : CascadeMode)
    (sel : Selection) : (inv.selectorOf defaultCascade .selectAll sel).scope ≠ .none := by
  unfold selectorOf Selection.scope
  split_ifs <;> simp

theorem covers_dropText_iff {bound : Bound} {defaultCascade : CascadeMode}
    {policy : DefaultScopePolicy}
    (hsome : (inv.selectorOf defaultCascade policy sel).scope ≠ .none)
    (hsome' : ((inv.dropText bound).selectorOf defaultCascade policy
      (sel.setBound bound none)).scope ≠ .none) :
    Covers inv.host.crates (inv.selectorOf defaultCascade policy sel)
        ((inv.dropText bound).selectorOf defaultCascade policy (sel.setBound bound none)) ↔
      inv.args.resolveAll inv.host = true ∨
        sel.MatchedBy inv.host.crates (sel.setBound bound none) := by
  have hsettings : SameSettings inv (inv.dropText bound) := (sameBut_dropText bound).toSameSettings
  have hsystems : (sel.setBound bound none).systems = sel.systems := rfl
  exact hsettings.covers_iff hsystems inv.host.crates defaultCascade policy hsome hsome'

/-- Filters narrow exactly when the bounds decide and no size bound stands alone beside other
reasons. -/
theorem filtersNarrow_iff (hblank : inv.host.crates.parseFromRfc3339 "" = none) :
    inv.FiltersNarrow ↔ ∀ sel, inv.read = .ok sel → sel.BoundsDecide inv.host.crates ∧
      (inv.args.resolveAll inv.host = false → sel.predicates.HasItems → sel.OneSizeBound →
        "" ∈ sel.patterns) := by
  constructor
  · intro hnarrow sel hread
    refine ⟨(Selection.boundsHold_iff hblank).mp ?_, fun hall hitems hone => ?_⟩
    · intro hash entry hmatches
      obtain ⟨reasons, hreasons⟩ := Option.isSome_iff_exists.mp hmatches
      refine (satisfiesBounds_iff hread entry).mp
        (hnarrow.bounded sel.predicates ?_ hash entry reasons hreasons)
      rw [resolvePredicates_eq, hread]
      rfl
    · refine Selection.empty_mem_of_matchedBy hblank hitems hone fun bound => ?_
      have hcovers := hnarrow.adds_nothing bound .exact .selectAll _ _
        (selector_eq_ok.mpr ⟨sel, hread, rfl⟩)
        (selector_eq_ok.mpr ⟨_, read_dropText hread bound, rfl⟩) (scope_selectAll_ne_none _ _ _)
      have hmatched := (covers_dropText_iff (scope_selectAll_ne_none inv .exact sel)
        (scope_selectAll_ne_none _ _ _)).mp hcovers
      rw [hall] at hmatched
      simpa using hmatched
  · intro hdecide
    refine ⟨fun predicates hpredicates hash entry reasons hreasons => ?_, ?_⟩
    · rw [resolvePredicates_eq, map_eq_ok] at hpredicates
      obtain ⟨sel, hread, rfl⟩ := hpredicates
      exact (satisfiesBounds_iff hread entry).mpr ((Selection.boundsHold_iff hblank).mpr
        (hdecide sel hread).1 hash entry (Option.isSome_iff_exists.mpr ⟨reasons, hreasons⟩))
    · intro bound defaultCascade policy narrow wide hnarrow hwide hsome
      obtain ⟨sel, hread, rfl⟩ := selector_eq_ok.mp hnarrow
      obtain ⟨sel', hread', rfl⟩ := selector_eq_ok.mp hwide
      obtain rfl := Except.ok.inj ((read_dropText hread bound).symm.trans hread')
      by_cases hnone : (inv.selectorOf defaultCascade policy sel).scope = .none
      · exact covers_of_scope_none hnone
      · rw [covers_dropText_iff hnone hsome]
        cases hall : inv.args.resolveAll inv.host with
        | true => exact Or.inl rfl
        | false =>
            obtain ⟨hbounds, halone⟩ := hdecide sel hread
            exact Or.inr (hbounds.matchedBy_setBound_none bound (halone hall))

/-- `--min-size 1G` alone. -/
def sizeOnly : Invocation := ⟨sampleHost, { minSize := some "1G" }, []⟩

/-- `--min-size 1G` narrows when it is the only filter. -/
theorem filtersNarrow_sizeOnly : sizeOnly.FiltersNarrow := by
  refine (filtersNarrow_iff (by rfl)).mpr fun sel hread => ?_
  have hreads := read_eq_ok.mp hread
  have holder : sel.older = none := (Except.ok.inj (hreads.bound .olderThan)).symm
  have hnewer : sel.newer = none := (Except.ok.inj (hreads.bound .newerThan)).symm
  have htimed : sel.timeFilter = none := Selection.timeFilter_eq_none.mpr ⟨holder, hnewer⟩
  have hitems : ¬ sel.predicates.HasItems := by
    obtain ⟨hashes, hhashes, hsel⟩ := hreads.hashes
    obtain rfl : hashes = [] := (Except.ok.inj hhashes).symm
    have hpatterns : sel.patterns = [] := hreads.patterns
    have hjobs : sel.jobs = [] := hreads.jobs
    have hruns : sel.runs = [] := hreads.runs
    have hnone : sel.hashes = [] := hsel
    simp [FilterPredicates.HasItems, Selection.predicates, hnone, hpatterns, hjobs, hruns]
  exact ⟨⟨fun h => absurd h hitems, fun _ => by simp [Selection.Timed, htimed],
    fun _ _ _ h => by simp [htimed] at h⟩, fun _ h => absurd h hitems⟩

/-- `--patterns hello --min-size 1G`. -/
def patternAndSize : Invocation :=
  ⟨sampleHost, { patterns := ["hello"], minSize := some "1G" }, []⟩

/-- What `patternAndSize` reads. -/
def patternAndSizeSelection : Selection where
  hashes := []
  patterns := ["hello"]
  systems := []
  bound := fun
    | .olderThan | .newerThan | .maxSize => none
    | .minSize => some (1073741824 : UInt64)
  jobs := []
  runs := []

/-- With a pattern beside it, `--min-size 1G` lets an entry of 100 bytes match. -/
theorem patternAndSize_not_narrow :
    (∃ predicates, patternAndSize.args.resolvePredicates patternAndSize.host [] = .ok predicates ∧
      predicates.evaluateEntry sampleCrates (sampleHash '1') (sampleEntry '1' []) =
        some ["Pattern Match"]) ∧
      ¬ patternAndSize.SatisfiesBounds (sampleEntry '1' []) ∧ ¬ patternAndSize.FiltersNarrow := by
  have hmin : patternAndSize.readBound .minSize = .ok (some (1073741824 : UInt64)) := by
    have hparse : parseSizeStr sampleHost "1G" = .ok (some 1073741824) := by decide +kernel
    exact hparse
  have hread : patternAndSize.read = .ok patternAndSizeSelection := by
    refine read_eq_ok.mpr ⟨⟨[], rfl, rfl⟩, rfl, rfl, ?_, rfl, rfl⟩
    rintro (_ | _ | _ | _)
    · rfl
    · rfl
    · exact hmin
    · rfl
  have hpredicates : patternAndSize.args.resolvePredicates patternAndSize.host [] =
      .ok patternAndSizeSelection.predicates := by
    have heq := patternAndSize.resolvePredicates_eq
    rw [hread] at heq
    exact heq
  have hmatch : patternAndSizeSelection.predicates.evaluateEntry sampleCrates (sampleHash '1')
      (sampleEntry '1' []) = some ["Pattern Match"] := by decide +kernel
  have hbounds : ¬ patternAndSize.SatisfiesBounds (sampleEntry '1' []) := fun h =>
    absurd (h.minSize 1073741824 hmin) (by decide)
  exact ⟨⟨_, hpredicates, hmatch⟩, hbounds,
    fun h => hbounds (h.bounded _ hpredicates _ _ _ hmatch)⟩

end Invocation

end NixCache.Cli
