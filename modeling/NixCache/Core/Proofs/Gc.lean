import NixCache.Core.Proofs.Pruning
/-!
# Garbage collection over many runs

Each collection protects the closure of the roots it is given and hands the next one the roots that
are still sound.  A root with a reference the index cannot resolve is protected by the first run
and dropped by it, so a later run may remove its closure.
-/

namespace NixCache.Core

open NixCache.Lib NixCache.Lib.Result NixCache.Lib.Worklist

variable {X : Crates} {entries : HashMap StoreHash IndexEntry}
  {gcRoots : HashMap SystemArch (List StoreHash)} {selector : CacheSelector}
  {result : PurgeEvaluationResult}

/-! ## One collection -/

/-- Predicates with nothing but a time range match on that range alone. -/
theorem evaluateEntry_timeFilter (filter : TimeFilter) (hash : StoreHash) (entry : IndexEntry) :
    ({ timeFilter := some filter } : FilterPredicates).evaluateEntry X hash entry =
      if (X.parseFromRfc3339 entry.added).any filter.matches then some ["Time Range Match"]
      else none := by
  have htime : ({ timeFilter := some filter } : FilterPredicates).timeMatches X entry =
      (X.parseFromRfc3339 entry.added).any filter.matches := by
    cases hparse : X.parseFromRfc3339 entry.added <;> simp [FilterPredicates.timeMatches, hparse]
  have hreasons : ({ timeFilter := some filter } : FilterPredicates).reasons X hash entry =
      if (X.parseFromRfc3339 entry.added).any filter.matches then ["Time Range Match"] else [] := by
    simp [FilterPredicates.reasons, FilterPredicates.hashMatches, FilterPredicates.patternMatches,
      FilterPredicates.sizeMatches, FilterPredicates.jobMatches, FilterPredicates.runMatches, htime]
  have hallowed : systemAllowed (∅ : Finset SystemArch) entry.system = true := by
    simp [systemAllowed]
  have hitem : ({ timeFilter := some filter } : FilterPredicates).hasItemFilters = true := by
    simp [FilterPredicates.hasItemFilters]
  rw [FilterPredicates.evaluateEntry, if_neg (not_not.mpr hallowed), if_neg (not_not.mpr hitem),
    hreasons]
  by_cases hmatch : (X.parseFromRfc3339 entry.added).any filter.matches = true
  · rw [if_pos hmatch, if_pos hmatch]
  · rw [if_neg hmatch, if_neg hmatch]

theorem scopeReason_gcSelector {cutoff : Int} {hash : StoreHash} {entry : IndexEntry} :
    ((gcSelector cutoff).scopeReason X hash entry).isSome ↔
      ∃ added, X.parseFromRfc3339 entry.added = some added ∧ added < cutoff := by
  have hscope : (gcSelector cutoff).scope = .filtered { timeFilter := some (.before cutoff) } := rfl
  rw [CacheSelector.scopeReason, hscope]
  simp [evaluateEntry_timeFilter, Option.any_eq_true, TimeFilter.matches]

theorem activeRoots_gcSelector (cutoff : Int) :
    activeRoots gcRoots (gcSelector cutoff) = allRoots gcRoots := by
  simp [activeRoots, allRoots, CacheSelector.activeGcRoots, CacheSelector.targetSystems, gcSelector,
    CacheSelector.withCascade, CacheSelector.withProtectGcRoots, CacheSelector.filtered,
    HashMap.filter]

theorem protected_gcSelector {cutoff : Int} {hash : StoreHash} :
    Protected entries gcRoots (gcSelector cutoff) hash ↔
      ReachableFrom entries (allRoots gcRoots) hash := by
  rw [Protected, activeRoots_gcSelector]
  exact and_iff_right rfl

/-- A collection removes the old entries outside the closure of all roots. -/
theorem selected_gcSelector {cutoff : Int} {hash : StoreHash} :
    Selected X entries gcRoots (gcSelector cutoff) hash ↔
      ∃ entry, entries.lookup hash = some entry ∧
        ¬ ReachableFrom entries (allRoots gcRoots) hash ∧
        ∃ added, X.parseFromRfc3339 entry.added = some added ∧ added < cutoff := by
  constructor
  · intro h
    cases h with
    | initial present outside inScope =>
        exact ⟨_, present, fun hreach => outside (protected_gcSelector.mpr hreach),
          scopeReason_gcSelector.mp inScope⟩
    | cascade _ edge _ => exact edge.elim
  · rintro ⟨entry, present, outside, hold⟩
    exact .initial present (fun hprot => outside (protected_gcSelector.mp hprot))
      (scopeReason_gcSelector.mpr hold)

theorem mem_allRoots_next (h : evaluateCachePurge X entries gcRoots selector = .ok result)
    {root : StoreHash} :
    root ∈ allRoots result.updatedGcRoots ↔ root ∈ allRoots gcRoots ∧
      ∀ hash, ReachableFrom entries [root] hash →
        hash ∈ entries ∧ ¬ Selected X entries gcRoots selector hash := by
  obtain ⟨query, hquery, -, -, -, -, hprune⟩ := evaluateCachePurge_eq_ok h
  rw [mem_allRoots_pruneBrokenGcRoots hprune]
  refine and_congr_right fun _ => forall_congr' fun hash => imp_congr_right fun _ => ?_
  refine and_congr_right fun hmem => not_congr ?_
  rw [List.mem_toFinset, ← AList.mem_keys, HashMap.mem_iff_lookup]
  simp only [lookup_matchedEntries hquery]
  obtain ⟨entry, hentry⟩ := HashMap.mem_iff_lookup.mp hmem
  simp [hentry]

/-! ## All collections -/

/-- The root's closure is complete in the index. -/
def SoundRoot (entries : HashMap StoreHash IndexEntry) (root : StoreHash) : Prop :=
  ∀ hash, ReachableFrom entries [root] hash → hash ∈ entries

/-- What every collection after `start` preserves. -/
structure ClosuresKept (start state : GcState) : Prop where
  shrinks : ∀ hash entry, state.entries.lookup hash = some entry →
    start.entries.lookup hash = some entry
  roots : ∀ root ∈ allRoots start.gcRoots, SoundRoot start.entries root →
    root ∈ allRoots state.gcRoots
  closures : ∀ root ∈ allRoots start.gcRoots, SoundRoot start.entries root →
    ∀ hash, ReachableFrom start.entries [root] hash →
      state.entries.lookup hash = start.entries.lookup hash

namespace ClosuresKept

variable {start state : GcState}

theorem refl (start : GcState) : ClosuresKept start start :=
  ⟨fun _ _ h => h, fun _ h _ => h, fun _ _ _ _ _ => rfl⟩

/-- In the closure of a sound root nothing has changed, so paths are the same. -/
theorem reachable_iff (kept : ClosuresKept start state) {root : StoreHash}
    (hroot : root ∈ allRoots start.gcRoots) (hsound : SoundRoot start.entries root)
    {hash : StoreHash} :
    ReachableFrom state.entries [root] hash ↔ ReachableFrom start.entries [root] hash := by
  have hrefs : ∀ x, ReachableFrom start.entries [root] x →
      references state.entries x = references start.entries x := by
    intro x hx
    rw [references, kept.closures root hroot hsound x hx, references]
  constructor
  · intro h
    refine Reaches.mem_of_closed (P := ReachableFrom start.entries [root]) (fun s hs => .seed hs)
      ?_ h
    intro x hx y hy
    rw [hrefs x hx] at hy
    exact hx.step hy
  · intro h
    have hboth : ReachableFrom start.entries [root] hash ∧
        ReachableFrom state.entries [root] hash := by
      refine Reaches.mem_of_closed (P := fun x => ReachableFrom start.entries [root] x ∧
        ReachableFrom state.entries [root] x) (fun s hs => ⟨.seed hs, .seed hs⟩) ?_ h
      rintro x ⟨hx, hx'⟩ y hy
      exact ⟨hx.step hy, hx'.step (by rw [hrefs x hx]; exact hy)⟩
    exact hboth.2

theorem reachable_all (kept : ClosuresKept start state) {root : StoreHash}
    (hroot : root ∈ allRoots start.gcRoots) (hsound : SoundRoot start.entries root)
    {hash : StoreHash} (h : ReachableFrom start.entries [root] hash) :
    ReachableFrom state.entries (allRoots state.gcRoots) hash := by
  obtain ⟨s, hs, hpath⟩ := (kept.reachable_iff hroot hsound).mpr h
  rw [List.mem_singleton] at hs
  subst hs
  exact ⟨s, kept.roots s hroot hsound, hpath⟩

theorem step (kept : ClosuresKept start state) {cutoff : Int}
    (h : evaluateCachePurge X state.entries state.gcRoots (gcSelector cutoff) = .ok result) :
    ClosuresKept start result.next := by
  have hprotected : ∀ root ∈ allRoots start.gcRoots, SoundRoot start.entries root →
      ∀ hash, ReachableFrom start.entries [root] hash →
        ¬ Selected X state.entries state.gcRoots (gcSelector cutoff) hash := by
    intro root hroot hsound hash hreach hsel
    obtain ⟨_, _, houtside, _⟩ := selected_gcSelector.mp hsel
    exact houtside (kept.reachable_all hroot hsound hreach)
  refine ⟨?_, ?_, ?_⟩
  · intro hash entry hentry
    exact kept.shrinks hash entry ((lookup_keptEntries h hash entry).mp hentry).1
  · intro root hroot hsound
    refine (mem_allRoots_next h).mpr ⟨kept.roots root hroot hsound, fun hash hreach => ?_⟩
    have hstart := (kept.reachable_iff hroot hsound).mp hreach
    refine ⟨?_, hprotected root hroot hsound hash hstart⟩
    rw [HashMap.mem_iff_lookup, kept.closures root hroot hsound hash hstart,
      ← HashMap.mem_iff_lookup]
    exact hsound hash hstart
  · intro root hroot hsound hash hreach
    apply Option.ext
    intro entry
    rw [← kept.closures root hroot hsound hash hreach]
    have hkept := lookup_keptEntries h hash entry
    have hnot := hprotected root hroot hsound hash hreach
    constructor
    · intro hentry
      exact (hkept.mp hentry).1
    · intro hentry
      exact hkept.mpr ⟨hentry, hnot⟩

end ClosuresKept

/-- No collection of any sequence removes an entry that the first roots reach. -/
def NeverRemovesReachable (X : Crates) (start : GcState) : Prop :=
  ∀ cutoffs results, collectGarbage X start cutoffs = .ok results → ∀ result ∈ results,
    ∀ hash entry, result.purgedEntries.lookup hash = some entry →
      ¬ ReachableFrom start.entries (allRoots start.gcRoots) hash

/-- Every reachable entry is in the closure of a root whose closure is complete, or carries a
timestamp that no cutoff applies to. -/
def SoundlyAnchored (X : Crates) (start : GcState) : Prop :=
  ∀ hash entry, start.entries.lookup hash = some entry →
    ReachableFrom start.entries (allRoots start.gcRoots) hash →
      (∃ root ∈ allRoots start.gcRoots, SoundRoot start.entries root ∧
        ReachableFrom start.entries [root] hash) ∨
      X.parseFromRfc3339 entry.added = none

theorem collectGarbage_keeps {start : GcState} (hanchored : SoundlyAnchored X start) :
    ∀ (cutoffs : List Int) {state : GcState} {results : List PurgeEvaluationResult},
      ClosuresKept start state → collectGarbage X state cutoffs = .ok results →
      ∀ result ∈ results, ∀ hash entry, result.purgedEntries.lookup hash = some entry →
        ¬ ReachableFrom start.entries (allRoots start.gcRoots) hash := by
  intro cutoffs
  induction cutoffs with
  | nil =>
      intro state results _ h result hresult
      cases h
      simp at hresult
  | cons cutoff cutoffs ih =>
      intro state results kept h
      simp only [collectGarbage, bind_eq_ok, pure_eq_ok] at h
      obtain ⟨first, hfirst, rest, hrest, rfl⟩ := h
      intro result hresult
      rcases List.mem_cons.mp hresult with rfl | hresult
      · intro hash entry hpurged hreach
        obtain ⟨hentry, hsel⟩ := (lookup_purgedEntries hfirst hash entry).mp hpurged
        obtain ⟨entry', hentry', houtside, added, hparse, -⟩ := selected_gcSelector.mp hsel
        rw [hentry] at hentry'
        cases hentry'
        rcases hanchored hash entry (kept.shrinks hash entry hentry) hreach with
          ⟨root, hroot, hsound, hpath⟩ | hnone
        · exact houtside (kept.reachable_all hroot hsound hpath)
        · rw [hparse] at hnone
          cases hnone
      · exact ih (kept.step hfirst) hrest result hresult

/-- Repeated garbage collection protects what the first roots reach exactly when, the references of
the index being readable, every reachable entry hangs from a root with a complete closure. -/
theorem collectGarbage_neverRemovesReachable_iff (X : Crates) (start : GcState) :
    NeverRemovesReachable X start ↔ (ReferencesParse start.entries → SoundlyAnchored X start) := by
  constructor
  · intro hnever hparse hash entry hentry hreach
    by_contra hcon
    rw [not_or] at hcon
    obtain ⟨hunsound, hadded⟩ := hcon
    obtain ⟨added, hadded⟩ := Option.ne_none_iff_exists'.mp hadded
    -- The first run drops every root that reaches `hash`; the second run removes it.
    obtain ⟨first, hfirst⟩ :=
      (evaluateCachePurge_ok_iff X start.gcRoots (gcSelector (added + 1))).mpr hparse
    have hkept : first.keptEntries.lookup hash = some entry := by
      refine (lookup_keptEntries hfirst hash entry).mpr ⟨hentry, fun hsel => ?_⟩
      obtain ⟨_, _, houtside, _⟩ := selected_gcSelector.mp hsel
      exact houtside hreach
    have hparse' : ReferencesParse first.keptEntries := fun hash' entry' hentry' =>
      hparse hash' entry' ((lookup_keptEntries hfirst hash' entry').mp hentry').1
    obtain ⟨second, hsecond⟩ :=
      (evaluateCachePurge_ok_iff X first.updatedGcRoots (gcSelector (added + 1))).mpr hparse'
    have hruns : collectGarbage X start [added + 1, added + 1] = .ok [first, second] := by
      simp [collectGarbage, hfirst, PurgeEvaluationResult.next, hsecond]
    refine hnever _ _ hruns second (by simp) hash entry ?_ hreach
    refine (lookup_purgedEntries hsecond hash entry).mpr ⟨hkept, selected_gcSelector.mpr
      ⟨entry, hkept, ?_, added, hadded, by omega⟩⟩
    rintro ⟨root, hroot, hpath⟩
    obtain ⟨hinit, hclosed⟩ := (mem_allRoots_next hfirst).mp hroot
    refine hunsound ⟨root, hinit, fun y hy => (hclosed y hy).1, ?_⟩
    have hreached : Reaches (references first.keptEntries) [root] hash := ⟨root, by simp, hpath⟩
    refine hreached.mem_of_closed (P := ReachableFrom start.entries [root])
      (fun s hs => .seed hs) ?_
    intro x hx y hy
    refine hx.step ?_
    rw [references] at hy
    cases hx' : first.keptEntries.lookup x with
    | none => simp [hx'] at hy
    | some e =>
        rw [references, ((lookup_keptEntries hfirst x e).mp hx').1]
        simpa [hx'] using hy
  · intro hanchored cutoffs results hruns result hresult
    by_cases hparse : ReferencesParse start.entries
    · exact collectGarbage_keeps (hanchored hparse) cutoffs (.refl start) hruns result hresult
    · cases cutoffs with
      | nil =>
          cases hruns
          simp at hresult
      | cons cutoff cutoffs =>
          simp only [collectGarbage, bind_eq_ok] at hruns
          obtain ⟨first, hfirst, -⟩ := hruns
          exact absurd ((evaluateCachePurge_ok_iff _ _ _).mp ⟨first, hfirst⟩) hparse

/-! ## A root with an upstream reference -/

/-- A root that references an indexed path and a path of the upstream cache. -/
def upstreamState : GcState where
  entries := HashMap.ofList
    [(sampleHash '1', sampleEntry '1' [sampleHash '2', sampleHash '3']),
      (sampleHash '2', sampleEntry '2' [])]
  gcRoots := HashMap.ofList [(.x86_64Linux, [sampleHash '1'])]

/-- The second of two collections removes the root of `upstreamState`. -/
theorem collectGarbage_removes_upstreamState :
    ∃ results, collectGarbage sampleCrates upstreamState
        [1704067200000000001, 1704067200000000001] = .ok results ∧
      ∃ result ∈ results, ∃ hash entry, result.purgedEntries.lookup hash = some entry ∧
        ReachableFrom upstreamState.entries (allRoots upstreamState.gcRoots) hash := by
  refine ⟨_, rfl, _, List.mem_cons_of_mem _ (List.mem_singleton.mpr rfl), sampleHash '1',
    sampleEntry '1' [sampleHash '2', sampleHash '3'], ?_, .seed ?_⟩
  · decide
  · decide

end NixCache.Core
