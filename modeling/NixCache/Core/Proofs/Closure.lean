import NixCache.Core.Proofs.Gc
import NixCache.Core.Proofs.SortedHashes
/-!
# The selection is a least closed set

The four cascades of `evaluate_cache_query` each end with the least set that contains the initial
matches and that no edge of the mode leaves, except into the protected closure.
-/

namespace NixCache.Core

open NixCache.Lib NixCache.Lib.Result NixCache.Lib.Worklist

variable {X : Crates} {entries entries' : HashMap StoreHash IndexEntry}
  {gcRoots gcRoots' : HashMap SystemArch (List StoreHash)} {selector : CacheSelector}
  {result : CacheQueryResult} {hash : StoreHash}

/-! ## Least closed sets -/

/-- The scope matches an entry outside the protected closure. -/
def InitialMatch (X : Crates) (entries : HashMap StoreHash IndexEntry)
    (gcRoots : HashMap SystemArch (List StoreHash)) (selector : CacheSelector) (hash : StoreHash) :
    Prop :=
  ∃ entry, entries.lookup hash = some entry ∧ ¬ Protected entries gcRoots selector hash ∧
    (selector.scopeReason X hash entry).isSome

/-- A set with the initial matches that the cascade does not leave, except into the protected
closure. -/
structure ClosedSelection (X : Crates) (entries : HashMap StoreHash IndexEntry)
    (gcRoots : HashMap SystemArch (List StoreHash)) (selector : CacheSelector)
    (S : Set StoreHash) : Prop where
  initial : ∀ hash, InitialMatch X entries gcRoots selector hash → hash ∈ S
  step : ∀ x ∈ S, ∀ y, CascadesTo entries selector.cascadeMode x y →
    ¬ Protected entries gcRoots selector y → y ∈ S

theorem closedSelection_selected :
    ClosedSelection X entries gcRoots selector {hash | Selected X entries gcRoots selector hash} where
  initial := by
    rintro hash ⟨entry, hentry, houtside, hscope⟩
    exact .initial hentry houtside hscope
  step x hx y hedge houtside := .cascade hx hedge houtside

theorem selected_iff_forall_closed : Selected X entries gcRoots selector hash ↔
    ∀ S, ClosedSelection X entries gcRoots selector S → hash ∈ S := by
  constructor
  · intro hsel S hS
    induction hsel with
    | initial present outside inScope => exact hS.initial _ ⟨_, present, outside, inScope⟩
    | cascade _ edge outside ih => exact hS.step _ ih _ edge outside
  · intro h
    exact h _ closedSelection_selected

theorem Selected.not_protected (h : Selected X entries gcRoots selector hash) :
    ¬ Protected entries gcRoots selector hash := by
  cases h with
  | initial _ outside _ => exact outside
  | cascade _ _ outside => exact outside

/-- What references a selected hash is selected by a cascade to dependents. -/
theorem Selected.of_references {x y : StoreHash}
    (hmode : selector.cascadeMode = .dependents ∨ selector.cascadeMode = .fullTree)
    (hy : Selected X entries gcRoots selector y) (hxy : y ∈ references entries x) :
    Selected X entries gcRoots selector x := by
  refine .cascade hy ?_ fun hprotected => hy.not_protected ⟨hprotected.1, hprotected.2.step hxy⟩
  rcases hmode with hmode | hmode
  · rw [hmode]
    exact hxy
  · rw [hmode]
    exact Or.inl hxy

/-! ## Sorted keys -/

theorem pairwise_sortHashes {hashes : List StoreHash} (hnodup : hashes.Nodup) :
    (sortHashes hashes).Pairwise (· < ·) := by
  apply pairwise_lt_of_nodup
  · exact List.pairwise_insertionSort _ _
  · exact (List.perm_insertionSort _ hashes).nodup_iff.mpr hnodup

theorem mem_sortHashes {hashes : List StoreHash} : hash ∈ sortHashes hashes ↔ hash ∈ hashes :=
  List.mem_insertionSort _

/-! ## The order of the maps -/

theorem mem_activeRoots : hash ∈ activeRoots gcRoots selector ↔ ∃ system roots,
    gcRoots.lookup system = some roots ∧
      selector.targetSystems.all (fun systems => system ∈ systems) = true ∧ hash ∈ roots := by
  simp only [activeRoots, CacheSelector.activeGcRoots, List.mem_flatten, HashMap.mem_values_iff,
    HashMap.lookup_filter_eq_some]
  constructor
  · rintro ⟨roots, ⟨system, hroots, htarget⟩, hmem⟩
    exact ⟨system, roots, hroots, htarget, hmem⟩
  · rintro ⟨system, roots, hroots, htarget, hmem⟩
    exact ⟨roots, ⟨system, hroots, htarget⟩, hmem⟩

theorem references_congr (h : ∀ hash, entries'.lookup hash = entries.lookup hash) :
    references entries' = references entries := by
  funext hash
  rw [references, references, h]

theorem protected_congr (hentries : ∀ hash, entries'.lookup hash = entries.lookup hash)
    (hroots : ∀ system, gcRoots'.lookup system = gcRoots.lookup system) :
    Protected entries' gcRoots' selector hash ↔ Protected entries gcRoots selector hash := by
  unfold Protected ReachableFrom Reaches
  simp only [references_congr hentries, mem_activeRoots, hroots]

theorem selected_congr (hentries : ∀ hash, entries'.lookup hash = entries.lookup hash)
    (hroots : ∀ system, gcRoots'.lookup system = gcRoots.lookup system) :
    Selected X entries' gcRoots' selector hash ↔ Selected X entries gcRoots selector hash := by
  have hclosed : ∀ S, ClosedSelection X entries' gcRoots' selector S ↔
      ClosedSelection X entries gcRoots selector S := by
    intro S
    have hinitial : ∀ hash, InitialMatch X entries' gcRoots' selector hash ↔
        InitialMatch X entries gcRoots selector hash := by
      intro hash
      simp only [InitialMatch, hentries, protected_congr hentries hroots]
    have hedge : CascadesTo entries' = CascadesTo entries := by
      funext mode x y
      cases mode <;> simp only [CascadesTo, references_congr hentries]
    constructor
    · rintro ⟨hfirst, hstep⟩
      refine ⟨fun hash h => hfirst hash ((hinitial hash).mpr h), fun x hx y hxy hy => ?_⟩
      exact hstep x hx y (hedge ▸ hxy) fun h => hy ((protected_congr hentries hroots).mp h)
    · rintro ⟨hfirst, hstep⟩
      refine ⟨fun hash h => hfirst hash ((hinitial hash).mp h), fun x hx y hxy hy => ?_⟩
      exact hstep x hx y (hedge ▸ hxy) fun h => hy ((protected_congr hentries hroots).mpr h)
  simp only [selected_iff_forall_closed, hclosed]

/-! ## The result of a query -/

/-- What a query returns, said without queues. -/
structure IsClosure (X : Crates) (entries : HashMap StoreHash IndexEntry)
    (gcRoots : HashMap SystemArch (List StoreHash)) (selector : CacheSelector)
    (result : CacheQueryResult) : Prop where
  /-- The matched entries are those in every closed selection. -/
  isLeast : ∀ hash entry, result.matchedEntries.lookup hash = some entry ↔
    entries.lookup hash = some entry ∧
      ∀ S, ClosedSelection X entries gcRoots selector S → hash ∈ S
  complement : ∀ hash entry, result.unmatchedEntries.lookup hash = some entry ↔
    entries.lookup hash = some entry ∧ hash ∉ result.matchedEntries
  /-- After a cascade to dependents, what is left references nothing that was matched. -/
  sound : selector.cascadeMode = .dependents ∨ selector.cascadeMode = .fullTree →
    ∀ hash entry deps, result.unmatchedEntries.lookup hash = some entry →
      entry.narinfoMeta.referenceHashes = .ok deps → ∀ dep ∈ deps, dep ∉ result.matchedEntries
  sorted : result.finalMatchedHashes.Pairwise (· < ·) ∧
    ∀ hash, hash ∈ result.finalMatchedHashes ↔ hash ∈ result.matchedEntries

theorem mem_matchedEntries (h : evaluateCacheQuery X entries gcRoots selector = .ok result) :
    hash ∈ result.matchedEntries ↔
      hash ∈ entries ∧ Selected X entries gcRoots selector hash := by
  simp only [HashMap.mem_iff_lookup, lookup_matchedEntries h, exists_and_right]

theorem finalMatchedHashes_eq (h : evaluateCacheQuery X entries gcRoots selector = .ok result) :
    result.finalMatchedHashes = sortHashes result.matchedEntries.keys := by
  simp only [evaluateCacheQuery, bind_eq_ok, pure_eq_ok] at h
  obtain ⟨pairs, _, rfl⟩ := h
  rfl

theorem isClosure_of_evaluateCacheQuery
    (h : evaluateCacheQuery X entries gcRoots selector = .ok result) :
    IsClosure X entries gcRoots selector result := by
  refine ⟨fun hash entry => ?_, fun hash entry => ?_, ?_, ?_⟩
  · rw [lookup_matchedEntries h, selected_iff_forall_closed]
  · rw [lookup_unmatchedEntries h, mem_matchedEntries h, not_and]
    refine and_congr_right fun hentry => ?_
    constructor
    · intro hnot _
      exact hnot
    · intro hnot
      exact hnot (HashMap.mem_iff_lookup.mpr ⟨entry, hentry⟩)
  · intro hmode hash entry deps hunmatched hdeps dep hdep hmatched
    obtain ⟨hentry, hnot⟩ := (lookup_unmatchedEntries h hash entry).mp hunmatched
    apply hnot
    refine ((mem_matchedEntries h).mp hmatched).2.of_references hmode ?_
    rw [references, hentry, Option.map_some, Option.getD_some, IndexEntry.references, hdeps]
    exact hdep
  · rw [finalMatchedHashes_eq h]
    refine ⟨pairwise_sortHashes result.matchedEntries.nodupKeys, fun hash => ?_⟩
    rw [mem_sortHashes, AList.mem_keys]

/-- A query computes the least closed selection, on every graph and whatever the order in which the
maps are iterated. -/
theorem evaluateCacheQuery_isClosure
    (h : evaluateCacheQuery X entries gcRoots selector = .ok result) :
    IsClosure X entries gcRoots selector result ∧
      ∀ entries' gcRoots', (∀ hash, entries'.lookup hash = entries.lookup hash) →
        (∀ system, gcRoots'.lookup system = gcRoots.lookup system) →
        ∃ result', evaluateCacheQuery X entries' gcRoots' selector = .ok result' ∧
          (∀ hash, result'.matchedEntries.lookup hash = result.matchedEntries.lookup hash) ∧
          (∀ hash, result'.unmatchedEntries.lookup hash = result.unmatchedEntries.lookup hash) ∧
          result'.finalMatchedHashes = result.finalMatchedHashes := by
  refine ⟨isClosure_of_evaluateCacheQuery h, fun entries' gcRoots' hentries hroots => ?_⟩
  have hparse : ReferencesParse entries' := by
    intro hash entry hentry
    rw [hentries] at hentry
    exact (evaluateCacheQuery_ok_iff X gcRoots selector).mp ⟨result, h⟩ hash entry hentry
  obtain ⟨result', h'⟩ := (evaluateCacheQuery_ok_iff X gcRoots' selector).mpr hparse
  have hmatched : ∀ hash, result'.matchedEntries.lookup hash = result.matchedEntries.lookup hash := by
    intro hash
    apply Option.ext
    intro entry
    rw [lookup_matchedEntries h', lookup_matchedEntries h, hentries,
      selected_congr hentries hroots]
  refine ⟨result', h', hmatched, fun hash => ?_, ?_⟩
  · apply Option.ext
    intro entry
    rw [lookup_unmatchedEntries h', lookup_unmatchedEntries h, hentries,
      selected_congr hentries hroots]
  · obtain ⟨hsorted, hmem⟩ := (isClosure_of_evaluateCacheQuery h).sorted
    obtain ⟨hsorted', hmem'⟩ := (isClosure_of_evaluateCacheQuery h').sorted
    refine eq_of_pairwise_lt hsorted' hsorted fun hash => ?_
    rw [hmem, hmem', HashMap.mem_iff_lookup, HashMap.mem_iff_lookup, hmatched]

/-- Two paths that reference each other, one of them also a path that is not in the index. -/
def cyclicEntries : HashMap StoreHash IndexEntry :=
  HashMap.ofList
    [(sampleHash '1', sampleEntry '1' [sampleHash '2', sampleHash '3']),
      (sampleHash '2', sampleEntry '2' [sampleHash '1'])]

theorem evaluateCacheQuery_isClosure_cyclicEntries : ∃ result,
    evaluateCacheQuery sampleCrates cyclicEntries ∅ (selectFirst.withCascade .fullTree) =
      .ok result ∧
    IsClosure sampleCrates cyclicEntries ∅ (selectFirst.withCascade .fullTree) result :=
  ⟨_, rfl, (evaluateCacheQuery_isClosure rfl).1⟩

/-! ## Protected roots -/

/-- A query that protects GC roots never selects what a root of one of its systems reaches. -/
theorem evaluateCacheQuery_protects
    (h : evaluateCacheQuery X entries gcRoots selector = .ok result)
    (hprotect : selector.protectGcRoots = true) {system : SystemArch} {roots : List StoreHash}
    (hroots : gcRoots.lookup system = some roots)
    (htarget : selector.targetSystems.all (fun systems => system ∈ systems) = true)
    (hreach : ReachableFrom entries roots hash) : hash ∉ result.matchedEntries := by
  intro hmatched
  apply ((mem_matchedEntries h).mp hmatched).2.not_protected
  refine ⟨hprotect, Reaches.mem_of_closed (fun root hroot => .seed ?_) (fun x hx y hy => hx.step hy)
    hreach⟩
  exact mem_activeRoots.mpr ⟨system, roots, hroots, htarget, hroot⟩

/-- Two paths, the first of which is a root on both architectures. -/
def rootsOnBoth : HashMap SystemArch (List StoreHash) :=
  HashMap.ofList [(.x86_64Linux, [sampleHash '1']), (.aarch64Linux, [sampleHash '1'])]

def purgeAll (systems : Finset SystemArch) : CacheSelector :=
  ((CacheSelector.all systems).withCascade .dependents).withProtectGcRoots true

theorem evaluateCacheQuery_protects_cyclicEntries : ∃ result,
    evaluateCacheQuery sampleCrates cyclicEntries rootsOnBoth (purgeAll {.x86_64Linux}) =
      .ok result ∧ sampleHash '2' ∈ cyclicEntries ∧ sampleHash '2' ∉ result.matchedEntries := by
  refine ⟨_, rfl, by decide, ?_⟩
  have hreach : ReachableFrom cyclicEntries [sampleHash '1'] (sampleHash '2') :=
    Reaches.step (.seed (List.mem_singleton_self _)) (by decide)
  exact evaluateCacheQuery_protects rfl rfl (show rootsOnBoth.lookup .x86_64Linux = _ from rfl)
    (by decide) hreach

/-- A root of a system that the selector is not about protects nothing. -/
theorem evaluateCacheQuery_removes_foreignRoot : ∃ result,
    evaluateCacheQuery sampleCrates cyclicEntries
      (HashMap.ofList [(.aarch64Linux, [sampleHash '1'])]) (purgeAll {.x86_64Linux}) = .ok result ∧
    (purgeAll {.x86_64Linux}).protectGcRoots = true ∧
    ∃ system roots hash,
      (HashMap.ofList [(SystemArch.aarch64Linux, [sampleHash '1'])]).lookup system = some roots ∧
      ReachableFrom cyclicEntries roots hash ∧ hash ∈ result.matchedEntries :=
  ⟨_, rfl, rfl, .aarch64Linux, [sampleHash '1'], sampleHash '1', rfl,
    .seed (List.mem_singleton_self _), by decide⟩

end NixCache.Core
