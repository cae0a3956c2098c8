import NixCache.Core.Proofs.Closure
/-!
# What a garbage collection deletes

`evaluate_multi_arch_gc` purges with one engine and computes what the roots reach with another.  The
two agree, and the collection deletes exactly the old entries outside the closure of all roots.
Closures of roots stay complete; an entry that is kept for its age alone may lose references.
-/

namespace NixCache.Core

open NixCache.Lib NixCache.Lib.Result NixCache.Lib.Worklist

variable {X : Crates} {toRfc3339 : Int → String} {entries : HashMap StoreHash IndexEntry}
  {gcRoots : HashMap SystemArch (List StoreHash)} {cutoff : Int} {result : GcEvaluationResult}
  {hash : StoreHash}

theorem decodeReferences_eq_ok (h : ReferencesParse entries) (hash : StoreHash) :
    decodeReferences entries hash = .ok (references entries hash) := by
  unfold decodeReferences references
  cases hentry : entries.lookup hash with
  | none => rfl
  | some entry =>
      obtain ⟨deps, hdeps⟩ := h hash entry hentry
      simp [IndexEntry.references, hdeps, liftType, mapErr, Except.toOption]

theorem references_of_notMem_keys {x : StoreHash} (h : x ∉ entries.keys) :
    references entries x = [] := by
  rw [references, AList.lookup_eq_none.mpr fun hmem => h (AList.mem_keys.mp hmem)]
  rfl

/-- What a collection returns consists of a purge and of the reachable hashes. -/
theorem evaluateMultiArchGc_eq_ok
    (h : evaluateMultiArchGc X toRfc3339 entries gcRoots cutoff = .ok result) :
    ∃ purge, evaluateCachePurge X entries gcRoots (gcSelector cutoff) = .ok purge ∧
      result.keptEntries = purge.keptEntries ∧ result.deletedHashes = purge.purgedHashes ∧
      ∀ hash, hash ∈ result.reachableRoots ↔ ReachableFrom entries (allRoots gcRoots) hash := by
  simp only [evaluateMultiArchGc, bind_eq_ok, pure_eq_ok] at h
  obtain ⟨purge, hpurge, reachable, hreachable, rfl⟩ := h
  refine ⟨purge, hpurge, rfl, rfl, fun hash => ?_⟩
  have hparse : ReferencesParse entries := (evaluateCachePurge_ok_iff _ _ _).mp ⟨purge, hpurge⟩
  have hfuel : (fun hash => (decodeReferences entries hash).toOption.getD []) =
      references entries := by
    funext hash
    rw [decodeReferences_eq_ok hparse]
    rfl
  rw [tryMarkOnPop_eq_ok (decodeReferences_eq_ok hparse), gcFuel, hfuel] at hreachable
  rw [← Except.ok.inj hreachable, mem_markOnPop (fun x hx => references_of_notMem_keys hx)]
  unfold ReachableFrom Reaches
  simp only [List.mem_dedup, allRoots]

/-- The collection with a cutoff, said without queues. -/
structure IsCollection (X : Crates) (entries : HashMap StoreHash IndexEntry)
    (gcRoots : HashMap SystemArch (List StoreHash)) (cutoff : Int) (result : GcEvaluationResult) :
    Prop where
  sorted : result.deletedHashes.Pairwise (· < ·)
  deleted : ∀ hash, hash ∈ result.deletedHashes ↔ ∃ entry, entries.lookup hash = some entry ∧
    ¬ ReachableFrom entries (allRoots gcRoots) hash ∧
    ∃ added, X.parseFromRfc3339 entry.added = some added ∧ added < cutoff
  kept : ∀ hash entry, result.keptEntries.lookup hash = some entry ↔
    entries.lookup hash = some entry ∧ hash ∉ result.deletedHashes
  reachable : ∀ hash, hash ∈ result.reachableRoots ↔
    ReachableFrom entries (allRoots gcRoots) hash
  disjoint : ∀ hash ∈ result.deletedHashes, hash ∉ result.reachableRoots
  /-- The purge engine has protected the same hashes. -/
  agrees : ∀ pairs, graphPairs entries = .ok pairs → ∀ hash, hash ∈ result.reachableRoots ↔
    hash ∈ protectedReachable (HashMap.ofList pairs) gcRoots (gcSelector cutoff)

theorem evaluateMultiArchGc_exact
    (h : evaluateMultiArchGc X toRfc3339 entries gcRoots cutoff = .ok result) :
    IsCollection X entries gcRoots cutoff result := by
  obtain ⟨purge, hpurge, hkept, hdeleted, hreachable⟩ := evaluateMultiArchGc_eq_ok h
  obtain ⟨query, hquery, hunmatched, -, hpurged, -⟩ := evaluateCachePurge_eq_ok hpurge
  have hclosure := isClosure_of_evaluateCacheQuery hquery
  have hmem : ∀ hash, hash ∈ result.deletedHashes ↔ ∃ entry, entries.lookup hash = some entry ∧
      ¬ ReachableFrom entries (allRoots gcRoots) hash ∧
      ∃ added, X.parseFromRfc3339 entry.added = some added ∧ added < cutoff := by
    intro hash
    rw [hdeleted, hpurged, hclosure.sorted.2, mem_matchedEntries hquery, selected_gcSelector,
      and_iff_right_iff_imp]
    rintro ⟨entry, hentry, _⟩
    exact HashMap.mem_iff_lookup.mpr ⟨entry, hentry⟩
  refine ⟨?_, hmem, fun hash entry => ?_, hreachable, fun hash hdel hreach => ?_,
    fun pairs hpairs hash => ?_⟩
  · rw [hdeleted, hpurged]
    exact hclosure.sorted.1
  · rw [hkept, hunmatched, hclosure.complement, hdeleted, hpurged, hclosure.sorted.2]
  · obtain ⟨_, _, hnot, _⟩ := (hmem hash).mp hdel
    exact hnot ((hreachable hash).mp hreach)
  · rw [hreachable, mem_protectedReachable hpairs, protected_gcSelector]

/-- The crates on the timestamps of the example below. -/
def twoTimes : Crates where
  sha256 := sampleCrates.sha256
  parseFromRfc3339 text :=
    if text = "2024-01-01T00:00:00Z" then some 1704067200000000000
    else if text = "2024-03-01T00:00:00Z" then some 1709251200000000000
    else none

/-- The first of February 2024. -/
def february : Int := 1706745600000000000

/-- A young path without a root that references an old one. -/
def youngOnOld : HashMap StoreHash IndexEntry :=
  HashMap.ofList
    [(sampleHash '1', { sampleEntry '1' [sampleHash '2'] with added := "2024-03-01T00:00:00Z" }),
      (sampleHash '2', sampleEntry '2' [])]

def februaryText (_ : Int) : String := "2024-02-01T00:00:00Z"

theorem evaluateMultiArchGc_exact_youngOnOld : ∃ result,
    evaluateMultiArchGc twoTimes februaryText youngOnOld ∅ february = .ok result ∧
      IsCollection twoTimes youngOnOld ∅ february result :=
  ⟨_, rfl, evaluateMultiArchGc_exact rfl⟩

/-! ## Closures -/

/-- A kept entry references a deleted one only if no root reaches it and it is kept for its age: it
is not older than the cutoff, or its age cannot be read. -/
theorem evaluateMultiArchGc_keepsClosures
    (h : evaluateMultiArchGc X toRfc3339 entries gcRoots cutoff = .ok result) {entry : IndexEntry}
    {deps : List StoreHash} (hkept : result.keptEntries.lookup hash = some entry)
    (hdeps : entry.narinfoMeta.referenceHashes = .ok deps) {dep : StoreHash} (hdep : dep ∈ deps)
    (hdeleted : dep ∈ result.deletedHashes) :
    ¬ ReachableFrom entries (allRoots gcRoots) hash ∧
      ∀ added, X.parseFromRfc3339 entry.added = some added → cutoff ≤ added := by
  have hexact := evaluateMultiArchGc_exact h
  obtain ⟨hentry, hnot⟩ := (hexact.kept hash entry).mp hkept
  obtain ⟨_, _, hunreachable, _⟩ := (hexact.deleted dep).mp hdeleted
  have houtside : ¬ ReachableFrom entries (allRoots gcRoots) hash := by
    intro hreach
    apply hunreachable
    refine hreach.step ?_
    rw [references, hentry, Option.map_some, Option.getD_some, IndexEntry.references, hdeps]
    exact hdep
  refine ⟨houtside, fun added hadded => ?_⟩
  by_contra hold
  exact hnot ((hexact.deleted hash).mpr ⟨entry, hentry, houtside, added, hadded, by omega⟩)

/-- The young path is kept and its dependency is deleted. -/
theorem evaluateMultiArchGc_breaks_youngOnOld : ∃ result,
    evaluateMultiArchGc twoTimes februaryText youngOnOld ∅ february = .ok result ∧
      ∃ hash entry deps dep, result.keptEntries.lookup hash = some entry ∧
        entry.narinfoMeta.referenceHashes = .ok deps ∧ dep ∈ deps ∧ dep ∈ youngOnOld ∧
        dep ∈ result.deletedHashes := by
  refine ⟨_, rfl, sampleHash '1', _, [sampleHash '2'], sampleHash '2', rfl, rfl,
    List.mem_singleton_self _, ?_, ?_⟩
  · decide
  · decide

theorem evaluateMultiArchGc_keepsClosures_youngOnOld : ∃ result,
    evaluateMultiArchGc twoTimes februaryText youngOnOld ∅ february = .ok result ∧
      sampleHash '2' ∈ result.deletedHashes ∧
      ¬ ReachableFrom youngOnOld (allRoots ∅) (sampleHash '1') := by
  have hdeleted : ∃ result,
      evaluateMultiArchGc twoTimes februaryText youngOnOld ∅ february = .ok result ∧
        sampleHash '2' ∈ result.deletedHashes := ⟨_, rfl, by decide⟩
  obtain ⟨result, hresult, hdeleted⟩ := hdeleted
  have hkept : result.keptEntries.lookup (sampleHash '1') =
      some { sampleEntry '1' [sampleHash '2'] with added := "2024-03-01T00:00:00Z" } := by
    rw [← Except.ok.inj hresult]
    rfl
  exact ⟨result, hresult, hdeleted, (evaluateMultiArchGc_keepsClosures hresult hkept rfl
    (List.mem_singleton_self _) hdeleted).1⟩

end NixCache.Core
