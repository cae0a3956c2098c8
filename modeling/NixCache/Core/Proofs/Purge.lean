import NixCache.Core.Proofs.Selection
import NixCache.Lib.Sha256
/-!
# What a purge keeps, removes and deletes
-/

namespace NixCache.Core

open NixCache.Lib NixCache.Lib.Result NixCache.Lib.Worklist

variable {X : Crates} {entries : HashMap StoreHash IndexEntry}
  {gcRoots : HashMap SystemArch (List StoreHash)} {selector : CacheSelector}
  {result : PurgeEvaluationResult}

/-! ## Kept and purged entries -/

theorem referencesParse_filter {p : StoreHash → Bool} (h : ReferencesParse entries) :
    ReferencesParse (entries.filter p) :=
  fun hash entry hentry => h hash entry (HashMap.lookup_filter_eq_some.mp hentry).1

theorem exists_pruneBrokenGcRoots (h : ReferencesParse entries)
    (gcRoots : HashMap SystemArch (List StoreHash)) (purged : Finset StoreHash) :
    ∃ roots, pruneBrokenGcRoots entries gcRoots purged = .ok roots := by
  obtain ⟨pairs, hpairs⟩ := graphPairs_ok_iff.mpr (referencesParse_filter (p := (· ∉ purged)) h)
  simp only [pruneBrokenGcRoots, bind_eq_ok, pure_eq_ok]
  exact ⟨_, pairs, hpairs, rfl⟩

/-- A purge fails exactly when a reference of some entry does not parse. -/
theorem evaluateCachePurge_ok_iff (X : Crates) (gcRoots : HashMap SystemArch (List StoreHash))
    (selector : CacheSelector) :
    (∃ result, evaluateCachePurge X entries gcRoots selector = .ok result) ↔
      ReferencesParse entries := by
  constructor
  · rintro ⟨result, h⟩
    simp only [evaluateCachePurge, bind_eq_ok] at h
    obtain ⟨query, hquery, -⟩ := h
    exact (evaluateCacheQuery_ok_iff X gcRoots selector).mp ⟨query, hquery⟩
  · intro h
    obtain ⟨query, hquery⟩ := (evaluateCacheQuery_ok_iff X gcRoots selector).mpr h
    obtain ⟨roots, hroots⟩ :=
      exists_pruneBrokenGcRoots h gcRoots query.matchedEntries.keys.toFinset
    simp only [evaluateCachePurge, bind_eq_ok, pure_eq_ok]
    exact ⟨_, query, hquery, roots, hroots, rfl⟩

theorem evaluateCachePurge_eq_ok (h : evaluateCachePurge X entries gcRoots selector = .ok result) :
    ∃ query, evaluateCacheQuery X entries gcRoots selector = .ok query ∧
      result.keptEntries = query.unmatchedEntries ∧ result.purgedEntries = query.matchedEntries ∧
      result.purgedHashes = query.finalMatchedHashes ∧
      result.purgedBlobs = collectBlobs query.matchedEntries ∧
      pruneBrokenGcRoots entries gcRoots query.matchedEntries.keys.toFinset =
        .ok result.updatedGcRoots := by
  simp only [evaluateCachePurge, bind_eq_ok, pure_eq_ok] at h
  obtain ⟨query, hquery, roots, hroots, rfl⟩ := h
  exact ⟨query, hquery, rfl, rfl, rfl, rfl, hroots⟩

theorem lookup_purgedEntries (h : evaluateCachePurge X entries gcRoots selector = .ok result)
    (hash : StoreHash) (entry : IndexEntry) :
    result.purgedEntries.lookup hash = some entry ↔
      entries.lookup hash = some entry ∧ Selected X entries gcRoots selector hash := by
  obtain ⟨query, hquery, -, hpurged, -⟩ := evaluateCachePurge_eq_ok h
  rw [hpurged]
  exact lookup_matchedEntries hquery hash entry

theorem lookup_keptEntries (h : evaluateCachePurge X entries gcRoots selector = .ok result)
    (hash : StoreHash) (entry : IndexEntry) :
    result.keptEntries.lookup hash = some entry ↔
      entries.lookup hash = some entry ∧ ¬ Selected X entries gcRoots selector hash := by
  obtain ⟨query, hquery, hkept, -⟩ := evaluateCachePurge_eq_ok h
  rw [hkept]
  exact lookup_unmatchedEntries hquery hash entry

/-! ## Purged blobs -/

theorem mem_foldl_recordBlob (list : List IndexEntry) (blobs : HashMap NarDigest UInt64)
    (digest : NarDigest) :
    digest ∈ list.foldl recordBlob blobs ↔
      digest ∈ blobs ∨ ∃ entry ∈ list, entry.narDigest = digest := by
  induction list generalizing blobs with
  | nil => simp
  | cons entry list ih =>
      have hrecord : digest ∈ recordBlob blobs entry ↔
          digest ∈ blobs ∨ entry.narDigest = digest := by
        unfold recordBlob
        split <;> rw [AList.mem_insert, or_comm, eq_comm (a := digest)]
      rw [List.foldl_cons, ih, hrecord]
      simp only [List.mem_cons, exists_eq_or_imp, or_assoc]

/-- The purged blobs are the NARs of the purged entries. -/
theorem exists_mem_collectBlobs {digest : NarDigest} :
    (∃ blob ∈ collectBlobs entries, blob.digest = digest) ↔
      ∃ hash entry, entries.lookup hash = some entry ∧ entry.narDigest = digest := by
  have hfold : digest ∈ entries.values.foldl recordBlob ∅ ↔
      ∃ hash entry, entries.lookup hash = some entry ∧ entry.narDigest = digest := by
    rw [mem_foldl_recordBlob]
    simp only [AList.notMem_empty, false_or, HashMap.mem_values_iff]
    constructor
    · rintro ⟨entry, ⟨hash, hentry⟩, hdigest⟩
      exact ⟨hash, entry, hentry, hdigest⟩
    · rintro ⟨hash, entry, hentry, hdigest⟩
      exact ⟨entry, ⟨hash, hentry⟩, hdigest⟩
  rw [← hfold, HashMap.mem_iff_lookup]
  constructor
  · rintro ⟨blob, hblob, rfl⟩
    obtain ⟨⟨digest, size⟩, hmem, rfl⟩ :=
      List.mem_map.mp ((List.mem_insertionSort _).mp hblob)
    exact ⟨size, HashMap.mem_toList_iff.mp hmem⟩
  · rintro ⟨size, hsize⟩
    exact ⟨⟨digest, size⟩, (List.mem_insertionSort _).mpr
      (List.mem_map.mpr ⟨(digest, size), HashMap.mem_toList_iff.mpr hsize, rfl⟩), rfl⟩

/-- No blob that the purge deletes belongs to an entry that it keeps. -/
def BlobsSafe (result : PurgeEvaluationResult) : Prop :=
  ∀ blob ∈ result.purgedBlobs, ∀ hash entry, result.keptEntries.lookup hash = some entry →
    entry.narDigest ≠ blob.digest

/-- No selected entry has the NAR of an entry that is not selected. -/
def NoSharedNar (X : Crates) (entries : HashMap StoreHash IndexEntry)
    (gcRoots : HashMap SystemArch (List StoreHash)) (selector : CacheSelector) : Prop :=
  ∀ hash entry hash' entry', entries.lookup hash = some entry →
    entries.lookup hash' = some entry' → Selected X entries gcRoots selector hash →
    entry'.narDigest = entry.narDigest → Selected X entries gcRoots selector hash'

/-- The purge deletes only dead blobs exactly when the selection never splits the entries of one
NAR: the blobs are deduplicated among the purged entries, never against the kept ones. -/
theorem evaluateCachePurge_blobsSafe_iff
    (h : evaluateCachePurge X entries gcRoots selector = .ok result) :
    BlobsSafe result ↔ NoSharedNar X entries gcRoots selector := by
  obtain ⟨query, hquery, -, hpurged, -, hblobs, -⟩ := evaluateCachePurge_eq_ok h
  have hlisted : ∀ digest, (∃ blob ∈ result.purgedBlobs, blob.digest = digest) ↔
      ∃ hash entry, entries.lookup hash = some entry ∧
        Selected X entries gcRoots selector hash ∧ entry.narDigest = digest := by
    intro digest
    rw [hblobs, exists_mem_collectBlobs]
    simp only [lookup_matchedEntries hquery, and_assoc]
  constructor
  · intro hsafe hash entry hash' entry' hentry hentry' hsel hshared
    by_contra hkept
    obtain ⟨blob, hblob, hdigest⟩ := (hlisted entry.narDigest).mpr ⟨hash, entry, hentry, hsel, rfl⟩
    refine hsafe blob hblob hash' entry' ((lookup_keptEntries h hash' entry').mpr ⟨hentry', hkept⟩) ?_
    rw [hshared, hdigest]
  · intro hshared blob hblob hash' entry' hkept hdigest
    obtain ⟨hentry', hnot⟩ := (lookup_keptEntries h hash' entry').mp hkept
    obtain ⟨hash, entry, hentry, hsel, hsame⟩ := (hlisted blob.digest).mp ⟨blob, hblob, rfl⟩
    exact hnot (hshared hash entry hash' entry' hentry hentry' hsel (by rw [hdigest, hsame]))

/-! ## Two store paths with one NAR -/

/-- The crates on inputs of the examples below: SHA-256, and one timestamp. -/
def sampleCrates : Crates where
  sha256 message := ⟨Sha256.digest message, Sha256.length_digest message⟩
  parseFromRfc3339 text :=
    if text = "2024-01-01T00:00:00Z" then some 1704067200000000000 else none

def sampleHash (c : Char) : StoreHash := ⟨String.ofList (List.replicate 32 c)⟩

/-- An entry for the store path whose hash repeats `c`, with the given references. -/
def sampleEntry (c : Char) (references : List StoreHash) : IndexEntry where
  name := "hello"
  system := some .x86_64Linux
  narinfoMeta := {
    storePath := "/nix/store/" ++ (sampleHash c).val ++ "-hello"
    narBasename := (sampleHash c).val ++ ".nar.zst"
    compression := some "zstd"
    fileHash := none
    fileSize := none
    narHash := "sha256:" ++ String.ofList (List.replicate 52 '0')
    references := references.map fun hash => hash.val ++ "-hello"
    deriver := none
    signatures := []
    ca := none }
  narDigest := ⟨"sha256:" ++ String.ofList (List.replicate 64 '0')⟩
  narSize := 100
  added := "2024-01-01T00:00:00Z"
  origin := none

/-- Two paths with the same content. -/
def sharedEntries : HashMap StoreHash IndexEntry :=
  HashMap.ofList [(sampleHash '1', sampleEntry '1' []), (sampleHash '2', sampleEntry '2' [])]

def selectFirst : CacheSelector := .filtered { storeHashes := {sampleHash '1'} }

theorem evaluateCachePurge_blobsSafe_iff_sharedEntries :
    ∃ result, evaluateCachePurge sampleCrates sharedEntries ∅ selectFirst = .ok result ∧
      (BlobsSafe result ↔ NoSharedNar sampleCrates sharedEntries ∅ selectFirst) :=
  ⟨_, rfl, evaluateCachePurge_blobsSafe_iff rfl⟩

/-- Purging the first path lists the NAR that the second path still needs. -/
theorem evaluateCachePurge_not_blobsSafe_sharedEntries :
    ∃ result, evaluateCachePurge sampleCrates sharedEntries ∅ selectFirst = .ok result ∧
      ¬ BlobsSafe result := by
  refine ⟨_, rfl, fun hsafe => ?_⟩
  refine hsafe ⟨(sampleEntry '1' []).narDigest, 100⟩ ?_ (sampleHash '2') (sampleEntry '2' []) ?_ rfl
  · decide
  · decide

end NixCache.Core
