import NixCache.Core.Filter
/-!
# Purge and garbage collection

`nixcache-core/src/purge.rs` and `gc.rs`.
-/

namespace NixCache.Core

open NixCache.Lib NixCache.Lib.Result NixCache.Lib.Worklist

structure PurgedBlob where
  digest : NarDigest
  size : UInt64
deriving DecidableEq, Repr

structure PurgeEvaluationResult where
  keptEntries : HashMap StoreHash IndexEntry
  purgedEntries : HashMap StoreHash IndexEntry
  purgedHashes : List StoreHash
  purgedBlobs : List PurgedBlob
  updatedGcRoots : HashMap SystemArch (List StoreHash)
  estimatedFreedBytes : UInt64
  reasonMap : HashMap StoreHash String

/-- Whether every transitive dependency of `root` is present and not purged. -/
def rootIsSound (entries : HashMap StoreHash IndexEntry)
    (forward : HashMap StoreHash (List StoreHash)) (purged : Finset StoreHash) (root : StoreHash) :
    Bool :=
  checkClosure forward.lookup (fun dep => decide (dep ∈ purged) || decide (dep ∉ entries))
    (fun curr => decide (curr ∉ entries))
    (1 + (forward.keys.flatMap fun hash => (forward.lookup hash).getD []).length) (.start [root])

def validRoots (entries : HashMap StoreHash IndexEntry)
    (forward : HashMap StoreHash (List StoreHash)) (purged : Finset StoreHash)
    (roots : List StoreHash) : List StoreHash :=
  roots.filter fun root => decide (root ∉ purged) && rootIsSound entries forward purged root

def pruneBrokenGcRoots (entries : HashMap StoreHash IndexEntry)
    (gcRoots : HashMap SystemArch (List StoreHash)) (purged : Finset StoreHash) :
    Except CoreError (HashMap SystemArch (List StoreHash)) := do
  let pairs ← graphPairs (entries.filter (· ∉ purged))
  let forward := HashMap.ofList pairs
  let pruned := gcRoots.mapValues fun _ roots => validRoots entries forward purged roots
  pure (pruned.filter fun sys => (pruned.lookup sys).any (· ≠ []))

/-- `entry(digest).and_modify(max).or_insert(size)`. -/
def recordBlob (blobs : HashMap NarDigest UInt64) (entry : IndexEntry) : HashMap NarDigest UInt64 :=
  match blobs.lookup entry.narDigest with
  | some size => blobs.insert entry.narDigest (max size entry.narSize)
  | none => blobs.insert entry.narDigest entry.narSize

def collectBlobs (entries : HashMap StoreHash IndexEntry) : List PurgedBlob :=
  let byDigest := entries.values.foldl recordBlob ∅
  (byDigest.toList.map fun blob => ⟨blob.1, blob.2⟩).insertionSort
    fun left right => left.digest.val ≤ right.digest.val

def evaluateCachePurge (X : Crates) (entries : HashMap StoreHash IndexEntry)
    (gcRoots : HashMap SystemArch (List StoreHash)) (selector : CacheSelector) :
    Except CoreError PurgeEvaluationResult := do
  let query ← evaluateCacheQuery X entries gcRoots selector
  let updatedGcRoots ← pruneBrokenGcRoots entries gcRoots query.matchedEntries.keys.toFinset
  pure {
    keptEntries := query.unmatchedEntries
    purgedEntries := query.matchedEntries
    purgedHashes := query.finalMatchedHashes
    purgedBlobs := collectBlobs query.matchedEntries
    updatedGcRoots := updatedGcRoots
    estimatedFreedBytes := query.matchedBytes
    reasonMap := query.reasonMap }

/-! ## Garbage collection -/

/-- The selector of `evaluate_multi_arch_gc`. -/
def gcSelector (cutoff : Int) : CacheSelector :=
  ((CacheSelector.filtered { timeFilter := some (.before cutoff) }).withProtectGcRoots true).withCascade
    .exact

structure GcEvaluationResult where
  keptEntries : HashMap StoreHash IndexEntry
  deletedHashes : List StoreHash
  reachableRoots : List StoreHash
  cutoffUtc : String

/-- The references of the entry stored under `hash`; a hash without an entry has none. -/
def decodeReferences (entries : HashMap StoreHash IndexEntry) (hash : StoreHash) :
    Except CoreError (List StoreHash) :=
  match entries.lookup hash with
  | some entry => liftType entry.narinfoMeta.referenceHashes
  | none => .ok []

def gcFuel (entries : HashMap StoreHash IndexEntry) (roots : List StoreHash) : Nat :=
  popFuel (fun hash => (decodeReferences entries hash).toOption.getD []) entries.keys roots

/-- `evaluate_multi_arch_gc`; `toRfc3339` is `to_rfc3339_opts(Secs, true)`. -/
def evaluateMultiArchGc (X : Crates) (toRfc3339 : Int → String)
    (entries : HashMap StoreHash IndexEntry) (gcRoots : HashMap SystemArch (List StoreHash))
    (cutoff : Int) : Except CoreError GcEvaluationResult := do
  let purge ← evaluateCachePurge X entries gcRoots (gcSelector cutoff)
  let initialRoots := gcRoots.values.flatten.dedup
  let reachable ← tryMarkOnPop (decodeReferences entries) (gcFuel entries initialRoots) initialRoots
    []
  pure ⟨purge.keptEntries, purge.purgedHashes, reachable, toRfc3339 cutoff⟩

/-- `evaluate_gc`: one list of roots, for whatever system. -/
def evaluateGc (X : Crates) (toRfc3339 : Int → String) (entries : HashMap StoreHash IndexEntry)
    (gcRoots : List StoreHash) (cutoff : Int) : Except CoreError GcEvaluationResult :=
  let rootsMap := if gcRoots.isEmpty then ∅ else HashMap.ofList [(SystemArch.unknown, gcRoots)]
  evaluateMultiArchGc X toRfc3339 entries rootsMap cutoff

/-- What one collection hands to the next. -/
structure GcState where
  entries : HashMap StoreHash IndexEntry
  gcRoots : HashMap SystemArch (List StoreHash)

def PurgeEvaluationResult.next (result : PurgeEvaluationResult) : GcState :=
  ⟨result.keptEntries, result.updatedGcRoots⟩

/-- Collections with the given cutoffs, one after the other, and what each of them did. -/
def collectGarbage (X : Crates) : GcState → List Int → Except CoreError (List PurgeEvaluationResult)
  | _, [] => .ok []
  | state, cutoff :: cutoffs => do
      let result ← evaluateCachePurge X state.entries state.gcRoots (gcSelector cutoff)
      let results ← collectGarbage X result.next cutoffs
      pure (result :: results)

end NixCache.Core
