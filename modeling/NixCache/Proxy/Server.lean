import Mathlib.Logic.Function.Basic
import NixCache.Proxy.Index
/-!
# The proxy at work

The state that the handlers of a proxy share, what an operation does to it, and the handlers that may
run at the same time.  The maps are read and written one key at a time; expiry and eviction may come
between any two operations, and calls of the OCI client end whenever they end.
-/

namespace NixCache.Proxy

open NixCache.Lib NixCache.Core NixCache.Oci
open Program (Trace)

/-- The fields of `CacheIndex` behind an `Arc`, and the time. -/
structure Shared where
  hotEntries : StoreHash → Option IndexEntry
  hotNarLookup : String → Option NarDigest
  hotCount : Nat
  baselineCache : String → Option CachedBaselineEntry
  shardCache : UInt16 → Option ShardCacheEntry
  remoteStatus : RemoteStatus
  now : Nat

namespace Shared

/-- `with_config`. -/
def start (now : Nat) : Shared where
  hotEntries _ := none
  hotNarLookup _ := none
  hotCount := 0
  baselineCache _ := none
  shardCache _ := none
  remoteStatus := {}
  now := now

/-- What an operation on the shared state answers and leaves; none for an operation that asks
something else. -/
def apply (shared : Shared) : Operation → Option (Answer × Shared)
  | .now => some (.instant shared.now, shared)
  | .readHot hash => some (.hot (shared.hotEntries hash), shared)
  | .upsertHot hash entry =>
      some (.done, { shared with hotEntries := Function.update shared.hotEntries hash (some entry) })
  | .readHotNar name => some (.nar (shared.hotNarLookup name), shared)
  | .upsertHotNar name digest =>
      some (.done,
        { shared with hotNarLookup := Function.update shared.hotNarLookup name (some digest) })
  | .addHotCount count => some (.done, { shared with hotCount := shared.hotCount + count })
  | .loadHotCount => some (.count shared.hotCount, shared)
  | .readBaseline key => some (.baseline (shared.baselineCache key), shared)
  | .upsertBaseline key entry =>
      some (.done,
        { shared with baselineCache := Function.update shared.baselineCache key (some entry) })
  | .removeBaseline key | .evictBaseline key =>
      some (.done, { shared with baselineCache := Function.update shared.baselineCache key none })
  | .readShard shardId => some (.shard (shared.shardCache shardId), shared)
  | .upsertShard shardId entry =>
      some (.done, { shared with shardCache := Function.update shared.shardCache shardId (some entry) })
  | .removeShard shardId | .evictShard shardId =>
      some (.done, { shared with shardCache := Function.update shared.shardCache shardId none })
  | .clearShards => some (.done, { shared with shardCache := fun _ => none })
  | .setRemoteStatus status => some (.done, { shared with remoteStatus := status })
  | .loadRemoteStatus => some (.status shared.remoteStatus, shared)
  | .writeBackup _ => some (.done, shared)
  | .passTime duration => some (.done, { shared with now := shared.now + duration })
  | .utcNow | .findShardNar _ | .getShardedRoot | .getShardData _ | .readBackup => none

end Shared

/-- The digest for a name in one of the cached shards, whichever the iteration comes to first. -/
def IsFoundIn (shards : UInt16 → Option ShardCacheEntry) (name : String) : Option NarDigest → Prop
  | some digest => ∃ shardId entry, shards shardId = some entry ∧
      entry.narLookup.lookup name = some digest
  | none => ∀ shardId entry, shards shardId = some entry → entry.narLookup.lookup name = none

/-- One operation with its answer.  A call of the OCI client ends in any way that it can end, and
the backup file may hold anything. -/
inductive Step (index : CacheIndex) : Shared → Operation × Answer → Shared → Prop where
  | apply {shared shared' : Shared} {operation : Operation} {answer : Answer}
      (h : shared.apply operation = some (answer, shared')) :
      Step index shared (operation, answer) shared'
  | utcNow (shared : Shared) (text : String) : Step index shared (.utcNow, .utc text) shared
  | findShardNar (shared : Shared) {name : String} {digest : Option NarDigest}
      (h : IsFoundIn shared.shardCache name digest) :
      Step index shared (.findShardNar name, .nar digest) shared
  | getShardedRoot (shared : Shared) {trace : Trace Request Reply}
      {result : Except OciError (Option (ShardedArchCacheIndexData × String))}
      (h : (IndexClient.getShardedRoot index.crates index.client index.config.baselineTag
        index.config.targetSystem).Runs trace result) :
      Step index shared (.getShardedRoot, .root result) shared
  | getShardData (shared : Shared) {descriptor : ShardDescriptor} {trace : Trace Request Reply}
      {result : Except OciError ShardDataPayload}
      (h : (IndexClient.getShardData index.crates index.client descriptor
        index.config.targetSystem).Runs trace result) :
      Step index shared (.getShardData descriptor, .payload result) shared
  | readBackup (shared : Shared) (bytes : Option Bytes) :
      Step index shared (.readBackup, .backup bytes) shared

/-! ## Handlers -/

/-- The calls of a proxy. -/
inductive Call where
  | registerSession (body : Json)
  | lookup (storeHash : String)
  | findNarDigest (narBasename : String)
  | getBaselineData
  | getShardData (descriptor : ShardDescriptor)
  | getEntryCounts
  | forceRefresh

/-- What a call does; its result is for its caller. -/
def Call.handler (index : CacheIndex) : Call → Handler Unit
  | registerSession body => do
      let _ ← handleRegisterSession index.crates.toCrates body
      pure ()
  | lookup storeHash => do
      let _ ← index.lookupFrom storeHash
      pure ()
  | findNarDigest narBasename => do
      let _ ← index.findNarDigest narBasename
      pure ()
  | getBaselineData => do
      let _ ← index.getBaselineData
      pure ()
  | getShardData descriptor => do
      let _ ← index.getShardData descriptor
      pure ()
  | getEntryCounts => do
      let _ ← index.getEntryCounts
      pure ()
  | forceRefresh => do
      let _ ← index.forceRefresh
      pure ()

/-- The calls `calls`, interleaved in any way, take the proxy from `first` to `last`. -/
def Serves {τ : Type} [DecidableEq τ] (index : CacheIndex) (calls : τ → Call) (first : Shared)
    (events : List (Option τ × (Operation × Answer))) (last : Shared) : Prop :=
  Executes (Step index) Operation.IsOutside (fun task => (calls task).handler index) first events last

end NixCache.Proxy
