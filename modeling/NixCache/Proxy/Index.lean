import NixCache.Core.Lookup
import NixCache.Lib.Concurrent
import NixCache.Oci.Index
/-!
# The index of the proxy

`nixcache-proxy/src/index.rs` and the handler of `/_session/register` in `proxy.rs`.  A handler is a
task whose operations on the shared maps are atomic; a call of the OCI client is one operation, whose
answer is the result of some run of that call.  Errors are kept in place of their text.
-/

namespace NixCache.Proxy

open NixCache.Lib NixCache.Lib.Result NixCache.Core NixCache.Oci

structure CascadingProxyConfig where
  repo : String
  registry : String
  baselineTag : String
  /-- In the unit of `Instant`. -/
  baselineTtl : Nat
  targetSystem : SystemArch

structure CachedBaselineEntry where
  baseline : ShardedArchCacheIndexData
  expiresAt : Nat

structure ShardCacheEntry where
  payload : ShardDataPayload
  narLookup : HashMap String NarDigest
  blobDigest : String
  expiresAt : Nat

structure RemoteStatus where
  connected : Bool := false
  error : Option OciError := none

/-! ## Operations -/

inductive Operation where
  | now
  | utcNow
  | readHot (hash : StoreHash)
  | upsertHot (hash : StoreHash) (entry : IndexEntry)
  | readHotNar (name : String)
  | upsertHotNar (name : String) (digest : NarDigest)
  | addHotCount (count : Nat)
  | loadHotCount
  | readBaseline (key : String)
  | upsertBaseline (key : String) (entry : CachedBaselineEntry)
  | removeBaseline (key : String)
  | readShard (shardId : UInt16)
  | upsertShard (shardId : UInt16) (entry : ShardCacheEntry)
  | removeShard (shardId : UInt16)
  | clearShards
  | findShardNar (name : String)
  | setRemoteStatus (status : RemoteStatus)
  | loadRemoteStatus
  | getShardedRoot
  | getShardData (descriptor : ShardDescriptor)
  | writeBackup (bytes : Bytes)
  | readBackup
  -- what happens beside the handlers
  | passTime (duration : Nat)
  | evictShard (shardId : UInt16)
  | evictBaseline (key : String)

/-- Operations that no handler performs. -/
def Operation.IsOutside : Operation → Prop
  | passTime _ | evictShard _ | evictBaseline _ => True
  | _ => False

inductive Answer where
  | done
  | instant (time : Nat)
  | utc (text : String)
  | hot (entry : Option IndexEntry)
  | nar (digest : Option NarDigest)
  | count (count : Nat)
  | baseline (entry : Option CachedBaselineEntry)
  | shard (entry : Option ShardCacheEntry)
  | status (status : RemoteStatus)
  | root (result : Except OciError (Option (ShardedArchCacheIndexData × String)))
  | payload (result : Except OciError ShardDataPayload)
  | backup (bytes : Option Bytes)

namespace Answer

def asDone : Answer → Option Unit
  | done => some ()
  | _ => none

def asInstant : Answer → Option Nat
  | instant time => some time
  | _ => none

def asUtc : Answer → Option String
  | utc text => some text
  | _ => none

def asHot : Answer → Option (Option IndexEntry)
  | hot entry => some entry
  | _ => none

def asNar : Answer → Option (Option NarDigest)
  | nar digest => some digest
  | _ => none

def asCount : Answer → Option Nat
  | count n => some n
  | _ => none

def asBaseline : Answer → Option (Option CachedBaselineEntry)
  | baseline entry => some entry
  | _ => none

def asShard : Answer → Option (Option ShardCacheEntry)
  | shard entry => some entry
  | _ => none

def asStatus : Answer → Option RemoteStatus
  | status value => some value
  | _ => none

def asRoot : Answer → Option (Except OciError (Option (ShardedArchCacheIndexData × String)))
  | root result => some result
  | _ => none

def asPayload : Answer → Option (Except OciError ShardDataPayload)
  | payload result => some result
  | _ => none

def asBackup : Answer → Option (Option Bytes)
  | backup bytes => some bytes
  | _ => none

end Answer

/-- How a handler may stop: an `expect` or a slice that fails.  An answer is always of the kind that
its operation asks for. -/
inductive Panic where
  | wrongAnswer
  | core (error : CoreError)
  | slice (error : SlicePanic)

abbrev Handler := Action Operation Answer Panic

def ask {α : Type} (operation : Operation) (read : Answer → Option α) : Handler α :=
  Action.ask .wrongAnswer operation read

def perform (operation : Operation) : Handler Unit := ask operation Answer.asDone

/-- The value that was found, else the one that `next` gives. -/
def getOrElse {α : Type} (found : Option α) (next : Handler α) : Handler α :=
  match found with
  | some value => pure value
  | none => next

/-- `or_else`. -/
def orElse {α : Type} (found : Option α) (next : Handler (Option α)) : Handler (Option α) :=
  match found with
  | some value => pure (some value)
  | none => next

/-- `expect`. -/
def expect {α : Type} (result : Except CoreError α) : Handler α :=
  Action.ofExcept (mapErr .core result)

/-- The part of `CacheIndex` that no handler changes, with the functions outside the program. -/
structure CacheIndex where
  crates : OciCrates
  client : OciClient
  config : CascadingProxyConfig

namespace CacheIndex

variable (index : CacheIndex)

/-! ## Tier 0 -/

/-- The loops of `register_hot_entries`. -/
def upsertAll {α : Type} (operation : α → Operation) : List α → Handler Unit
  | [] => pure ()
  | item :: items => do
      perform (operation item)
      upsertAll operation items

def registerHotEntries (entries : HashMap StoreHash IndexEntry) : Handler Unit := do
  upsertAll (fun pair : StoreHash × IndexEntry => .upsertHot pair.1 pair.2) entries.toList
  upsertAll (fun pair : String × NarDigest => .upsertHotNar pair.1 pair.2)
    (buildNarLookupMap entries).toList
  perform (.addHotCount entries.size)

/-! ## Tier 1 -/

/-- The payload of a cached shard, when it is for this digest and has not expired. -/
def cachedPayload (descriptor : ShardDescriptor) : Option ShardCacheEntry →
    Handler (Option ShardDataPayload)
  | none => pure none
  | some cached =>
      if cached.blobDigest = descriptor.blobDigest then do
        let now ← ask .now Answer.asInstant
        pure (if now < cached.expiresAt then some cached.payload else none)
      else pure none

/-- The part of `get_shard_data` after the cache has no answer. -/
def fetchShardData (descriptor : ShardDescriptor) : Handler (Option ShardDataPayload) := do
  match ← ask (.getShardData descriptor) Answer.asPayload with
  | .ok payload => do
      perform (.setRemoteStatus { connected := true })
      let now ← ask .now Answer.asInstant
      perform (.upsertShard descriptor.shardId
        ⟨payload, buildNarLookupMap payload.entries, descriptor.blobDigest,
          now + index.config.baselineTtl⟩)
      pure (some payload)
  | .error error => do
      perform (.setRemoteStatus { connected := false, error := some error })
      pure none

def getShardData (descriptor : ShardDescriptor) : Handler (Option ShardDataPayload) := do
  let entry ← ask (.readShard descriptor.shardId) Answer.asShard
  let cached ← cachedPayload descriptor entry
  orElse cached
    (if Str.isEmpty descriptor.blobDigest then pure none else index.fetchShardData descriptor)

def cacheKey : String := index.config.baselineTag ++ "-" ++ index.config.targetSystem.asStr

/-- The shards that changed are dropped; a diff that fails drops none. -/
def dropChanged (old : Option CachedBaselineEntry) (root : ShardedArchCacheIndexData) :
    Handler Unit :=
  match old with
  | none => pure ()
  | some entry =>
      if entry.baseline.merkleRoot ≠ root.merkleRoot then
        upsertAll Operation.removeShard
          ((diffShardDescriptors index.crates.toCrates entry.baseline.shards
            root.shards).toOption.getD [])
      else pure ()

def writeBackup (root : ShardedArchCacheIndexData) : Handler Unit :=
  match IndexCodec.encodeZstd index.crates root.toJson with
  | .ok bytes => perform (.writeBackup bytes)
  | .error _ => pure ()

/-- A root from the registry. -/
def fetchBaseline : Handler (Option ShardedArchCacheIndexData) := do
  match ← ask .getShardedRoot Answer.asRoot with
  | .ok (some (root, _)) => do
      perform (.setRemoteStatus { connected := true })
      let old ← ask (.readBaseline index.cacheKey) Answer.asBaseline
      index.dropChanged old root
      index.writeBackup root
      pure (some root)
  | .ok none => do
      perform (.setRemoteStatus { connected := true })
      pure none
  | .error error => do
      perform (.setRemoteStatus { connected := false, error := some error })
      pure none

/-- What the backup file holds, when it decodes and is for this proxy. -/
def readBackup (bytes : Bytes) : Option ShardedArchCacheIndexData :=
  match IndexCodec.decodeZstd index.crates
      (ShardedArchCacheIndexData.fromJson index.crates.toCrates) bytes rootIndexV8Zstd
      index.client.limits.maxIndexUncompressedBytes with
  | .error _ => none
  | .ok decoded =>
      if (decoded.value.validateFor index.crates.toCrates index.config.targetSystem
          index.config.repo index.config.registry index.client.limits.indexLimits).isOk then
        some decoded.value
      else none

def backupBaseline : Handler (Option ShardedArchCacheIndexData) := do
  let bytes ← ask .readBackup Answer.asBackup
  pure (bytes.bind index.readBackup)

def emptyBaseline : Handler ShardedArchCacheIndexData := do
  let now ← ask .utcNow Answer.asUtc
  expect (ShardedArchCacheIndexData.new index.crates.toCrates index.config.targetSystem
    index.config.repo index.config.registry now)

/-- The part of `get_baseline_data` after the cache has no answer. -/
def refreshBaseline : Handler ShardedArchCacheIndexData := do
  let fetched ← index.fetchBaseline
  let found ← orElse fetched index.backupBaseline
  let root ← getOrElse found index.emptyBaseline
  let now ← ask .now Answer.asInstant
  perform (.upsertBaseline index.cacheKey ⟨root, now + index.config.baselineTtl⟩)
  pure root

/-- The cached baseline, when it has not expired. -/
def cachedBaseline : Option CachedBaselineEntry → Handler (Option ShardedArchCacheIndexData)
  | none => pure none
  | some entry => do
      let now ← ask .now Answer.asInstant
      pure (if now < entry.expiresAt then some entry.baseline else none)

def getBaselineData : Handler ShardedArchCacheIndexData := do
  let entry ← ask (.readBaseline index.cacheKey) Answer.asBaseline
  let cached ← cachedBaseline entry
  getOrElse cached index.refreshBaseline

/-! ## Lookups -/

/-- The lookup in the baseline. -/
def lookupBaseline (hash : StoreHash) (root : ShardedArchCacheIndexData) :
    Handler (Option IndexEntry) :=
  match root.findShardById hash.shardId with
  | none => pure none
  | some descriptor =>
      if descriptor.isEmpty ∨ Str.isEmpty descriptor.blobDigest then pure none
      else do
        let payload ← index.getShardData descriptor
        pure (payload.bind fun payload => payload.entries.lookup hash)

/-- `lookup`, with the baseline root that it obtained unless tier 0 answered. -/
@[irreducible] def lookupFrom (storeHash : String) :
    Handler (Option ShardedArchCacheIndexData × Option IndexEntry) :=
  match StoreHash.parse storeHash with
  | .error _ => pure (none, none)
  | .ok hash => do
      match ← ask (.readHot hash) Answer.asHot with
      | some entry => pure (none, some entry)
      | none => do
          let root ← index.getBaselineData
          let entry ← index.lookupBaseline hash root
          pure (some root, entry)

def lookup (storeHash : String) : Handler (Option IndexEntry) := do
  let (_, entry) ← index.lookupFrom storeHash
  pure entry

/-- The entry whose store hash is at the start of the name. -/
def lookupNarHash (narBasename : String) : Handler (Option IndexEntry) := do
  let hash ← Action.ofExcept (mapErr .slice (extractStoreHash narBasename))
  match hash with
  | none => pure none
  | some hash => index.lookup hash.val

def findNarDigest (narBasename : String) : Handler (Option NarDigest) := do
  let normalized := extractNarBasename narBasename
  match ← ask (.readHotNar normalized) Answer.asNar with
  | some digest => pure (some digest)
  | none =>
      match ← index.lookupNarHash narBasename with
      | some entry => pure (some entry.narDigest)
      | none => ask (.findShardNar normalized) Answer.asNar

/-! ## Status and refresh -/

structure StatusEntryCounts where
  tier0HotEntries : Nat
  baselineEntries : Nat
  totalUniqueEntries : Nat

def getEntryCounts : Handler StatusEntryCounts := do
  let hotCount ← ask .loadHotCount Answer.asCount
  let keyed ← ask (.readBaseline index.cacheKey) Answer.asBaseline
  let entry ← orElse keyed (ask (.readBaseline index.config.baselineTag) Answer.asBaseline)
  let baselineCount := (entry.map fun entry => entry.baseline.totalEntries).getD 0
  pure ⟨hotCount, baselineCount,
    if 0 < baselineCount then hotCount + baselineCount else hotCount⟩

/-- The error of the last call to the registry, when the baseline has no entries. -/
def refreshErrors (root : ShardedArchCacheIndexData) : Handler (List OciError) :=
  if root.totalEntries = 0 then do
    let status ← ask .loadRemoteStatus Answer.asStatus
    pure status.error.toList
  else pure []

/-- `force_refresh`: the number of entries, or the errors. -/
def forceRefresh : Handler (Except (List OciError) Nat) := do
  perform (.removeBaseline index.cacheKey)
  perform (.removeBaseline index.config.baselineTag)
  perform .clearShards
  let root ← index.getBaselineData
  let errors ← refreshErrors root
  let counts ← index.getEntryCounts
  pure (if errors = [] ∨ 0 < counts.totalUniqueEntries then .ok counts.totalUniqueEntries
    else .error errors)

end CacheIndex

/-! ## Registrations -/

/-- `#[serde(untagged)]`: the first variant that decodes. -/
inductive RegisterPayload where
  | map (entries : HashMap StoreHash IndexEntry)
  | list (entries : List IndexEntry)
  | object (entries : HashMap StoreHash IndexEntry)

namespace RegisterPayload

def fromJson (X : Crates) (json : Json) : Except JsonError RegisterPayload :=
  match entriesFromJson X json with
  | .ok entries => .ok (map entries)
  | .error _ =>
      match Json.list (IndexEntry.fromJson X) json with
      | .ok entries => .ok (list entries)
      | .error _ =>
          match (do
            let fields ← Json.record ["entries"] json
            Json.field fields "entries" (entriesFromJson X)) with
          | .ok entries => .ok (object entries)
          | .error _ => .error .noVariant

/-- One iteration over the list. -/
def insertEntry (entries : HashMap StoreHash IndexEntry) (entry : IndexEntry) :
    HashMap StoreHash IndexEntry :=
  match entry.storeHash with
  | some hash => entries.insert hash entry
  | none => entries

/-- The map that `handle_register_session` registers. -/
def entries : RegisterPayload → HashMap StoreHash IndexEntry
  | map entries => entries
  | list entries => entries.foldl insertEntry ∅
  | object entries => entries

end RegisterPayload

/-- `handle_register_session`: the number of entries; a body that does not decode is refused. -/
def handleRegisterSession (X : Crates) (body : Json) : Handler (Option Nat) :=
  match RegisterPayload.fromJson X body with
  | .error _ => pure none
  | .ok payload => do
      CacheIndex.registerHotEntries payload.entries
      pure (some payload.entries.size)

end NixCache.Proxy
