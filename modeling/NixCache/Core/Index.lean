import NixCache.Core.Sharding
/-!
# Root indexes, shard payloads and build receipts

The rest of `nixcache-core/src/types.rs`.  `chrono::Utc::now` is an argument, already formatted.
-/

namespace NixCache.Core

open NixCache.Lib NixCache.Lib.Result

def schemaVersionV8 : UInt32 := 8

def receiptVersion : UInt32 := 7

/-- The trait `IndexValidationLimits`. -/
structure IndexLimits where
  maxShardEntries : UInt64
  maxGcRoots : UInt64
  maxUncompressedBytes : UInt64
  maxNarSize : UInt64
deriving DecidableEq, Repr

/-- The check that `generated`, `added` and `timestamp` share. -/
def isTimestamp (X : Crates) (text : String) : Bool :=
  ¬ Str.isEmpty (Str.trim text) ∧ (X.parseFromRfc3339 text).isSome

/-! ## Root indexes -/

@[ext] structure ShardedArchCacheIndexData where
  version : UInt32
  system : SystemArch
  repo : String
  registry : String
  generated : String
  publicKey : String
  shards : List ShardDescriptor
  merkleRoot : String
  gcRoots : List StoreHash
  lastPromotedRun : Option UInt64
deriving DecidableEq, Repr

namespace ShardedArchCacheIndexData

/-- `new`; its two `expect`s are the error branches. -/
def new (X : Crates) (system : SystemArch) (repo registry now : String) :
    Except CoreError ShardedArchCacheIndexData := do
  let shards ← collect (fun id => ShardDescriptor.empty X (UInt16.ofNat id)) (List.range numShards)
  let merkleRoot ← computeMerkleRoot X shards
  pure {
    version := schemaVersionV8
    system := system
    repo := repo
    registry := registry
    generated := now
    publicKey := ""
    shards := shards
    merkleRoot := merkleRoot
    gcRoots := []
    lastPromotedRun := none }

def recalculateMerkleRoot (X : Crates) (root : ShardedArchCacheIndexData) :
    Except CoreError ShardedArchCacheIndexData := do
  let merkleRoot ← computeMerkleRoot X root.shards
  pure { root with merkleRoot := merkleRoot }

/-- The check of the descriptor at one index. -/
def validateSlot (X : Crates) (slot : ShardDescriptor × Nat) : Except CoreError Unit := do
  ensure (slot.1.shardId = UInt16.ofNat slot.2)
    (.invalidIndex ("shard descriptor at index " ++ toString slot.2 ++ " has wrong id"))
  slot.1.validateStructure X

def validateStructure (X : Crates) (root : ShardedArchCacheIndexData) : Except CoreError Unit := do
  ensure (root.version = schemaVersionV8) (.invalidIndex "version must be 8")
  ensure root.system.isKnown (.invalidIndex "root system must be known")
  ensure (¬ Str.isEmpty (Str.trim root.repo) ∧ ¬ Str.isEmpty (Str.trim root.registry))
    (.invalidIndex "root repository and registry must not be empty")
  ensure (isTimestamp X root.generated)
    (.invalidIndex "root generated must be a valid RFC3339 timestamp")
  ensure (root.shards.length = numShards)
    (.invalidIndex ("expected exactly " ++ toString numShards ++ " shard descriptors"))
  checkAll (validateSlot X) root.shards.zipIdx
  mapErr (fun details => CoreError.invalidIndex ("root Merkle hash: " ++ details))
    (validateSha256 root.merkleRoot)
  let merkleRoot ← computeMerkleRoot X root.shards
  ensure (merkleRoot = root.merkleRoot)
    (.invalidIndex "root Merkle hash does not match shard descriptors")

/-- The limits on one descriptor. -/
def validateShardLimits (limits : IndexLimits) (shard : ShardDescriptor) : Except CoreError Unit :=
  if shard.isEmpty then .ok ()
  else do
    ensure (shard.uncompressedSize ≤ limits.maxUncompressedBytes)
      (.limitExceeded "shard uncompressed bytes" limits.maxUncompressedBytes.toNat
        shard.uncompressedSize.toNat)
    ensure (shard.entryCount ≤ limits.maxShardEntries)
      (.limitExceeded "shard entries" limits.maxShardEntries.toNat shard.entryCount.toNat)

def validateFor (X : Crates) (system : SystemArch) (repo registry : String) (limits : IndexLimits)
    (root : ShardedArchCacheIndexData) : Except CoreError Unit := do
  root.validateStructure X
  ensure (root.system = system) (.invalidIndex "root system does not match the requested system")
  ensure (root.repo = repo ∧ root.registry = registry)
    (.invalidIndex "root repository or registry does not match the client target")
  checkAll (validateShardLimits limits) root.shards
  ensure (root.gcRoots.length ≤ limits.maxGcRoots.toNat)
    (.limitExceeded "GC roots" limits.maxGcRoots.toNat root.gcRoots.length)

end ShardedArchCacheIndexData

/-! ## Shard payloads -/

structure ShardDataPayload where
  version : UInt32
  shardId : UInt16
  shardPrefix : String
  entries : HashMap StoreHash IndexEntry

namespace ShardDataPayload

/-- Equality of payloads, as `PartialEq` derives it: maps are compared by content. -/
structure Same (p q : ShardDataPayload) : Prop where
  version : p.version = q.version
  shardId : p.shardId = q.shardId
  shardPrefix : p.shardPrefix = q.shardPrefix
  entries : ∀ hash, p.entries.lookup hash = q.entries.lookup hash

def new (shardId : UInt16) : Except CoreError ShardDataPayload := do
  ensure (shardId < 1024)
    (.invalidShard ("shard id " ++ toString shardId.toNat ++ " is out of range"))
  pure ⟨schemaVersionV8, shardId, shardIdToPrefix shardId, ∅⟩

def withEntries (shardId : UInt16) (entries : HashMap StoreHash IndexEntry) :
    Except CoreError ShardDataPayload := do
  let payload ← new shardId
  pure { payload with entries := entries }

def computeMerkleHash (X : Crates) (payload : ShardDataPayload) : Except CoreError String :=
  computeShardMerkleHash X payload.shardId payload.entries

/-- The structural checks of one entry of a payload. -/
def validateEntry (X : Crates) (shardId : UInt16) (item : StoreHash × IndexEntry) :
    Except CoreError Unit := do
  mapErr (fun error => CoreError.invalidShard ("entry " ++ item.1.val ++ ": " ++ error.text))
    (item.2.validateStructure X)
  ensure (item.1.shardId = shardId)
    (.invalidShard ("entry " ++ item.1.val ++ " belongs to another shard"))
  ensure (item.2.system.any SystemArch.isKnown)
    (.invalidShard ("entry " ++ item.1.val ++ " has an unknown or missing system"))
  ensure (item.2.storeHash = some item.1)
    (.invalidShard ("entry " ++ item.1.val ++ " StorePath does not match map key"))

def validateStructure (X : Crates) (payload : ShardDataPayload) : Except CoreError Unit := do
  ensure (payload.version = schemaVersionV8) (.invalidShard "version must be 8")
  ensure (payload.shardId < 1024)
    (.invalidShard ("shard id " ++ toString payload.shardId.toNat ++ " is out of range"))
  ensure (payload.shardPrefix = shardIdToPrefix payload.shardId)
    (.invalidShard "payload prefix does not match shard id")
  checkAll (validateEntry X payload.shardId) payload.entries.toList

/-- The checks of one entry against the reader's system and limits. -/
def validateEntryFor (system : SystemArch) (limits : IndexLimits)
    (item : StoreHash × IndexEntry) : Except CoreError Unit := do
  ensure (item.2.system = some system)
    (.invalidShard ("entry " ++ item.1.val ++ " has a mismatched or missing system"))
  ensure (item.2.narSize ≤ limits.maxNarSize)
    (.limitExceeded "NAR size" limits.maxNarSize.toNat item.2.narSize.toNat)

def validateFor (X : Crates) (shardId : UInt16) (system : SystemArch) (limits : IndexLimits)
    (payload : ShardDataPayload) : Except CoreError Unit := do
  payload.validateStructure X
  ensure (shardId < 1024 ∧ payload.shardId = shardId)
    (.invalidShard "payload shard id is invalid or does not match the descriptor")
  ensure (payload.shardPrefix = shardIdToPrefix shardId)
    (.invalidShard "payload prefix does not match shard id")
  ensure (payload.entries.size ≤ limits.maxShardEntries.toNat)
    (.limitExceeded "shard entries" limits.maxShardEntries.toNat payload.entries.size)
  checkAll (validateEntryFor system limits) payload.entries.toList

def validateMerkleHash (X : Crates) (expected : String) (payload : ShardDataPayload) :
    Except CoreError Unit := do
  let actual ← payload.computeMerkleHash X
  ensure (actual = expected) (.invalidShard "payload Merkle hash does not match root descriptor")

end ShardDataPayload

/-! ## Build receipts -/

structure BuildStats where
  discoveredOutputs : UInt64
  builtPaths : UInt64
  substitutedPaths : UInt64
  uploadedBlobs : UInt64
  totalBytesUploaded : UInt64
deriving DecidableEq, Repr

/-- Field by field; a sum wraps, as it does in a release build. -/
def BuildStats.add (stats other : BuildStats) : BuildStats where
  discoveredOutputs := stats.discoveredOutputs + other.discoveredOutputs
  builtPaths := stats.builtPaths + other.builtPaths
  substitutedPaths := stats.substitutedPaths + other.substitutedPaths
  uploadedBlobs := stats.uploadedBlobs + other.uploadedBlobs
  totalBytesUploaded := stats.totalBytesUploaded + other.totalBytesUploaded

structure BuildReceipt where
  version : UInt32
  system : SystemArch
  repo : String
  origin : Option OriginMetadata
  timestamp : String
  publicKey : Option String
  newEntries : HashMap StoreHash IndexEntry
  activeGcRoots : List StoreHash
  stats : BuildStats

namespace BuildReceipt

/-- Equality of receipts, as `PartialEq` derives it: maps are compared by content. -/
structure Same (a b : BuildReceipt) : Prop where
  version : a.version = b.version
  system : a.system = b.system
  repo : a.repo = b.repo
  origin : a.origin = b.origin
  timestamp : a.timestamp = b.timestamp
  publicKey : a.publicKey = b.publicKey
  entries : ∀ hash, a.newEntries.lookup hash = b.newEntries.lookup hash
  roots : a.activeGcRoots = b.activeGcRoots
  stats : a.stats = b.stats

/-- The `Debug` text of an origin, which the mismatch error quotes; for a job id without characters
that `Debug` escapes. -/
def originText : Option OriginMetadata → String
  | none => "None"
  | some origin =>
      "Some(OriginMetadata \x7b run_id: " ++
        (match origin.runId with | none => "None" | some id => "Some(" ++ toString id.toNat ++ ")") ++
        ", job_id: " ++
        (match origin.jobId with | none => "None" | some id => "Some(\"" ++ id ++ "\")") ++ " \x7d)"

def validateEntryOrigin (origin : Option OriginMetadata) (item : StoreHash × IndexEntry) :
    Except CoreError Unit := do
  NarInfoMeta.whenSome item.2.origin fun entryOrigin =>
    mapErr (fun error =>
        CoreError.invalidReceipt ("entry " ++ item.1.val ++ " origin: " ++ error.text))
      entryOrigin.validateStructure
  ensure (item.2.origin = origin)
    (.receiptOriginMismatch item.1.val (originText origin) (originText item.2.origin))

def validateOriginConsistency (receipt : BuildReceipt) : Except CoreError Unit := do
  NarInfoMeta.whenSome receipt.origin fun origin => liftType origin.validateStructure
  checkAll (validateEntryOrigin receipt.origin) receipt.newEntries.toList

def validateStructure (X : Crates) (receipt : BuildReceipt) : Except CoreError Unit := do
  ensure (receipt.version = receiptVersion) (.invalidReceipt "version must be 7")
  ensure receipt.system.isKnown (.invalidReceipt "receipt system must be known")
  ensure (¬ Str.isEmpty (Str.trim receipt.repo))
    (.invalidReceipt "receipt repository must not be empty")
  ensure (isTimestamp X receipt.timestamp)
    (.invalidReceipt "receipt timestamp must be a valid RFC3339 timestamp")
  receipt.validateOriginConsistency
  checkAll
    (fun item =>
      mapErr (fun error => CoreError.invalidReceipt ("entry " ++ item.1.val ++ ": " ++ error.text))
        (item.2.validateStructure X))
    receipt.newEntries.toList

def new (system : SystemArch) (repo timestamp : String) (publicKey : Option String)
    (newEntries : HashMap StoreHash IndexEntry) (activeGcRoots : List StoreHash)
    (stats : BuildStats) (origin : Option OriginMetadata) : Except CoreError BuildReceipt := do
  let receipt : BuildReceipt := ⟨receiptVersion, system, repo, origin, timestamp, publicKey,
    newEntries, activeGcRoots, stats⟩
  receipt.validateOriginConsistency
  pure receipt

/-- `extend`, `sort_unstable` and `dedup` of the GC roots. -/
def extendRoots (roots other : List StoreHash) : List StoreHash :=
  ((roots ++ other).insertionSort (· ≤ ·)).destutter (· ≠ ·)

/-- `merge_with` on `&mut self`: its result, and the receipt it leaves behind. -/
def mergeWith (receipt other : BuildReceipt) : Except CoreError Unit × BuildReceipt :=
  let merging : Mutating CoreError BuildReceipt Unit := do
    ofExcept (← get).validateOriginConsistency
    ofExcept other.validateOriginConsistency
    ofExcept (ensure ((← get).system = other.system)
      (.invalidReceipt "cannot merge receipts of different architectures"))
    ofExcept (ensure ((← get).origin = other.origin)
      (.invalidReceipt "cannot merge receipts with different origins"))
    modify fun self => { self with newEntries := self.newEntries.extend other.newEntries }
    modify fun self =>
      { self with activeGcRoots := extendRoots self.activeGcRoots other.activeGcRoots }
    modify fun self => { self with stats := self.stats.add other.stats }
    modify fun self => { self with publicKey := self.publicKey.or other.publicKey }
    ofExcept (← get).validateOriginConsistency
  merging.run.run receipt

end BuildReceipt

end NixCache.Core
