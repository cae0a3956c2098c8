import NixCache.Oci.Client
/-!
# The index client

`nixcache-oci/src/client/index.rs` and `client/index/update.rs`.  A mutator is an `FnMut`: it is
given what it was called with before, then its argument.
-/

namespace NixCache.Oci

open NixCache.Lib NixCache.Lib.Result NixCache.Core

/-- `FnMut(Option<T>) -> Result<T, OciError>`. -/
abbrev Mutator (α : Type) := List (Option α) → Option α → Except OciError α

/-- One call of a mutator: what it was called with before, its argument and its result. -/
structure Application (α : Type) where
  history : List (Option α)
  argument : Option α
  result : α

/-- `arch_tag`. -/
def archTag (tag : String) (system : SystemArch) : String :=
  if Str.endsWith tag system.asStr then tag else tag ++ "-" ++ system.asStr

namespace IndexClient

section

variable (X : OciCrates) (client : OciClient)

/-! ## Reading -/

def getImageManifest (tag : String) : Exchange (Option (OciImageManifest × String)) := do
  match ← ManifestClient.getWithDigest X client tag with
  | none => pure none
  | some (json, digest) => do
      let manifest ← Action.ofExcept (ManifestClient.parseJson X OciImageManifest.fromJson json)
      Action.ofExcept (manifest.validateFor client.limits tag)
      pure (some (manifest, digest))

/-- The limit on the compressed size of every shard that is not empty. -/
def checkCompressedSizes (limits : OciReadLimits) (root : ShardedArchCacheIndexData) :
    Except OciError Unit :=
  checkAll
    (fun shard => ensure (shard.isEmpty ∨ shard.compressedSize ≤ limits.maxBufferedBlobBytes)
      (OciError.sizeLimitExceeded shard.blobDigest limits.maxBufferedBlobBytes.toNat
        shard.compressedSize.toNat))
    root.shards

def decodeRootManifest (manifest : OciImageManifest) (system : SystemArch) (target : String) :
    Exchange ShardedArchCacheIndexData := do
  let merkleRoot ← Action.ofExcept <| okOr
    (.invalidDescriptor target "Schema v8 root manifest merkle_root annotation is missing")
    (manifest.annotations.bind fun annotations => annotations.lookup merkleRootKey)
  let layer ← Action.ofExcept
    (manifest.validateSchemaV8Root system merkleRoot client.limits target)
  let blob ← BlobClient.getDescriptor X client layer
  let decoded ← Action.ofExcept <| IndexCodec.decodeZstd X
    (ShardedArchCacheIndexData.fromJson X.toCrates) blob layer.mediaType
    client.limits.maxIndexUncompressedBytes
  let root := decoded.value
  Action.ofExcept <| liftCore
    (root.validateFor X.toCrates system client.repo client.authority client.limits.indexLimits)
  Action.ofExcept (checkCompressedSizes client.limits root)
  Action.ofExcept <| ensure (root.merkleRoot = merkleRoot)
    (.digestMismatch target merkleRoot root.merkleRoot)
  pure root

/-- The system of a child of an image index: its platform, else its annotation. -/
def descriptorSystem (descriptor : OciDescriptor) : Option SystemArch :=
  descriptor.platformSystem.or descriptor.annotationSystem

/-- The branch of `get_sharded_root` for an image index. -/
def getShardedRootFromIndex (index : OciImageIndex) (system : SystemArch) :
    Exchange (Option ShardedArchCacheIndexData) := do
  match index.findManifestForSystem system with
  | none => pure none
  | some descriptor => do
      Action.ofExcept <| ensure (descriptorSystem descriptor = some system)
        (.invalidDescriptor descriptor.digest
          "image index descriptor platform does not match the request")
      let found ← ManifestClient.getWithDigestAndSize X client descriptor.digest descriptor.size
      let (manifestJson, _) ← Action.ofExcept <|
        okOr (.subManifestMissing descriptor.digest) found
      let subManifest ← Action.ofExcept
        (ManifestClient.parseJson X OciImageManifest.fromJson manifestJson)
      Action.ofExcept (subManifest.validateFor client.limits descriptor.digest)
      let root ← decodeRootManifest X client subManifest system descriptor.digest
      pure (some root)

/-- The part of `get_sharded_root` after the per-architecture tag was found absent. -/
def getShardedRootFallback (tag : String) (system : SystemArch) :
    Exchange (Option (ShardedArchCacheIndexData × String)) := do
  match ← ManifestClient.fetchArtifact X client tag with
  | none => pure none
  | some artifact =>
      match artifact.manifest with
      | .index index => do
          let root ← getShardedRootFromIndex X client index system
          pure (root.map fun root => (root, artifact.digest))
      | .manifest manifest => do
          let root ← decodeRootManifest X client manifest system tag
          pure (some (root, artifact.digest))

def getShardedRoot (tag : String) (system : SystemArch) :
    Exchange (Option (ShardedArchCacheIndexData × String)) := do
  match ← getImageManifest X client (archTag tag system) with
  | some (subManifest, subDigest) => do
      let root ← decodeRootManifest X client subManifest system (archTag tag system)
      pure (some (root, subDigest))
  | none => getShardedRootFallback X client tag system

/-- The branch of `get_shard_data` for a descriptor without entries. -/
def emptyShardData (descriptor : ShardDescriptor) : Except OciError ShardDataPayload := do
  let payload ← liftCore (ShardDataPayload.new descriptor.shardId)
  let merkleHash ← liftCore (payload.computeMerkleHash X.toCrates)
  ensure (descriptor.shardId < 1024 ∧ Str.isEmpty descriptor.blobDigest ∧
      descriptor.compressedSize = 0 ∧ descriptor.uncompressedSize = 0 ∧
      descriptor.merkleHash = merkleHash)
    (.invalidDescriptor (toString descriptor.shardId.toNat)
      "empty shard descriptor has non-empty metadata")
  pure payload

/-- The checks on a decoded shard. -/
def checkShardData (descriptor : ShardDescriptor) (system : SystemArch)
    (decoded : DecodedIndex ShardDataPayload) : Except OciError ShardDataPayload := do
  ensure (decoded.uncompressedSize = descriptor.uncompressedSize)
    (.sizeMismatch descriptor.blobDigest descriptor.uncompressedSize.toNat
      decoded.uncompressedSize.toNat)
  let payload := decoded.value
  liftCore
    (payload.validateFor X.toCrates descriptor.shardId system client.limits.indexLimits)
  ensure (payload.entries.size = descriptor.entryCount.toNat)
    (.sizeMismatch descriptor.blobDigest descriptor.entryCount.toNat payload.entries.size)
  liftCore (payload.validateMerkleHash X.toCrates descriptor.merkleHash)
  pure payload

def getShardData (descriptor : ShardDescriptor) (system : SystemArch) :
    Exchange ShardDataPayload := do
  Action.ofExcept <| liftCore (descriptor.validateStructure X.toCrates)
  if descriptor.entryCount = 0 then Action.ofExcept (emptyShardData X descriptor)
  else do
    let blob ← BlobClient.getDescriptor X client
      ⟨shardDataV8Zstd, descriptor.blobDigest, descriptor.compressedSize, none, none⟩
    let decoded ← Action.ofExcept <| IndexCodec.decodeZstd X
      (ShardDataPayload.fromJson X.toCrates) blob shardDataV8Zstd
      client.limits.maxIndexUncompressedBytes
    Action.ofExcept (checkShardData X client descriptor system decoded)

/-! ## Writing -/

/-- The manifest of a root whose blob has been pushed, as text. -/
def rootManifestText (now : String) (root : ShardedArchCacheIndexData) (digest : ContentDigest)
    (size : UInt64) : String :=
  X.jsonText (buildShardedArchIndexManifest now
    ⟨digest.val, size, emptyConfigDigest, emptyConfigSize, root.system, root.merkleRoot⟩).toJson

def pushShardedRoot (now tag : String) (root : ShardedArchCacheIndexData) : Exchange String := do
  Action.ofExcept <| liftCore (root.validateStructure X.toCrates)
  let (digest, size, _) ← BlobClient.pushZstd X client root.toJson
  let manifestJson := rootManifestText X now root digest size
  ManifestClient.put X client tag manifestJson
  pure (ContentDigest.fromBytes X.toCrates (Str.asBytes manifestJson)).val

def pushShardedRootCas (now tag : String) (root : ShardedArchCacheIndexData)
    (condition : ManifestCasCondition) : Exchange String := do
  Action.ofExcept (ManifestClient.ensureCasSupported client tag)
  Action.ofExcept <| liftCore (root.validateStructure X.toCrates)
  let (digest, size, _) ← BlobClient.pushZstd X client root.toJson
  let manifestJson := rootManifestText X now root digest size
  ManifestClient.putCas X client tag manifestJson condition
  pure (ContentDigest.fromBytes X.toCrates (Str.asBytes manifestJson)).val

def pushShardData (payload : ShardDataPayload) : Exchange (String × UInt64 × UInt64) := do
  Action.ofExcept <| liftCore (payload.validateStructure X.toCrates)
  let (digest, compressed, uncompressed) ← BlobClient.pushZstd X client payload.toJson
  pure (digest.val, compressed, uncompressed)

def put (tag : String) (index : OciImageIndex) : Exchange Unit :=
  ManifestClient.putText X tag ociImageIndexMediaType "push image index" (X.jsonText index.toJson)

def putCas (tag : String) (index : OciImageIndex) (condition : ManifestCasCondition) :
    Exchange Unit := do
  Action.ofExcept (ManifestClient.ensureCasSupported client tag)
  ManifestClient.putTextCas X tag ociImageIndexMediaType "push image index with CAS"
    (X.jsonText index.toJson) condition

/-! ## Updates -/

/-- A conflict that may be retried, or the result of the attempt. -/
def retryConflict {α : Type} (result : Except OciError α) (retry : Exchange α) : Exchange α :=
  match result with
  | .error (.casPreconditionFailed _ _ _) => retry
  | result => Action.ofExcept result

/-- The loop that `update_cas` and `update_sharded_cas` share, with the number of retries that are
left: read, mutate, publish under the condition that nothing changed, and begin again on a conflict.
It returns the application of the mutator that was published. -/
def casLoop {α β : Type} (read : Exchange (Option α × ManifestCasCondition))
    (publish : Nat → α → ManifestCasCondition → Exchange β) (mutator : Mutator α) :
    Nat → List (Option α) → Exchange (β × Application α)
  | retries, history => do
      let (existing, condition) ← read
      let updated ← Action.ofExcept (mutator history existing)
      let result ← Action.attempt do
        let value ← publish history.length updated condition
        pure (value, ⟨history, existing, updated⟩)
      match retries with
      | 0 => Action.ofExcept result
      | retries + 1 =>
          retryConflict result (casLoop read publish mutator retries (history ++ [existing]))

/-- One read of `update_cas`: the existing index, and the condition that it is still there. -/
def readForUpdate (tag : String) : Exchange (Option OciImageIndex × ManifestCasCondition) := do
  match ← ManifestClient.fetchArtifact X client tag with
  | some artifact => pure (artifact.manifest.asIndex, .matching artifact.digest)
  | none => pure (none, .createOnly)

/-- `update_cas`, with the application of the mutator that it published. -/
def updateCasApplied (tag : String) (maxRetries : Nat) (mutator : Mutator OciImageIndex) :
    Exchange (Unit × Application OciImageIndex) := do
  Action.ofExcept (ManifestClient.ensureCasSupported client tag)
  casLoop (readForUpdate X client tag) (fun _ => putCas X client tag) mutator maxRetries []

def updateCas (tag : String) (maxRetries : Nat) (mutator : Mutator OciImageIndex) :
    Exchange Unit := do
  let _ ← updateCasApplied X client tag maxRetries mutator
  pure ()

def updateSingleWriter (tag : String) (mutator : Mutator OciImageIndex) : Exchange Unit := do
  let artifact ← ManifestClient.fetchArtifact X client tag
  let updated ← Action.ofExcept <| mutator [] (artifact.bind fun artifact => artifact.manifest.asIndex)
  put X tag updated

/-- One read of `update_sharded_cas`. -/
def readRootForUpdate (tag : String) (system : SystemArch) :
    Exchange (Option ShardedArchCacheIndexData × ManifestCasCondition) := do
  match ← getShardedRoot X client tag system with
  | some (root, digest) => pure (some root, .matching digest)
  | none => pure (none, .createOnly)

/-- `update_sharded_cas`, with the application of the mutator that it published; `clock` gives the
time of each attempt. -/
def updateShardedCasApplied (clock : Nat → String) (tag : String) (system : SystemArch)
    (maxRetries : Nat) (mutator : Mutator ShardedArchCacheIndexData) :
    Exchange (String × Application ShardedArchCacheIndexData) := do
  Action.ofExcept (ManifestClient.ensureCasSupported client tag)
  let archTag := archTag tag system
  casLoop (readRootForUpdate X client archTag system)
    (fun attempt root condition =>
      pushShardedRootCas X client (clock attempt) archTag root condition)
    mutator maxRetries []

def updateShardedCas (clock : Nat → String) (tag : String) (system : SystemArch) (maxRetries : Nat)
    (mutator : Mutator ShardedArchCacheIndexData) : Exchange String := do
  let (digest, _) ← updateShardedCasApplied X client clock tag system maxRetries mutator
  pure digest

end

end IndexClient

end NixCache.Oci
