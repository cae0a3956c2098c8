import Mathlib.Data.Finset.Card
import NixCache.Lib.JsonValue
import NixCache.Lib.Recording
import NixCache.Oci.GitHubPackages
import NixCache.Oci.Index
/-!
# Discovering what the tags reach

`nixcache-oci/src/client/deletion/discovery.rs`: the manifests that the tags reach through image
indexes, and the blobs that these manifests refer to.  The source also carries the tag along that a
queued manifest was found under, which nothing reads.
-/

namespace NixCache.Oci

open NixCache.Lib NixCache.Lib.Result NixCache.Core

/-! ## Layers of the cache -/

inductive CacheLayerMediaType where
  | rootIndexV8Zstd
  | shardDataV8Zstd
deriving DecidableEq, Repr

namespace CacheLayerMediaType

def parse (s : String) : Option CacheLayerMediaType :=
  if s = NixCache.Oci.rootIndexV8Zstd then some rootIndexV8Zstd
  else if s = NixCache.Oci.shardDataV8Zstd then some shardDataV8Zstd
  else none

def asStr : CacheLayerMediaType → String
  | rootIndexV8Zstd => NixCache.Oci.rootIndexV8Zstd
  | shardDataV8Zstd => NixCache.Oci.shardDataV8Zstd

end CacheLayerMediaType

/-! ## The plan -/

structure DeletionPlan where
  tags : List String
  /-- The text of each manifest, by digest. -/
  manifests : HashMap String String
  /-- The size of each blob, by digest. -/
  blobs : HashMap String UInt64

def DeletionPlan.summary (plan : DeletionPlan) : PackageDeletionSummary where
  tagsDiscovered := plan.tags.length
  manifestsDiscovered := plan.manifests.size
  blobsDiscovered := plan.blobs.size

/-- The variables of the traversal. -/
structure Discovery where
  plan : DeletionPlan
  /-- The digests and texts of the manifests that are queued. -/
  pending : List (String × String)
  queuedManifests : Finset String
  decodedShardBlobs : Finset String

def Discovery.queue (discovery : Discovery) (digest body : String) : Discovery :=
  { discovery with
    pending := discovery.pending ++ [(digest, body)]
    queuedManifests := insert digest discovery.queuedManifests }

/-- `sort` and `dedup`. -/
def sortedTags (tags : List String) : List String :=
  (tags.insertionSort (· ≤ ·)).destutter (· ≠ ·)

namespace DeletionClient

def maxDeletionManifests : Nat := 100000

def maxDeletionBlobs : Nat := 2000000

/-- An exchange of the client during the discovery. -/
def discover {α : Type} (stage target : String) (exchange : Exchange α) : Deletion α :=
  Action.mapErr (fun error => .discoveryFailed stage target (.oci error))
    (Action.embed DeletionRequest.client exchange)

/-! ## Manifests -/

def parseDiscoveredManifest (X : OciCrates) (body target : String) :
    Except DeletionError OciArtifactManifest := do
  let failed := DeletionError.discoveryFailed "manifest_json" target
  let value ← mapErr (fun error => failed (.json error)) <|
    Json.asValue <$> X.fromSlice (Str.asBytes body)
  let schemaVersion ← okOr (failed (.text "missing schemaVersion"))
    ((value.get "schemaVersion").bind Json.asU64)
  ensure (schemaVersion = 2) (failed (.text "unsupported OCI schemaVersion"))
  let mediaType ← okOr (failed (.text "missing mediaType"))
    ((value.get "mediaType").bind Json.asStr)
  ensure (mediaType = ociImageIndexMediaType ∨ mediaType = ociImageManifestMediaType)
    (failed (.text ("unsupported OCI manifest media type '" ++ mediaType ++ "'")))
  mapErr (fun error => failed (.json error)) (OciArtifactManifest.fromJson value)

/-! ## Blobs -/

def validDigest (digest : String) : Bool := (ContentDigest.parse digest).isOk

/-- `entry(digest).or_insert(size)`, within the limit on the number of blobs. -/
def insertBlob (plan : DeletionPlan) (digest : String) (size : UInt64) (repo : String) :
    Except DeletionError DeletionPlan := do
  ensure (¬ (maxDeletionBlobs ≤ plan.blobs.size ∧ digest ∉ plan.blobs)) (.objectLimitExceeded repo)
  pure { plan with blobs := plan.blobs.orInsert digest size }

def addBlob (plan : DeletionPlan) (digest : String) (size : UInt64) (target kind repo : String) :
    Except DeletionError DeletionPlan := do
  ensure (validDigest digest)
    (.discoveryFailed "blob_descriptor" target
      (.text ("manifest contains an invalid " ++ kind ++ " digest")))
  insertBlob plan digest size repo

/-- One entry of `add_nar_blobs`. -/
def addNarBlob (target repo : String) (plan : DeletionPlan) (entry : IndexEntry) :
    Except DeletionError DeletionPlan := do
  let digest := entry.narDigest.val
  ensure (validDigest digest)
    (.discoveryFailed "shard_decode" target (.text "shard contains an invalid NAR digest"))
  insertBlob plan digest entry.narSize repo

def addNarBlobs (plan : DeletionPlan) (shard : ShardDataPayload) (target repo : String) :
    Except DeletionError DeletionPlan :=
  foldM (addNarBlob target repo) plan shard.entries.values

/-! ## The system of a shard layer -/

/-- The systems that a manifest and a layer name, with where they name them. -/
def systemCandidates (manifest : OciImageManifest) (layer : OciDescriptor) :
    List (String × SystemArch) :=
  [manifest.config.platformSystem.map ("manifest config platform", ·),
    layer.platformSystem.map ("shard layer platform", ·),
    ((manifest.annotations.bind fun annotations => annotations.lookup systemKey).map
      SystemArch.ofStr).map ("manifest system annotation", ·),
    layer.annotationSystem.map ("shard layer system annotation", ·)].filterMap id

/-- One candidate, after those before it were resolved. -/
def resolveCandidate (target : String) (resolved : Option SystemArch)
    (candidate : String × SystemArch) : Except DeletionError (Option SystemArch) := do
  let failed := DeletionError.discoveryFailed "shard_context" target
  ensure candidate.2.isKnown (failed (.text (candidate.1 ++ " is unknown")))
  ensure (∀ previous ∈ resolved, previous = candidate.2)
    (failed (.text "manifest and shard layer systems do not match"))
  pure (some candidate.2)

def resolveShardSystem (manifest : OciImageManifest) (layer : OciDescriptor) (target : String) :
    Except DeletionError SystemArch := do
  let resolved ← foldM (resolveCandidate target) none (systemCandidates manifest layer)
  okOr (.discoveryFailed "shard_context" target
    (.text "direct shard payload has no manifest or layer system")) resolved

section

variable (X : OciCrates) (client : OciClient)

/-! ## Tags -/

/-- The tags that GitHub lists for the versions of the package. -/
def listPackagesTags : Deletion (List String) := do
  let (versions, _) ← Action.embed DeletionRequest.packages <|
    GitHubPackagesClient.listPackageVersions X (GitHubPackagesClient.new client.repo) .unknown
  pure (versions.flatMap GitHubPackageVersion.tags)

def listTagsForDeletion : Deletion (List String) := do
  let list ← Action.mapErr .pagination
    (Action.embed DeletionRequest.tags (ManifestClient.listTags X client))
  if list.tags = [] ∧ client.kind.deletionStrategy = .gitHubPackagesRestApi then do
    let tags ← listPackagesTags X client
    pure (sortedTags (list.tags ++ tags))
  else pure (sortedTags list.tags)

/-- The manifest of a tag is queued, unless it is already. -/
def queueTag (discovery : Discovery) (tag : String) : Deletion Discovery := do
  match ← discover "manifest_get" tag (ManifestClient.getWithDigest X client tag) with
  | none => pure discovery
  | some (body, digest) =>
      if digest ∈ discovery.queuedManifests then pure discovery
      else do
        Action.ofExcept <| ensure (discovery.queuedManifests.card < maxDeletionManifests)
          (.objectLimitExceeded client.repo)
        pure (discovery.queue digest body)

/-! ## Image indexes -/

/-- A child of the image index `digest` is queued, unless it is already. -/
def queueChild (digest : String) (discovery : Discovery) (descriptor : OciDescriptor) :
    Deletion Discovery := do
  let failed := DeletionError.discoveryFailed "manifest_descriptor" digest
  Action.ofExcept <| mapErr (fun error => failed (.oci error))
    (descriptor.validateFor digest client.limits.maxManifestBytes)
  Action.ofExcept <| ensure
    (descriptor.mediaType = ociImageIndexMediaType ∨
      descriptor.mediaType = ociImageManifestMediaType)
    (failed (.text ("unsupported child manifest media type '" ++ descriptor.mediaType ++ "'")))
  if descriptor.digest ∈ discovery.queuedManifests then pure discovery
  else do
    Action.ofExcept <| ensure (discovery.queuedManifests.card < maxDeletionManifests)
      (.objectLimitExceeded descriptor.digest)
    let found ← discover "manifest_get" descriptor.digest
      (ManifestClient.getWithDigestAndSize X client descriptor.digest descriptor.size)
    let (body, _) ← Action.ofExcept <| okOr
      (.discoveryFailed "manifest_get" descriptor.digest
        (.text "child manifest disappeared during discovery")) found
    pure (discovery.queue descriptor.digest body)

/-! ## Image manifests -/

/-- A shard that the root `rootDigest` refers to; the NAR blobs of one shard blob are added once. -/
def discoverShard (system : SystemArch) (rootDigest : String) (discovery : Discovery)
    (shard : ShardDescriptor) : Deletion Discovery :=
  if shard.entryCount = 0 then pure discovery
  else do
    let plan ← Action.ofExcept <| addBlob discovery.plan shard.blobDigest shard.compressedSize
      rootDigest "shard" client.repo
    if shard.blobDigest ∈ discovery.decodedShardBlobs then pure { discovery with plan := plan }
    else do
      let shardData ← discover "shard_get" shard.blobDigest
        (IndexClient.getShardData X client shard system)
      let plan ← Action.ofExcept (addNarBlobs plan shardData shard.blobDigest client.repo)
      pure { discovery with
        plan := plan
        decodedShardBlobs := insert shard.blobDigest discovery.decodedShardBlobs }

/-- A root among the layers of a manifest. -/
def discoverRootLayer (layer : OciDescriptor) (layerBytes : Bytes) (discovery : Discovery) :
    Deletion Discovery := do
  let decoded ← Action.ofExcept <|
    mapErr (fun error => .discoveryFailed "root_index_decode" layer.digest (.oci error)) <|
      IndexCodec.decodeZstd X (ShardedArchCacheIndexData.fromJson X.toCrates) layerBytes
        layer.mediaType client.limits.maxIndexUncompressedBytes
  let root := decoded.value
  Action.ofExcept <|
    mapErr (fun error => .discoveryFailed "root_index_validate" layer.digest (.core error)) <|
      root.validateFor X.toCrates root.system client.repo client.authority client.limits.indexLimits
  Action.foldM (discoverShard X client root.system layer.digest) discovery root.shards

/-- A shard among the layers of a manifest. -/
def discoverShardLayer (manifest : OciImageManifest) (layer : OciDescriptor) (layerBytes : Bytes)
    (discovery : Discovery) : Except DeletionError Discovery := do
  let decoded ←
    mapErr (fun error => .discoveryFailed "shard_decode" layer.digest (.oci error)) <|
      IndexCodec.decodeZstd X (ShardDataPayload.fromJson X.toCrates) layerBytes layer.mediaType
        client.limits.maxIndexUncompressedBytes
  let shard := decoded.value
  let system ← resolveShardSystem manifest layer layer.digest
  mapErr (fun error => .discoveryFailed "shard_validate" layer.digest (.core error)) <|
    shard.validateFor X.toCrates shard.shardId system client.limits.indexLimits
  let plan ← addNarBlobs discovery.plan shard layer.digest client.repo
  pure { discovery with plan := plan }

def discoverLayer (digest : String) (manifest : OciImageManifest) (discovery : Discovery)
    (layer : OciDescriptor) : Deletion Discovery := do
  let plan ← Action.ofExcept <|
    addBlob discovery.plan layer.digest layer.size digest "layer" client.repo
  let discovery := { discovery with plan := plan }
  match CacheLayerMediaType.parse layer.mediaType with
  | none => pure discovery
  | some layerType => do
      let layerBytes ← discover "cache_layer_get" layer.digest
        (BlobClient.getDescriptor X client layer)
      match layerType with
      | .rootIndexV8Zstd => discoverRootLayer X client layer layerBytes discovery
      | .shardDataV8Zstd =>
          Action.ofExcept (discoverShardLayer X client manifest layer layerBytes discovery)

/-! ## The traversal -/

def discoverArtifact (digest : String) (artifact : OciArtifactManifest) (discovery : Discovery) :
    Deletion Discovery :=
  match artifact with
  | .index index => Action.foldM (queueChild X client digest) discovery index.manifests
  | .manifest manifest => do
      let plan ← Action.ofExcept <| addBlob discovery.plan manifest.config.digest
        manifest.config.size digest "config" client.repo
      Action.foldM (discoverLayer X client digest manifest) { discovery with plan := plan }
        manifest.layers

/-- An iteration, with the manifest that left the queue. -/
def discoverNext (digest body : String) (discovery : Discovery) : Deletion Discovery :=
  if digest ∈ discovery.plan.manifests then pure discovery
  else do
    Action.ofExcept <| ensure (discovery.plan.manifests.size < maxDeletionManifests)
      (.objectLimitExceeded client.repo)
    let artifact ← Action.ofExcept (parseDiscoveredManifest X body digest)
    let plan := { discovery.plan with manifests := discovery.plan.manifests.insert digest body }
    discoverArtifact X client digest artifact { discovery with plan := plan }

/-- The loop.  A manifest is queued once, so that the queue is empty after as many iterations as
manifests may be queued. -/
def run : Nat → Discovery → Deletion Discovery
  | 0, discovery => pure discovery
  | fuel + 1, discovery =>
      match discovery.pending with
      | [] => pure discovery
      | (digest, body) :: pending => do
          let discovery ← discoverNext X client digest body { discovery with pending := pending }
          run fuel discovery

def discoverTagReachableGraph : Deletion DeletionPlan := do
  let tags ← listTagsForDeletion X client
  let tags := sortedTags tags
  let discovery ← Action.foldM (queueTag X client) ⟨⟨tags, ∅, ∅⟩, [], ∅, ∅⟩ tags
  let discovery ← run X client maxDeletionManifests discovery
  pure discovery.plan

/-- `preview_package`. -/
def previewPackage : Deletion PackageDeletionSummary := do
  let plan ← discoverTagReachableGraph X client
  pure plan.summary

end

end DeletionClient

end NixCache.Oci
