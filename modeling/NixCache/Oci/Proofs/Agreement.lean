import NixCache.Oci.Proofs.Sample
/-!
# Readers that agree on a Merkle root

Two clients that read roots with one Merkle root, from registries that may reply anything, hold the
same shard descriptors, and every shard they read for them has the same entries.
-/

namespace NixCache.Oci.IndexClient

open NixCache.Lib NixCache.Lib.Result NixCache.Lib.MerkleTree NixCache.Core
open NixCache.Lib.Program (Trace)
open NixCache.Lib.JsonText (weight)

variable {X : OciCrates} {client client' : OciClient} {system : SystemArch}
  {trace trace' : Trace Request Reply}

/-- The descriptors of an accepted root are in the order of their ids. -/
theorem IsAccepted.indexShardDescriptors {root : ShardedArchCacheIndexData}
    (h : IsAccepted X client system root) :
    Core.indexShardDescriptors X.toCrates root.shards = .ok root.shards :=
  indexShardDescriptors_eq_ok.mpr ⟨h.valid.shards, List.Perm.refl _⟩

theorem IsShardOf.same {descriptor : ShardDescriptor} {payload payload' : ShardDataPayload}
    (h : IsShardOf X client system descriptor payload)
    (h' : IsShardOf X client' system descriptor payload') (hmem : InMemory payload.entries)
    (hmem' : InMemory payload'.entries)
    (hfree : CollisionFree X.sha256
      (shardMessages X.toCrates descriptor.shardId payload.entries ++
        shardMessages X.toCrates descriptor.shardId payload'.entries)) :
    payload.Same payload' := by
  have hhash := h.merkleHash
  have hhash' := h'.merkleHash
  unfold ShardDataPayload.computeMerkleHash at hhash hhash'
  rw [h.isFor.id] at hhash
  rw [h'.isFor.id] at hhash'
  exact ⟨h.valid.version.trans h'.valid.version.symm, h.isFor.id.trans h'.isFor.id.symm,
    by rw [h.valid.shardPrefix, h'.valid.shardPrefix, h.isFor.id, h'.isFor.id],
    (lookup_eq_of_computeShardMerkleHash hhash hhash' hmem hmem' hfree).2⟩

/-- What `get_shard_data` returns for a descriptor: as many entries as it says, all of them in its
shard, and all within the limits of the reader. -/
theorem IsShardOf.contents {descriptor : ShardDescriptor} {payload : ShardDataPayload}
    (h : IsShardOf X client system descriptor payload) :
    payload.entries.size = descriptor.entryCount.toNat ∧
      (∀ hash entry, payload.entries.lookup hash = some entry →
        hash.shardId = descriptor.shardId) ∧
      payload.validateFor X.toCrates descriptor.shardId system client.limits.indexLimits =
        .ok () := by
  refine ⟨h.count, ?_, ShardDataPayload.validateFor_eq_ok.mpr ⟨h.valid, h.isFor⟩⟩
  intro hash entry hlookup
  rw [(h.valid.entries hash entry hlookup).2.1, h.isFor.id]

/-- The compressed text of a root. -/
def storedBlob (X : Crates) (root : ShardedArchCacheIndexData) : Bytes :=
  zstdMagic ++ IndexCodec.toVec (storingCrates X) root.toJson

def storedManifest (X : Crates) (root : ShardedArchCacheIndexData) : Bytes :=
  IndexCodec.toVec (storingCrates X)
    (rootManifest (storingCrates X) "2024-01-01T00:00:00Z" root (storedBlob X root)).toJson

/-- A registry that holds the root under the tag of its architecture. -/
def storedRegistry (X : Crates) (tag : String) (root : ShardedArchCacheIndexData) : Registry where
  tags := Function.update (fun _ => none) (archTag tag root.system) (some (storedManifest X root))
  manifests := fun _ => none
  blobs := Function.update (fun _ => none) (digestOf X (storedBlob X root))
    (some (storedBlob X root))

/-- A sample root that is not too long is read from a registry that holds it. -/
theorem read_sampleRoot {X : Crates} {root : ShardedArchCacheIndexData} {registry : Registry}
    (hsample : IsSampleRoot root "2024-01-01T00:00:00Z")
    (haccepted : IsAccepted (storingCrates X) sampleClient root.system root)
    (hmerkle : weight (.str root.merkleRoot) = 428) (hweight : weight root.toJson ≤ 16000000)
    (hlookup : registry.lookup (archTag "cache-index" root.system) = some (storedManifest X root))
    (hstored : registry.blobs (digestOf X (storedBlob X root)) = some (storedBlob X root)) :
    registry.read (storingCrates X)
        (getShardedRoot (storingCrates X) sampleClient "cache-index" root.system) =
      .ok (some (root, digestOf X (storedManifest X root))) := by
  have hmanifest : weight (rootManifest (storingCrates X) "2024-01-01T00:00:00Z" root
      (storedBlob X root)).toJson ≤ _ :=
    weight_rootManifest_le hsample.system hmerkle
  have hlength : "2024-01-01T00:00:00Z".length = 20 := by decide
  rw [hlength] at hmanifest
  have hrootText := length_toVec_le X root.toJson
  have hmanifestText := length_toVec_le X (rootManifest (storingCrates X)
    "2024-01-01T00:00:00Z" root (storedBlob X root)).toJson
  have hblob : (storedBlob X root).length =
      4 + (IndexCodec.toVec (storingCrates X) root.toJson).length := by
    rw [storedBlob, List.length_append]
    rfl
  have hlimits : sampleClient.limits.maxIndexUncompressedBytes.toNat = 67108864 ∧
    sampleClient.limits.maxBufferedBlobBytes.toNat = 67108864 ∧
    sampleClient.limits.maxManifestBytes.toNat = 4194304 ∧
    sampleClient.limits.maxManifestLayers.toNat = 16 := ⟨rfl, rfl, rfl, rfl⟩
  apply read_getShardedRoot_pushed (codecLaws_storingCrates X) haccepted
  · rw [hsample.gcRoots]
    simp
  · exact rfl
  · exact ⟨by omega, by omega, by omega⟩
  · omega
  · omega
  · rw [hsample.system]
    decide
  · exact hlookup
  · exact hstored

theorem emptyShardData_eq_ok {X : OciCrates} {shardId : UInt16} (h : shardId < 1024) :
    emptyShardData X (emptyDescriptor X.toCrates shardId) =
      .ok ⟨schemaVersionV8, shardId, shardIdToPrefix shardId, ∅⟩ := by
  have hmerkle := computeShardMerkleHash_empty (X := X.toCrates) h
  simp [emptyShardData, ShardDataPayload.new, liftCore_eq_ok, ShardDataPayload.computeMerkleHash,
    emptyDescriptor, bind_eq_ok, ensure_eq_ok, h, hmerkle]
  decide

theorem runs_emptyShard {X : OciCrates} {shardId : UInt16} (h : shardId < 1024)
    (client : OciClient) (system : SystemArch) :
    ∃ trace, (getShardData X client (emptyDescriptor X.toCrates shardId) system).Runs trace
      (.ok ⟨schemaVersionV8, shardId, shardIdToPrefix shardId, ∅⟩) := by
  obtain ⟨trace, hruns⟩ : ∃ trace,
      (getShardData X client (emptyDescriptor X.toCrates shardId) system).Runs trace
        (Registry.empty.read X _) := Registry.runs_read _
  rw [read_getShardData_empty (validateStructure_emptyDescriptor h) rfl
    (emptyShardData_eq_ok h)] at hruns
  exact ⟨trace, hruns⟩

end NixCache.Oci.IndexClient
