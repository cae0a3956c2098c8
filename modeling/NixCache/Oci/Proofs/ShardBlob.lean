import NixCache.Oci.Proofs.RoundTrip
/-!
# Shards and their blobs

What a reader of a shard knows of the payload: it is the content of the blob that the descriptor
names.
-/

namespace NixCache.Oci

open NixCache.Lib NixCache.Lib.Result NixCache.Core
open Program (Trace)

/-- The payload is the content of a shard blob with this digest. -/
def IsBlobContent (X : OciCrates) (blobDigest : String) (payload : ShardDataPayload) : Prop :=
  ∃ (blob : Bytes) (limit : UInt64) (decoded : DecodedIndex ShardDataPayload),
    (ContentDigest.fromBytes X.toCrates blob).val = blobDigest ∧
    IndexCodec.decodeZstd X (ShardDataPayload.fromJson X.toCrates) blob shardDataV8Zstd limit =
      .ok decoded ∧
    decoded.value = payload

/-- What the OCI client has verified of the payload that it returns for a descriptor with a blob. -/
theorem IndexClient.isBlobContent_of_getShardData {X : OciCrates} {client : OciClient}
    {descriptor : ShardDescriptor} {system : SystemArch} {payload : ShardDataPayload}
    {trace : Trace Request Reply} (hblob : Str.isEmpty descriptor.blobDigest = false)
    (h : (getShardData X client descriptor system).Runs trace (.ok payload)) :
    IsBlobContent X descriptor.blobDigest payload := by
  simp only [getShardData, Action.runs_ofExcept_bind_ok] at h
  obtain ⟨_, _, h⟩ := h
  split at h
  · -- a shard without entries has no blob
    obtain ⟨_, h⟩ := h
    have h := h.symm
    simp only [emptyShardData, bind_eq_ok, ensure_eq_ok] at h
    obtain ⟨_, _, _, _, _, ⟨_, hempty, _⟩, _⟩ := h
    simp [hblob] at hempty
  · obtain ⟨_, _, blob, rfl, hget, h⟩ := Action.runs_bind_ok.mp h
    simp only [Action.runs_ofExcept_bind_ok, Action.runs_ofExcept] at h
    obtain ⟨decoded, hdecoded, _, hcheck⟩ := h
    have hvalue : decoded.value = payload := by
      have hcheck := hcheck.symm
      simp only [checkShardData, bind_eq_ok, pure_eq_ok] at hcheck
      obtain ⟨_, _, _, _, _, _, _, _, hvalue⟩ := hcheck
      exact hvalue
    exact ⟨blob, client.limits.maxIndexUncompressedBytes, decoded,
      (BlobClient.runs_getDescriptor_ok hget).2.1, hdecoded, hvalue⟩

/-- A registry that holds what `push_shard_data` writes lets the reader find the payload. -/
theorem IndexClient.read_getShardData_pushed {X : OciCrates} (laws : CodecLaws X)
    {client : OciClient} {registry : Registry} {descriptor : ShardDescriptor} {system : SystemArch}
    {payload : ShardDataPayload} {blob : Bytes}
    (hvalid : descriptor.validateStructure X.toCrates = .ok ()) (hcount : descriptor.entryCount ≠ 0)
    (hshard : IsShardOf X client system descriptor payload)
    (hencode : IndexCodec.encodeZstd X payload.toJson = .ok blob)
    (hdigest : descriptor.blobDigest = digestOf X.toCrates blob)
    (hcompressed : descriptor.compressedSize = UInt64.ofNat blob.length)
    (huncompressed : descriptor.uncompressedSize =
      UInt64.ofNat (IndexCodec.toVec X payload.toJson).length)
    (hblob : blob.length ≤ client.limits.maxBufferedBlobBytes.toNat)
    (htext : (IndexCodec.toVec X payload.toJson).length ≤
      client.limits.maxIndexUncompressedBytes.toNat)
    (hstored : registry.blobs descriptor.blobDigest = some blob) :
    registry.read X (getShardData X client descriptor system) = .ok payload := by
  have hsize : descriptor.compressedSize.toNat = blob.length := by
    have hmax := client.limits.maxBufferedBlobBytes.toNat_lt
    rw [hcompressed]
    exact UInt64.toNat_ofNat_of_lt' (by simp only [UInt64.size]; omega)
  have hget : registry.read X (BlobClient.getDescriptor X client
      ⟨shardDataV8Zstd, descriptor.blobDigest, descriptor.compressedSize, none, none⟩) = .ok blob := by
    refine BlobClient.read_getDescriptor_eq_ok.mpr ⟨?_, hstored, hdigest, hsize⟩
    refine OciDescriptor.validateFor_eq_ok.mpr ⟨isSha256_iff.mpr ⟨_, hdigest⟩, ?_,
      (by decide : ¬ Str.isEmpty (Str.trim shardDataV8Zstd) = true)⟩
    change descriptor.compressedSize ≤ _
    rw [UInt64.le_iff_toNat_le, hsize]
    exact hblob
  have hdecode := IndexCodec.decodeZstd_encodeZstd laws hencode (laws.payload payload)
    (ShardDataPayload.fromJson_toJson hshard.valid
      (ShardDataPayload.isCanonical_of_computeMerkleHash hshard.merkleHash))
    (Or.inr rfl : shardDataV8Zstd = rootIndexV8Zstd ∨ _) htext
  have hcheck : checkShardData X client descriptor system
      ⟨payload, UInt64.ofNat (IndexCodec.toVec X payload.toJson).length⟩ = .ok payload := by
    simp only [checkShardData, bind_eq_ok, ensure_eq_ok, pure_eq_ok, liftCore_eq_ok,
      ShardDataPayload.validateFor_eq_ok, ShardDataPayload.validateMerkleHash_eq_ok]
    exact ⟨(), huncompressed.symm, (), ⟨hshard.valid, hshard.isFor⟩, (), hshard.count, (),
      hshard.merkleHash, trivial⟩
  unfold getShardData
  rw [if_neg hcount]
  simp only [Registry.read_bind, Registry.read_ofExcept, hget]
  simp only [bind_eq_ok, liftCore_eq_ok]
  exact ⟨(), hvalid, blob, rfl, _, hdecode, hcheck⟩

end NixCache.Oci
