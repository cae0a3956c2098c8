import NixCache.Oci.Proofs.Agreement
import NixCache.Oci.Proofs.ShardBlob
/-!
# A published shard

A root with one entry and the shard with that entry, as readers find them after `push_shard_data` and
`push_sharded_root`.
-/

namespace NixCache.Oci

open NixCache.Lib NixCache.Lib.Result NixCache.Core
open NixCache.Lib.JsonText (weight weightItems weightFields)

def publishedPayload : ShardDataPayload :=
  ⟨schemaVersionV8, 33, shardIdToPrefix 33, singleEntry⟩

theorem validateFor_publishedPayload :
    publishedPayload.IsValid stampCrates ∧
      publishedPayload.IsFor 33 .x86_64Linux sampleClient.limits.indexLimits := by
  have hok : publishedPayload.validateFor stampCrates 33 .x86_64Linux
      sampleClient.limits.indexLimits = .ok () := by decide +kernel
  exact ShardDataPayload.validateFor_eq_ok.mp hok

theorem weight_publishedPayload : weight publishedPayload.toJson ≤ 10000 := by decide +kernel

theorem exists_merkleHash_publishedPayload :
    ∃ hash, publishedPayload.computeMerkleHash stampCrates = .ok hash := by
  apply ShardDataPayload.exists_computeMerkleHash validateFor_publishedPayload.1
  intro hash entry hlookup
  have hmem := (HashMap.lookup_ofList (by decide)).mp hlookup
  obtain ⟨rfl, rfl⟩ : hash = sampleHash '1' ∧ entry = sampleEntry '1' [sampleHash '2'] := by
    simpa using hmem
  exact ⟨⟨List.replicate 32 0, rfl⟩, by decide⟩

/-- The text of the payload. -/
def publishedText : Bytes := IndexCodec.toVec (storingCrates stampCrates) publishedPayload.toJson

/-- The blob of the payload. -/
def publishedBlob : Bytes := zstdMagic ++ publishedText

theorem length_publishedText : 0 < publishedText.length ∧ publishedText.length ≤ 40000 := by
  refine ⟨?_, (length_toVec_le stampCrates publishedPayload.toJson).trans
    (Nat.mul_le_mul_left 4 weight_publishedPayload)⟩
  rw [List.length_pos_iff]
  intro hnil
  have hback := (codecLaws_storingCrates stampCrates).payload publishedPayload
  change (storingCrates stampCrates).fromSlice publishedText = _ at hback
  have hempty : (storingCrates stampCrates).fromSlice [] = .error .malformed := rfl
  rw [hnil, hempty] at hback
  simp at hback

theorem length_publishedBlob : publishedBlob.length = 4 + publishedText.length := by
  have hmagic : zstdMagic.length = 4 := rfl
  rw [publishedBlob, List.length_append, hmagic]

/-- The descriptor of the payload, with its Merkle hash. -/
def publishedDescriptor (merkleHash : String) : ShardDescriptor :=
  ⟨33, shardIdToPrefix 33, digestOf stampCrates publishedBlob, UInt64.ofNat publishedBlob.length,
    UInt64.ofNat publishedText.length, 1, merkleHash⟩

theorem toNat_ofNat_of_le {n : Nat} (h : n ≤ 50000) : (UInt64.ofNat n).toNat = n :=
  UInt64.toNat_ofNat_of_lt' (by simp only [UInt64.size]; omega)

theorem ofNat_ne_zero {n : Nat} (hpos : 0 < n) (h : n ≤ 50000) : UInt64.ofNat n ≠ 0 := by
  intro hzero
  have hnat := congrArg UInt64.toNat hzero
  rw [toNat_ofNat_of_le h] at hnat
  exact hpos.ne' hnat

theorem weight_shardDescriptor_le {descriptor : ShardDescriptor}
    (hpre : weight (.str descriptor.shardPrefix) ≤ 14)
    (hblob : weight (.str descriptor.blobDigest) ≤ 428)
    (hhash : weight (.str descriptor.merkleHash) ≤ 428) : weight descriptor.toJson ≤ 2000 := by
  have hid := weight_nat_le (n := descriptor.shardId.toNat)
    (by have := descriptor.shardId.toNat_lt; omega)
  have hcompressed := weight_nat_le descriptor.compressedSize.toNat_lt
  have huncompressed := weight_nat_le descriptor.uncompressedSize.toNat_lt
  have hcount := weight_nat_le descriptor.entryCount.toNat_lt
  have hnames : 6 * "shard_id".length + 4 + (6 * "prefix".length + 4 +
    (6 * "blob_digest".length + 4 + (6 * "compressed_size".length + 4 +
      (6 * "uncompressed_size".length + 4 + (6 * "entry_count".length + 4 +
        (6 * "merkle_hash".length + 4 + 0)))))) = 502 := by decide
  rw [ShardDescriptor.toJson, weight, JsonText.weightFields_eq]
  simp only [List.map_cons, List.map_nil, List.sum_cons, List.sum_nil, hnames]
  omega

section

variable {merkleHash : String}
  (hmerkle : publishedPayload.computeMerkleHash stampCrates = .ok merkleHash)

include hmerkle

theorem isShardOf_publishedDescriptor :
    IndexClient.IsShardOf (storingCrates stampCrates) sampleClient .x86_64Linux
      (publishedDescriptor merkleHash) publishedPayload :=
  ⟨validateFor_publishedPayload.1, validateFor_publishedPayload.2, rfl, hmerkle⟩

theorem isSha256_merkleHash : isSha256 merkleHash = true := by
  obtain ⟨_, _, _, hhash⟩ := computeShardMerkleHash_eq_ok.mp hmerkle
  exact isSha256_iff.mpr ⟨_, hhash⟩

theorem validateStructure_publishedDescriptor :
    (publishedDescriptor merkleHash).validateStructure stampCrates = .ok () := by
  have hlength := length_publishedText
  have hblob := length_publishedBlob
  have hempty : (publishedDescriptor merkleHash).isEmpty = false := by
    simp [publishedDescriptor, ShardDescriptor.isEmpty]
  simp only [ShardDescriptor.validateStructure, hempty, Bool.false_eq_true, if_false, bind_eq_ok,
    mapErr_eq_ok, validateSha256_eq_ok, ensure_eq_ok]
  exact ⟨(), by simp [publishedDescriptor], (), rfl, (), ⟨_, rfl⟩, (),
    ⟨ofNat_ne_zero (by omega) (by omega), ofNat_ne_zero (by omega) (by omega)⟩, (),
    by simp [publishedDescriptor], isSha256_iff.mp (isSha256_merkleHash hmerkle)⟩

theorem read_publishedDescriptor {registry : Registry}
    (hstored : registry.blobs (digestOf stampCrates publishedBlob) = some publishedBlob) :
    registry.read (storingCrates stampCrates) (IndexClient.getShardData (storingCrates stampCrates)
      sampleClient (publishedDescriptor merkleHash) .x86_64Linux) = .ok publishedPayload := by
  have hlength := length_publishedText
  have hblob := length_publishedBlob
  have hlimits : sampleClient.limits.maxIndexUncompressedBytes.toNat = 67108864 ∧
    sampleClient.limits.maxBufferedBlobBytes.toNat = 67108864 := ⟨rfl, rfl⟩
  have hencode : IndexCodec.encodeZstd (storingCrates stampCrates) publishedPayload.toJson =
      .ok publishedBlob := rfl
  exact IndexClient.read_getShardData_pushed (codecLaws_storingCrates stampCrates)
    (validateStructure_publishedDescriptor hmerkle) (by simp [publishedDescriptor])
    (isShardOf_publishedDescriptor hmerkle) hencode rfl rfl rfl (by omega)
    (hlength.2.trans (by omega)) hstored

theorem weight_publishedDescriptor : weight (publishedDescriptor merkleHash).toJson ≤ 2000 := by
  apply weight_shardDescriptor_le
  · change weight (.str (shardIdToPrefix 33)) ≤ 14
    rw [weight, shardIdToPrefix, String.length_ofList]
    decide
  · exact (weight_formatDigest _).le
  · obtain ⟨_, rfl⟩ := isSha256_iff.mp (isSha256_merkleHash hmerkle)
    exact (weight_formatDigest _).le

end

/-! ## The root -/

/-- A fresh root with the shard in its place. -/
theorem exists_publishedRoot {merkleHash : String} {shards : List ShardDescriptor}
    (hshards : freshShards stampCrates = shards)
    (hmerkle : publishedPayload.computeMerkleHash stampCrates = .ok merkleHash) :
    ∃ root, IsSampleRoot root "2024-01-01T00:00:00Z" ∧
      root.shards = shards.set 33 (publishedDescriptor merkleHash) ∧
      root.IsValid stampCrates := by
  have hindexed : IsIndexed stampCrates (shards.set 33 (publishedDescriptor merkleHash)) := by
    have hfresh := isIndexed_freshShards stampCrates
    rw [hshards] at hfresh
    exact hfresh.set rfl (validateStructure_publishedDescriptor hmerkle)
  obtain ⟨merkleRoot, hroot⟩ := exists_computeMerkleRoot hindexed
  have hnamed : ¬ Str.isEmpty (Str.trim "owner/repo") = true ∧
    ¬ Str.isEmpty (Str.trim "cache.azurecr.io") = true := by decide
  have hnow : isTimestamp stampCrates "2024-01-01T00:00:00Z" = true := by decide
  refine ⟨⟨8, .x86_64Linux, "owner/repo", "cache.azurecr.io", "2024-01-01T00:00:00Z", "",
    shards.set 33 (publishedDescriptor merkleHash), merkleRoot, [], none⟩, ?_, rfl,
    ⟨rfl, rfl, hnamed, hnow, hindexed, hroot⟩⟩
  exact ⟨rfl, rfl, rfl, rfl, rfl, rfl, rfl, rfl⟩

section

variable {root : ShardedArchCacheIndexData} {merkleHash : String} {shards : List ShardDescriptor}
  (hfresh : freshShards stampCrates = shards)
  (hshards : root.shards = shards.set 33 (publishedDescriptor merkleHash))

include hfresh hshards

/-- A shard of the root has no entries, or is the published one. -/
theorem eq_publishedDescriptor {shard : ShardDescriptor} (hshard : shard ∈ root.shards)
    (hfilled : shard.isEmpty = false) : shard = publishedDescriptor merkleHash := by
  rw [hshards] at hshard
  rcases List.mem_or_eq_of_mem_set hshard with hmem | heq
  · rw [← hfresh] at hmem
    rw [isEmpty_of_mem_freshShards hmem] at hfilled
    cases hfilled
  · exact heq

variable (hsample : IsSampleRoot root "2024-01-01T00:00:00Z") (hvalid : root.IsValid stampCrates)

include hsample hvalid

theorem isAccepted_publishedRoot :
    IndexClient.IsAccepted (storingCrates stampCrates) sampleClient root.system root := by
  have hlength := length_publishedText
  have hblob := length_publishedBlob
  refine ⟨hvalid, rfl, hsample.repo, hsample.registry, ⟨?_, ?_, ?_⟩, ?_⟩
  · intro shard hshard hfilled
    rw [eq_publishedDescriptor hfresh hshards hshard hfilled, UInt64.le_iff_toNat_le]
    change (UInt64.ofNat publishedText.length).toNat ≤ 67108864
    rw [toNat_ofNat_of_le (by omega)]
    omega
  · intro shard hshard hfilled
    rw [eq_publishedDescriptor hfresh hshards hshard hfilled]
    change (1 : UInt64) ≤ 500000
    decide
  · rw [hsample.gcRoots]
    exact Nat.zero_le _
  · intro shard hshard hfilled
    rw [eq_publishedDescriptor hfresh hshards hshard hfilled, UInt64.le_iff_toNat_le]
    change (UInt64.ofNat publishedBlob.length).toNat ≤ 67108864
    rw [toNat_ofNat_of_le (by omega)]
    omega

theorem weight_publishedRoot
    (hmerkle : publishedPayload.computeMerkleHash stampCrates = .ok merkleHash) :
    weight (.str root.merkleRoot) = 428 ∧ weight root.toJson ≤ 16000000 := by
  have hroot : weight (.str root.merkleRoot) = 428 := by
    obtain ⟨_, hhash⟩ := isSha256_iff.mp (isSha256_merkleRoot (X := storingCrates stampCrates) hvalid)
    rw [hhash]
    exact weight_formatDigest _
  have hbound : ∀ shard ∈ root.shards, weight shard.toJson ≤ 2000 := by
    intro shard hshard
    rw [hshards] at hshard
    rcases List.mem_or_eq_of_mem_set hshard with hmem | heq
    · rw [← hfresh, freshShards] at hmem
      obtain ⟨id, _, rfl⟩ := List.mem_map.mp hmem
      exact (weight_emptyDescriptor_le stampCrates _).trans (by omega)
    · rw [heq]
      exact weight_publishedDescriptor hmerkle
  have hitems := JsonText.weightItems_map_le hbound
  rw [hvalid.shards.length] at hitems
  simp only [numShards] at hitems
  have hweight := hsample.weight_le hroot hitems
  have hlength : "2024-01-01T00:00:00Z".length = 20 := by decide
  rw [hlength] at hweight
  exact ⟨hroot, by omega⟩

end

/-- The shard in a registry. -/
def publishedRegistry : Registry :=
  Registry.empty.putBlob (digestOf stampCrates publishedBlob) publishedBlob

/-- A reader finds the root and the shard. -/
theorem exists_published :
    ∃ (root : ShardedArchCacheIndexData) (digest : String) (descriptor : ShardDescriptor),
      (∃ trace, (IndexClient.getShardedRoot (storingCrates stampCrates) sampleClient "cache-index"
        .x86_64Linux).Runs trace (.ok (some (root, digest)))) ∧
      root.gcRoots = [] ∧ weight root.toJson ≤ 16000000 ∧ root.shards[33]? = some descriptor ∧
      descriptor.isEmpty = false ∧ Str.isEmpty descriptor.blobDigest = false ∧ descriptor.shardId = 33 ∧
      ∃ trace, (IndexClient.getShardData (storingCrates stampCrates) sampleClient descriptor
        .x86_64Linux).Runs trace (.ok publishedPayload) := by
  obtain ⟨merkleHash, hmerkle⟩ := exists_merkleHash_publishedPayload
  obtain ⟨shards, hfresh⟩ : ∃ shards, freshShards stampCrates = shards := ⟨_, rfl⟩
  obtain ⟨root, hsample, hshards, hvalid⟩ := exists_publishedRoot hfresh hmerkle
  obtain ⟨hroot, hweight⟩ := weight_publishedRoot hfresh hshards hsample hvalid hmerkle
  have hread : (IndexClient.storedRegistry stampCrates "cache-index" root).read
      (storingCrates stampCrates) (IndexClient.getShardedRoot (storingCrates stampCrates)
        sampleClient "cache-index" root.system) =
      .ok (some (root, digestOf stampCrates (IndexClient.storedManifest stampCrates root))) :=
    IndexClient.read_sampleRoot hsample (isAccepted_publishedRoot hfresh hshards hsample hvalid)
      hroot hweight (by simp [IndexClient.storedRegistry, Registry.lookup])
      (by simp [IndexClient.storedRegistry])
  rw [hsample.system] at hread
  have hstored : publishedRegistry.blobs (digestOf stampCrates publishedBlob) = some publishedBlob := by
    simp [publishedRegistry, Registry.putBlob]
  have hdata := read_publishedDescriptor hmerkle hstored
  have hdigest := blobDigest_nonempty (validateStructure_publishedDescriptor hmerkle)
    (by simp [publishedDescriptor])
  refine ⟨root, digestOf stampCrates (IndexClient.storedManifest stampCrates root),
    publishedDescriptor merkleHash, ?_, hsample.gcRoots, hweight, ?_, rfl,
    by simpa using hdigest, rfl, ?_⟩
  · rw [← hread]
    exact Registry.runs_read _
  · rw [hshards, List.getElem?_set_self]
    rw [← hfresh, (isIndexed_freshShards stampCrates).length]
    decide
  · rw [← hdata]
    exact Registry.runs_read _

end NixCache.Oci
