import NixCache.Core.Index
import NixCache.Core.Proofs.RootMerkle
/-!
# The fresh root

`ShardedArchCacheIndexData::new` never panics: its 1024 empty descriptors are accepted, whatever the
hash function.
-/

namespace NixCache.Core

open NixCache.Lib NixCache.Lib.Result NixCache.Lib.Encoding NixCache.Lib.MerkleTree CanonicalEncoder

variable {X : Crates}

/-! ## Empty descriptors -/

/-- The Merkle digest of the empty shard. -/
def emptyShardDigest (X : Crates) (shardId : UInt16) : DigestBytes :=
  X.sha256 (shardRootEncoding shardId 0 (X.sha256 emptySubtreeEncoding))

theorem computeShardMerkleHash_empty {shardId : UInt16} (h : shardId < 1024) :
    computeShardMerkleHash X shardId ∅ = .ok (formatDigest (emptyShardDigest X shardId)) := by
  rw [computeShardMerkleHash_eq_ok]
  exact ⟨h, [], rfl, rfl⟩

def emptyDescriptor (X : Crates) (shardId : UInt16) : ShardDescriptor :=
  ⟨shardId, shardIdToPrefix shardId, "", 0, 0, 0, formatDigest (emptyShardDigest X shardId)⟩

theorem empty_eq_ok {shardId : UInt16} (h : shardId < 1024) :
    ShardDescriptor.empty X shardId = .ok (emptyDescriptor X shardId) := by
  simp [ShardDescriptor.empty, computeShardMerkleHash_empty h, emptyDescriptor]

theorem validateStructure_emptyDescriptor {shardId : UInt16} (h : shardId < 1024) :
    (emptyDescriptor X shardId).validateStructure X = .ok () := by
  have hempty : (emptyDescriptor X shardId).isEmpty = true := rfl
  simp only [ShardDescriptor.validateStructure, hempty, if_true, bind_eq_ok, ensure_eq_ok]
  exact ⟨(), h, (), rfl, _, computeShardMerkleHash_empty h, rfl, rfl, rfl, rfl⟩

/-- An accepted descriptor without entries is the empty descriptor of its shard. -/
theorem eq_emptyDescriptor {descriptor : ShardDescriptor}
    (h : descriptor.validateStructure X = .ok ()) (hempty : descriptor.isEmpty = true) :
    descriptor = emptyDescriptor X descriptor.shardId := by
  have hcount : descriptor.entryCount = 0 := by simpa [ShardDescriptor.isEmpty] using hempty
  simp only [ShardDescriptor.validateStructure, hempty, if_true, bind_eq_ok, ensure_eq_ok] at h
  obtain ⟨-, hid, -, htext, expected, hexpected, hblob, hcompressed, huncompressed, hmerkle⟩ := h
  rw [computeShardMerkleHash_empty hid] at hexpected
  exact ShardDescriptor.ext rfl htext (isEmpty_iff.mp hblob) hcompressed huncompressed hcount
    (hmerkle.trans (Except.ok.inj hexpected).symm)

theorem isDescriptorLeaf_emptyDescriptor (shardId : UInt16) :
    IsDescriptorLeaf (emptyDescriptor X shardId)
      (descriptorLeafMessage (emptyDescriptor X shardId) none (emptyShardDigest X shardId)) :=
  ⟨none, emptyShardDigest X shardId, rfl, rfl, rfl⟩

/-! ## The fresh descriptor set -/

def freshShards (X : Crates) : List ShardDescriptor :=
  (List.range numShards).map fun id => emptyDescriptor X (UInt16.ofNat id)

theorem ofNat_lt {id : Nat} (h : id ∈ List.range numShards) : UInt16.ofNat id < 1024 := by
  have hlt : id < 1024 := by simpa [numShards] using h
  rw [UInt16.lt_iff_toNat_lt, UInt16.toNat_ofNat_of_lt' (hlt.trans (by decide))]
  exact hlt

theorem isIndexed_freshShards (X : Crates) : IsIndexed X (freshShards X) where
  length := by rw [freshShards, List.length_map, List.length_range]
  ids := by
    rw [freshShards, List.map_map]
    conv_rhs => rw [← List.map_id (List.range numShards)]
    apply List.map_congr_left
    intro id hid
    have hlt : id < 1024 := by simpa [numShards] using hid
    exact UInt16.toNat_ofNat_of_lt' (hlt.trans (by decide))
  valid := by
    intro descriptor hmem
    obtain ⟨id, hid, rfl⟩ := List.mem_map.mp hmem
    exact validateStructure_emptyDescriptor (ofNat_lt hid)

theorem isEmpty_of_mem_freshShards {X : Crates} {shard : ShardDescriptor}
    (h : shard ∈ freshShards X) : shard.isEmpty = true := by
  obtain ⟨id, _, rfl⟩ := List.mem_map.mp h
  rfl

theorem indexShardDescriptors_freshShards (X : Crates) :
    indexShardDescriptors X (freshShards X) = .ok (freshShards X) :=
  indexShardDescriptors_eq_ok.mpr ⟨isIndexed_freshShards X, .refl _⟩

/-- The leaf messages of the fresh set. -/
def freshLeaves (X : Crates) : List (List UInt8) :=
  (List.range numShards).map fun id =>
    descriptorLeafMessage (emptyDescriptor X (UInt16.ofNat id)) none
      (emptyShardDigest X (UInt16.ofNat id))

theorem forall₂_freshLeaves (X : Crates) :
    List.Forall₂ IsDescriptorLeaf (freshShards X) (freshLeaves X) := by
  rw [freshShards, freshLeaves, List.forall₂_map_left_iff, List.forall₂_map_right_iff,
    List.forall₂_same]
  intro id _
  exact isDescriptorLeaf_emptyDescriptor _

/-- The Merkle root of the fresh set. -/
def freshMerkleRoot (X : Crates) : String :=
  formatDigest (X.sha256 (rootRootEncoding
    (layeredRoot X ((freshLeaves X).map X.sha256) rootNodeDomain)))

theorem computeMerkleRoot_freshShards (X : Crates) :
    computeMerkleRoot X (freshShards X) = .ok (freshMerkleRoot X) :=
  computeMerkleRoot_eq_ok.mpr
    ⟨_, _, indexShardDescriptors_freshShards X, forall₂_freshLeaves X, rfl⟩

def freshRoot (X : Crates) (system : SystemArch) (repo registry now : String) :
    ShardedArchCacheIndexData where
  version := schemaVersionV8
  system := system
  repo := repo
  registry := registry
  generated := now
  publicKey := ""
  shards := freshShards X
  merkleRoot := freshMerkleRoot X
  gcRoots := []
  lastPromotedRun := none

theorem shards_freshRoot (X : Crates) (system : SystemArch) (repo registry now : String) :
    (freshRoot X system repo registry now).shards = freshShards X := by
  rw [freshRoot]

/-- `new` returns the fresh root: neither of its `expect`s can fail. -/
theorem new_eq_ok (X : Crates) (system : SystemArch) (repo registry now : String) :
    ShardedArchCacheIndexData.new X system repo registry now =
      .ok (freshRoot X system repo registry now) := by
  have hshards : collect (fun id => ShardDescriptor.empty X (UInt16.ofNat id))
      (List.range numShards) = .ok (freshShards X) :=
    collect_of_map fun id hid => empty_eq_ok (ofNat_lt hid)
  simp only [ShardedArchCacheIndexData.new, bind_eq_ok, pure_eq_ok]
  exact ⟨_, hshards, _, computeMerkleRoot_freshShards X, rfl⟩

/-! ## A hash function without collisions on the fresh set

Its digest of a node starts with the level and the number of the leftmost leaf. -/

/-- A digest that starts with a level and a leaf number. -/
def stamp (level id : Nat) : DigestBytes :=
  DigestBytes.overwrite (bigEndian 8 level ++ bigEndian 2 id)

/-- The digest that starts with the level and the leaf number in the given bytes. -/
def stampBytes (levelBytes idBytes : List UInt8) : DigestBytes :=
  DigestBytes.overwrite (levelBytes ++ idBytes)

/-- Leaves get level 0, nodes their own level, the empty tree and every other message levels above all
nodes. -/
def stampHash (message : List UInt8) : DigestBytes :=
  if message.take 42 = string descriptorLeafDomain then
    stampBytes (bigEndian 8 0) ((message.drop 42).take 2)
  else if message.take 36 = string rootNodeDomain then
    stampBytes ((message.drop 36).take 8) ((message.drop 53).take 2)
  else if message = emptySubtreeEncoding then stamp (2 ^ 33) 0
  else stamp (2 ^ 32) 0

def stampCrates : Crates := { sampleCrates with sha256 := stampHash }

end NixCache.Core
