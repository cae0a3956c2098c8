import NixCache.Core.Sharding
import NixCache.Lib.Partition
/-!
# Shards as parts of one index

`calculate_shard_id` names one of the 1024 shards for every hash, so the shards of an index are the
parts of one map.
-/

namespace NixCache.Core

open NixCache.Lib

theorem nixBase32ValOrZero_lt (byte : UInt8) : (nixBase32ValOrZero byte).toNat < 32 := by
  have hall : ∀ n : Fin 256, (nixBase32ValOrZero (UInt8.ofFin n)).toNat < 32 := by
    decide +kernel
  exact hall byte.toFin

theorem shiftLeft_or_lt {a b : UInt16} (ha : a.toNat < 32) (hb : b.toNat < 32) :
    (a <<< 5 ||| b).toNat < 1024 := by
  rw [UInt16.toNat_or, UInt16.toNat_shiftLeft]
  apply Nat.or_lt_two_pow (n := 10)
  · simp only [UInt16.reduceToNat, Nat.reduceMod, Nat.shiftLeft_eq, Nat.reducePow]
    omega
  · omega

theorem calculateShardId_lt (hash : StoreHash) : (calculateShardId hash).toNat < numShards :=
  shiftLeft_or_lt (nixBase32ValOrZero_lt _) (nixBase32ValOrZero_lt _)

/-- The place of a hash among the shards. -/
def shardOf (hash : StoreHash) : Nat := (calculateShardId hash).toNat

theorem shardOf_lt (hash : StoreHash) : shardOf hash < numShards := calculateShardId_lt hash

theorem shardOf_eq_iff {hash : StoreHash} {id : Nat} (hid : id < numShards) :
    calculateShardId hash = UInt16.ofNat id ↔ shardOf hash = id := by
  have hsmall : id < UInt16.size := hid.trans (by decide)
  constructor
  · intro h
    rw [shardOf, h, UInt16.toNat_ofNat_of_lt' hsmall]
  · intro h
    rw [← h, shardOf, UInt16.ofNat_toNat]

theorem partitionEntriesByShard_eq (entries : HashMap StoreHash IndexEntry) :
    partitionEntriesByShard entries = HashMap.partition calculateShardId entries := rfl

/-- The entries that fall into a shard. -/
def entriesIn (entries : HashMap StoreHash IndexEntry) (id : Nat) : HashMap StoreHash IndexEntry :=
  ((partitionEntriesByShard entries).lookup (UInt16.ofNat id)).getD ∅

theorem lookup_entriesIn (entries : HashMap StoreHash IndexEntry) {id : Nat} (hid : id < numShards)
    (hash : StoreHash) :
    (entriesIn entries id).lookup hash = if shardOf hash = id then entries.lookup hash else none := by
  have h := HashMap.lookup_part calculateShardId entries (UInt16.ofNat id) hash
  rw [HashMap.part, ← partitionEntriesByShard_eq] at h
  rw [entriesIn, h]
  simp only [shardOf_eq_iff hid]

end NixCache.Core
