import NixCache.Builder.Proofs.Compaction
/-!
# Loading the published index

A purge works on maps: the entries of the shards of an architecture put into one, and the entries of
all architectures put into one.  What it loaded is what the readers accepted, shard by shard.
-/

namespace NixCache.Builder

open NixCache.Lib NixCache.Lib.Result NixCache.Core NixCache.Oci NixCache.Oci.IndexClient
open NixCache.Lib.Program (Trace)

variable {X : OciCrates} {client : OciClient} {system : SystemArch} {trace : Trace Request Reply}

/-! ## One architecture -/

/-- An architecture whose root was accepted, with the contents of its shards. -/
structure IsLoaded (X : OciCrates) (client : OciClient) (arch : LoadedArch)
    (base : Nat → ShardDataPayload) : Prop where
  root : IsAccepted X client arch.system arch.root
  shards : AreShardsOf X client arch.system arch.root.shards base
  entries : ∀ hash entry, arch.entries.lookup hash = some entry ↔
    HashMap.InParts numShards (partsOf base) hash entry

/-- The shards that are fetched. -/
def nonEmptyShards (root : ShardedArchCacheIndexData) : List ShardDescriptor :=
  root.shards.filter fun shard => 0 < shard.entryCount ∧ ¬ Str.isEmpty shard.blobDigest

theorem eq_emptyDescriptor_at {descriptor : ShardDescriptor} {shards : List ShardDescriptor}
    {id : Nat} (h : IsIndexed X.toCrates shards) (hget : shards[id]? = some descriptor)
    (hcount : descriptor.entryCount = 0) :
    descriptor = emptyDescriptor X.toCrates (UInt16.ofNat id) := by
  have hid := (shardId_of_getElem? h hget).1
  have hempty : descriptor.isEmpty = true := by simpa [ShardDescriptor.isEmpty] using hcount
  have heq := eq_emptyDescriptor (h.valid descriptor (List.mem_of_getElem? hget)) hempty
  have hsame : descriptor.shardId = UInt16.ofNat id := by rw [← hid, UInt16.ofNat_toNat]
  rwa [hsame] at heq

end NixCache.Builder
