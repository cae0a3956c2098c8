import NixCache.Core.Index
import NixCache.Lib.Json
/-!
# The wire format of `nixcache-core`

The `Serialize` and `Deserialize` of the types in `nixcache-core/src/types.rs`, between values and
JSON documents.  A decoder reads the wire struct and then runs the structural check of its type.
-/

namespace NixCache.Core

open NixCache.Lib NixCache.Lib.Result NixCache.Lib.Json

/-- `map_err(serde::de::Error::custom)`. -/
def customError {α : Type} : Except CoreError α → Except JsonError α :=
  mapErr fun error => JsonError.custom error.text

/-! ## Texts -/

namespace StoreHash

def toJson (hash : StoreHash) : Json := .str hash.val

def ofText (value : String) : Except JsonError StoreHash := customError (liftType (parse value))

def fromJson (json : Json) : Except JsonError StoreHash := do
  let value ← text json
  ofText value

end StoreHash

namespace NarDigest

def toJson (digest : NarDigest) : Json := .str digest.val

def fromJson (json : Json) : Except JsonError NarDigest := do
  let value ← text json
  customError (liftType (parse value))

end NarDigest

namespace SystemArch

def toJson (system : SystemArch) : Json := .str system.asStr

def fromJson (json : Json) : Except JsonError SystemArch := do
  let value ← text json
  pure (ofStr value)

end SystemArch

/-! ## Entries -/

namespace NarInfoMeta

def toJson (info : NarInfoMeta) : Json :=
  .obj
    [("store_path", .str info.storePath),
      ("nar_basename", .str info.narBasename),
      ("compression", ofOption .str info.compression),
      ("file_hash", ofOption .str info.fileHash),
      ("file_size", ofOption (fun size => .int size.toNat) info.fileSize),
      ("nar_hash", .str info.narHash),
      ("references", .arr (info.references.map .str)),
      ("deriver", ofOption .str info.deriver),
      ("signatures", .arr (info.signatures.map .str)),
      ("ca", ofOption .str info.ca)]

def fromJson (json : Json) : Except JsonError NarInfoMeta := do
  let fields ← record ["store_path", "nar_basename", "compression", "file_hash", "file_size",
    "nar_hash", "references", "deriver", "signatures", "ca"] json
  let storePath ← field fields "store_path" text
  let narBasename ← field fields "nar_basename" text
  let compression ← optionField fields "compression" text
  let fileHash ← optionField fields "file_hash" text
  let fileSize ← optionField fields "file_size" u64
  let narHash ← field fields "nar_hash" text
  let references ← field fields "references" (list text)
  let deriver ← optionField fields "deriver" text
  let signatures ← field fields "signatures" (list text)
  let ca ← optionField fields "ca" text
  let value : NarInfoMeta := ⟨storePath, narBasename, compression, fileHash, fileSize, narHash,
    references, deriver, signatures, ca⟩
  customError value.validateStructure
  pure value

end NarInfoMeta

namespace OriginMetadata

def toJson (origin : OriginMetadata) : Json :=
  .obj
    [("run_id", ofOption (fun id => .int id.toNat) origin.runId),
      ("job_id", ofOption .str origin.jobId)]

def fromJson (json : Json) : Except JsonError OriginMetadata := do
  let fields ← record ["run_id", "job_id"] json
  let runId ← optionField fields "run_id" u64
  let jobId ← optionField fields "job_id" text
  let value : OriginMetadata := ⟨runId, jobId⟩
  customError (liftType value.validateStructure)
  pure value

/-- `RequiredOption<OriginMetadata>`: the field must be there, as `null` or as an object. -/
def requiredOption : Decoder (Option OriginMetadata)
  | .null => .ok none
  | .obj fields => some <$> fromJson (.obj fields)
  | _ => .error .invalidType

end OriginMetadata

namespace IndexEntry

def toJson (entry : IndexEntry) : Json :=
  .obj
    [("name", .str entry.name),
      ("system", ofOption SystemArch.toJson entry.system),
      ("narinfo_meta", entry.narinfoMeta.toJson),
      ("nar_digest", entry.narDigest.toJson),
      ("nar_size", .int entry.narSize.toNat),
      ("added", .str entry.added),
      ("origin", ofOption OriginMetadata.toJson entry.origin)]

def fromJson (X : Crates) (json : Json) : Except JsonError IndexEntry := do
  let fields ← record ["name", "system", "narinfo_meta", "nar_digest", "nar_size", "added",
    "origin"] json
  let name ← field fields "name" text
  let system ← optionField fields "system" SystemArch.fromJson
  let narinfoMeta ← field fields "narinfo_meta" NarInfoMeta.fromJson
  let narDigest ← field fields "nar_digest" NarDigest.fromJson
  let narSize ← field fields "nar_size" u64
  let added ← field fields "added" text
  let origin ← field fields "origin" OriginMetadata.requiredOption
  let value : IndexEntry := ⟨name, system, narinfoMeta, narDigest, narSize, added, origin⟩
  customError (value.validateStructure X)
  pure value

end IndexEntry

/-- `HashMap<StoreHash, IndexEntry>`. -/
def entriesToJson : HashMap StoreHash IndexEntry → Json :=
  ofMap StoreHash.val IndexEntry.toJson

def entriesFromJson (X : Crates) : Decoder (HashMap StoreHash IndexEntry) :=
  Json.map StoreHash.ofText (IndexEntry.fromJson X)

/-! ## Indexes -/

namespace ShardDescriptor

def toJson (descriptor : ShardDescriptor) : Json :=
  .obj
    [("shard_id", .int descriptor.shardId.toNat),
      ("prefix", .str descriptor.shardPrefix),
      ("blob_digest", .str descriptor.blobDigest),
      ("compressed_size", .int descriptor.compressedSize.toNat),
      ("uncompressed_size", .int descriptor.uncompressedSize.toNat),
      ("entry_count", .int descriptor.entryCount.toNat),
      ("merkle_hash", .str descriptor.merkleHash)]

def fromJson (X : Crates) (json : Json) : Except JsonError ShardDescriptor := do
  let fields ← record ["shard_id", "prefix", "blob_digest", "compressed_size",
    "uncompressed_size", "entry_count", "merkle_hash"] json
  let shardId ← field fields "shard_id" u16
  let shardPrefix ← field fields "prefix" text
  let blobDigest ← field fields "blob_digest" text
  let compressedSize ← field fields "compressed_size" u64
  let uncompressedSize ← field fields "uncompressed_size" u64
  let entryCount ← field fields "entry_count" u64
  let merkleHash ← field fields "merkle_hash" text
  let value : ShardDescriptor := ⟨shardId, shardPrefix, blobDigest, compressedSize,
    uncompressedSize, entryCount, merkleHash⟩
  customError (value.validateStructure X)
  pure value

end ShardDescriptor

namespace ShardedArchCacheIndexData

def toJson (root : ShardedArchCacheIndexData) : Json :=
  .obj
    [("version", .int root.version.toNat),
      ("system", root.system.toJson),
      ("repo", .str root.repo),
      ("registry", .str root.registry),
      ("generated", .str root.generated),
      ("public_key", .str root.publicKey),
      ("shards", .arr (root.shards.map ShardDescriptor.toJson)),
      ("merkle_root", .str root.merkleRoot),
      ("gc_roots", .arr (root.gcRoots.map StoreHash.toJson)),
      ("last_promoted_run", ofOption (fun id => .int id.toNat) root.lastPromotedRun)]

def fromJson (X : Crates) (json : Json) : Except JsonError ShardedArchCacheIndexData := do
  let fields ← record ["version", "system", "repo", "registry", "generated", "public_key",
    "shards", "merkle_root", "gc_roots", "last_promoted_run"] json
  let version ← field fields "version" u32
  let system ← field fields "system" SystemArch.fromJson
  let repo ← field fields "repo" text
  let registry ← field fields "registry" text
  let generated ← field fields "generated" text
  let publicKey ← field fields "public_key" text
  let shards ← field fields "shards" (list (ShardDescriptor.fromJson X))
  let merkleRoot ← field fields "merkle_root" text
  let gcRoots ← field fields "gc_roots" (list StoreHash.fromJson)
  let lastPromotedRun ← optionField fields "last_promoted_run" u64
  let value : ShardedArchCacheIndexData := ⟨version, system, repo, registry, generated, publicKey,
    shards, merkleRoot, gcRoots, lastPromotedRun⟩
  customError (value.validateStructure X)
  pure value

end ShardedArchCacheIndexData

namespace ShardDataPayload

def toJson (payload : ShardDataPayload) : Json :=
  .obj
    [("version", .int payload.version.toNat),
      ("shard_id", .int payload.shardId.toNat),
      ("prefix", .str payload.shardPrefix),
      ("entries", entriesToJson payload.entries)]

def fromJson (X : Crates) (json : Json) : Except JsonError ShardDataPayload := do
  let fields ← record ["version", "shard_id", "prefix", "entries"] json
  let version ← field fields "version" u32
  let shardId ← field fields "shard_id" u16
  let shardPrefix ← field fields "prefix" text
  let entries ← field fields "entries" (entriesFromJson X)
  let value : ShardDataPayload := ⟨version, shardId, shardPrefix, entries⟩
  customError (value.validateStructure X)
  pure value

end ShardDataPayload

/-! ## Receipts -/

namespace BuildStats

def toJson (stats : BuildStats) : Json :=
  .obj
    [("discovered_outputs", .int stats.discoveredOutputs.toNat),
      ("built_paths", .int stats.builtPaths.toNat),
      ("substituted_paths", .int stats.substitutedPaths.toNat),
      ("uploaded_blobs", .int stats.uploadedBlobs.toNat),
      ("total_bytes_uploaded", .int stats.totalBytesUploaded.toNat)]

def fromJson (json : Json) : Except JsonError BuildStats := do
  let fields ← record ["discovered_outputs", "built_paths", "substituted_paths", "uploaded_blobs",
    "total_bytes_uploaded"] json
  let discoveredOutputs ← field fields "discovered_outputs" u64
  let builtPaths ← field fields "built_paths" u64
  let substitutedPaths ← field fields "substituted_paths" u64
  let uploadedBlobs ← field fields "uploaded_blobs" u64
  let totalBytesUploaded ← field fields "total_bytes_uploaded" u64
  pure ⟨discoveredOutputs, builtPaths, substitutedPaths, uploadedBlobs, totalBytesUploaded⟩

end BuildStats

namespace BuildReceipt

def toJson (receipt : BuildReceipt) : Json :=
  .obj
    [("version", .int receipt.version.toNat),
      ("system", receipt.system.toJson),
      ("repo", .str receipt.repo),
      ("origin", ofOption OriginMetadata.toJson receipt.origin),
      ("timestamp", .str receipt.timestamp),
      ("public_key", ofOption .str receipt.publicKey),
      ("new_entries", entriesToJson receipt.newEntries),
      ("active_gc_roots", .arr (receipt.activeGcRoots.map StoreHash.toJson)),
      ("stats", receipt.stats.toJson)]

def fromJson (X : Crates) (json : Json) : Except JsonError BuildReceipt := do
  let fields ← record ["version", "system", "repo", "origin", "timestamp", "public_key",
    "new_entries", "active_gc_roots", "stats"] json
  let version ← field fields "version" u32
  let system ← field fields "system" SystemArch.fromJson
  let repo ← field fields "repo" text
  let origin ← field fields "origin" OriginMetadata.requiredOption
  let timestamp ← field fields "timestamp" text
  let publicKey ← optionField fields "public_key" text
  let newEntries ← field fields "new_entries" (entriesFromJson X)
  let activeGcRoots ← field fields "active_gc_roots" (list StoreHash.fromJson)
  let stats ← field fields "stats" BuildStats.fromJson
  let value : BuildReceipt := ⟨version, system, repo, origin, timestamp, publicKey, newEntries,
    activeGcRoots, stats⟩
  customError (value.validateStructure X)
  pure value

end BuildReceipt

end NixCache.Core
