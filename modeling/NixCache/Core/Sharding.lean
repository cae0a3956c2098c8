import NixCache.Core.Types
import NixCache.Lib.Encoding
import NixCache.Lib.HashMap
import NixCache.Lib.MerkleTree
import Mathlib.Data.List.Sort
/-!
# Shards and their Merkle trees

`nixcache-core/src/sharding.rs` and the `ShardDescriptor` of `types.rs`.  Every hash is taken of a
byte string that is written out as a definition of its own, so that the proofs can speak of the
messages a computation hashes.  A `usize` has 64 bits.
-/

namespace NixCache.Core

open NixCache.Lib NixCache.Lib.Result NixCache.Lib.Encoding NixCache.Lib.MerkleTree

def numShards : Nat := 1024

/-! ## Shard ids -/

def nixBase32Alphabet : List UInt8 :=
  "0123456789abcdfghijklmnpqrsvwxyz".toList.map Char.toUInt8

def nixBase32Val (byte : UInt8) : Except TypeError UInt8 :=
  if '0'.toUInt8 ≤ byte ∧ byte ≤ '9'.toUInt8 then .ok (byte - '0'.toUInt8)
  else if 'a'.toUInt8 ≤ byte ∧ byte ≤ 'd'.toUInt8 then .ok (byte - 'a'.toUInt8 + 10)
  else if 'f'.toUInt8 ≤ byte ∧ byte ≤ 'n'.toUInt8 then .ok (byte - 'f'.toUInt8 + 14)
  else if 'p'.toUInt8 ≤ byte ∧ byte ≤ 's'.toUInt8 then .ok (byte - 'p'.toUInt8 + 23)
  else if 'v'.toUInt8 ≤ byte ∧ byte ≤ 'z'.toUInt8 then .ok (byte - 'v'.toUInt8 + 27)
  else .error (.storeHashInvalidChar (Char.ofNat byte.toNat) 0)

/-- `nix_base32_val(byte).unwrap_or(0)`. -/
def nixBase32ValOrZero (byte : UInt8) : UInt16 :=
  match nixBase32Val byte with
  | .ok value => value.toUInt16
  | .error _ => 0

/-- `calculate_shard_id`; a parsed hash has the two bytes it reads. -/
def calculateShardId (hash : StoreHash) : UInt16 :=
  let bytes := Str.asBytes hash.val
  (nixBase32ValOrZero (bytes.getD 0 0) <<< 5) ||| nixBase32ValOrZero (bytes.getD 1 0)

def StoreHash.shardId (hash : StoreHash) : UInt16 := calculateShardId hash

def shardIdToPrefixBytes (shardId : UInt16) : List UInt8 :=
  [nixBase32Alphabet.getD ((shardId >>> 5) &&& 0x1F).toNat 0,
    nixBase32Alphabet.getD (shardId &&& 0x1F).toNat 0]

def shardIdToPrefix (shardId : UInt16) : String :=
  String.ofList ((shardIdToPrefixBytes shardId).map fun byte => Char.ofNat byte.toNat)

/-- `partitioned.entry(shard_id).or_default().insert(hash, entry)`. -/
def insertPartitioned (partitioned : HashMap UInt16 (HashMap StoreHash IndexEntry))
    (item : StoreHash × IndexEntry) : HashMap UInt16 (HashMap StoreHash IndexEntry) :=
  let shardId := calculateShardId item.1
  partitioned.insert shardId (((partitioned.lookup shardId).getD ∅).insert item.1 item.2)

def partitionEntriesByShard (entries : HashMap StoreHash IndexEntry) :
    HashMap UInt16 (HashMap StoreHash IndexEntry) :=
  entries.toList.foldl insertPartitioned ∅

/-! ## Digest texts -/

def hexValue (byte : UInt8) : UInt8 :=
  if byte ≤ '9'.toUInt8 then byte - '0'.toUInt8 else byte - 'a'.toUInt8 + 10

/-- The bytes of a text of hexadecimal digits, two digits to a byte. -/
def decodeHex : List UInt8 → List UInt8
  | high :: low :: rest => ((hexValue high <<< 4) ||| hexValue low) :: decodeHex rest
  | _ => []

/-- `[0_u8; 32]`, overwritten from the front. -/
def DigestBytes.overwrite (bytes : List UInt8) : DigestBytes :=
  ⟨(bytes ++ List.replicate 32 0).take 32, by simp⟩

def canonicalDigestBytes (value field : String) : Except CoreError DigestBytes := do
  let parsed ← mapErr (fun error => .invalidCanonicalDigest field error.text)
    (NarDigest.parse value)
  ensure (parsed.val = value)
    (.invalidCanonicalDigest field "digest must use the canonical lowercase sha256 form")
  pure (DigestBytes.overwrite (decodeHex ((Str.asBytes value).drop 7)))

def hexChar (digit : UInt8) : Char :=
  Char.ofNat (if digit < 10 then '0'.toNat + digit.toNat else 'a'.toNat + digit.toNat - 10)

/-- The two lower-case digits of one byte, as `{byte:02x}` prints them. -/
def hexDigits (byte : UInt8) : List Char := [hexChar (byte >>> 4), hexChar (byte &&& 15)]

def formatDigest (digest : DigestBytes) : String :=
  "sha256:" ++ String.ofList (digest.bytes.flatMap hexDigits)

def isLowerHexByte (byte : UInt8) : Bool := Str.isLowerHexDigit (Char.ofNat byte.toNat)

def isSha256 (value : String) : Bool :=
  Str.len value = 71 ∧ Str.startsWith value "sha256:" ∧
    ((Str.asBytes value).drop 7).all isLowerHexByte

def validateSha256 (value : String) : Except String Unit :=
  ensure (isSha256 value)
    "expected canonical sha256: followed by 64 lowercase hexadecimal characters"

/-! ## The canonical encoder

Each method of `CanonicalEncoder` is given as the bytes it appends. -/

namespace CanonicalEncoder

def u8 (value : UInt8) : List UInt8 := bigEndian 1 value.toNat

def u16 (value : UInt16) : List UInt8 := bigEndian 2 value.toNat

def u64 (value : UInt64) : List UInt8 := bigEndian 8 value.toNat

/-- `bytes`; the length is cast to `u64`. -/
def bytes (value : List UInt8) : List UInt8 := lengthPrefixed value

def string (value : String) : List UInt8 := bytes (Str.asBytes value)

def digest (value : DigestBytes) : List UInt8 := value.bytes

def optionDigest : Option DigestBytes → List UInt8 := optional digest

def optionString : Option String → List UInt8 := optional string

def optionU64 : Option UInt64 → List UInt8 := optional u64

def stringVec : List String → List UInt8 := vector string

/-- The message of `hash_with_encoder`: the domain, then the fields. -/
def message (domain : String) (fields : List (List UInt8)) : List UInt8 :=
  (string domain :: fields).flatten

end CanonicalEncoder

open CanonicalEncoder

def entryLeafDomain : String := "nixcache/merkle/v8/entry-leaf"
def shardNodeDomain : String := "nixcache/merkle/v8/shard-node"
def shardRootDomain : String := "nixcache/merkle/v8/shard-root"
def descriptorLeafDomain : String := "nixcache/merkle/v8/descriptor-leaf"
def rootNodeDomain : String := "nixcache/merkle/v8/root-node"
def rootRootDomain : String := "nixcache/merkle/v8/root-root"
def emptySubtreeDomain : String := "nixcache/merkle/v8/empty-subtree"

/-! ## Layered trees -/

def emptySubtreeEncoding : List UInt8 := message emptySubtreeDomain [u64 0, u8 0]

def nodeEncoding (domain : String) (level : Nat) (left : DigestBytes) (right : Option DigestBytes) :
    List UInt8 :=
  message domain
    [bigEndian 8 level, u8 (if right.isSome then 2 else 1), digest left,
      (right.map digest).getD []]

def layeredRoot (X : Crates) (leaves : List DigestBytes) (nodeDomain : String) : DigestBytes :=
  match leaves with
  | [] => X.sha256 emptySubtreeEncoding
  | leaf :: rest =>
      (climb X.sha256 (nodeEncoding nodeDomain) (rest.length + 1) 1 (leaf :: rest)).headD leaf

/-- The messages that `layeredRoot` hashes. -/
def layeredEncodings (X : Crates) (leaves : List DigestBytes) (nodeDomain : String) :
    List (List UInt8) :=
  match leaves with
  | [] => [emptySubtreeEncoding]
  | leaf :: rest =>
      climbEncodings X.sha256 (nodeEncoding nodeDomain) (rest.length + 1) 1 (leaf :: rest)

/-! ## The tree of one shard -/

def validateShardId (shardId : UInt16) : Except CoreError Unit :=
  ensure (shardId < 1024)
    (.invalidMerkle ("shard id " ++ toString shardId.toNat ++ " is out of range"))

def validateEntryIdentity (X : Crates) (hash : StoreHash) (entry : IndexEntry) (shardId : UInt16) :
    Except CoreError Unit := do
  let _ ← mapErr
    (fun error =>
      CoreError.invalidEntry ("map key " ++ hash.val ++ " is not canonical: " ++ error.text))
    (StoreHash.parse hash.val)
  entry.validateStructure X
  ensure (hash.shardId = shardId)
    (.invalidMerkle ("entry " ++ hash.val ++ " belongs to another shard"))
  ensure (entry.storeHash = some hash)
    (.invalidMerkle ("entry " ++ hash.val ++ " StorePath does not match map key"))

def originEncoding : Option OriginMetadata → List UInt8
  | some origin => [u8 1, optionU64 origin.runId, optionString origin.jobId].flatten
  | none => u8 0

/-- The message of `entry_leaf_hash`, with the decoded NAR digest. -/
def entryLeafMessage (hash : StoreHash) (entry : IndexEntry) (narDigest : DigestBytes) :
    List UInt8 :=
  message entryLeafDomain
    [bytes (Str.asBytes hash.val), string entry.name,
      optionString (entry.system.map SystemArch.asStr),
      string entry.narinfoMeta.storePath, string entry.narinfoMeta.narBasename,
      optionString entry.narinfoMeta.compression, optionString entry.narinfoMeta.fileHash,
      optionU64 entry.narinfoMeta.fileSize, string entry.narinfoMeta.narHash,
      stringVec entry.narinfoMeta.references, optionString entry.narinfoMeta.deriver,
      stringVec entry.narinfoMeta.signatures, optionString entry.narinfoMeta.ca,
      digest narDigest, u64 entry.narSize, string entry.added, originEncoding entry.origin]

def entryLeafEncoding (hash : StoreHash) (entry : IndexEntry) : Except CoreError (List UInt8) := do
  let narDigest ← canonicalDigestBytes entry.narDigest.val "entry nar_digest"
  pure (entryLeafMessage hash entry narDigest)

/-- The entries in the order of their hashes. -/
def sortedEntries (entries : HashMap StoreHash IndexEntry) : List (StoreHash × IndexEntry) :=
  entries.toList.insertionSort fun left right => left.1 ≤ right.1

/-- The leaf messages of a shard, each after the identity check of its entry. -/
def shardLeafEncodings (X : Crates) (shardId : UInt16) (entries : HashMap StoreHash IndexEntry) :
    Except CoreError (List (List UInt8)) :=
  collect
    (fun item => do
      validateEntryIdentity X item.1 item.2 shardId
      entryLeafEncoding item.1 item.2)
    (sortedEntries entries)

def shardRootEncoding (shardId : UInt16) (count : Nat) (subtreeRoot : DigestBytes) : List UInt8 :=
  message shardRootDomain
    [u16 shardId, bytes (shardIdToPrefixBytes shardId), bigEndian 8 count, digest subtreeRoot]

def computeShardRootBytes (X : Crates) (shardId : UInt16)
    (entries : HashMap StoreHash IndexEntry) : Except CoreError DigestBytes := do
  validateShardId shardId
  let leaves ← shardLeafEncodings X shardId entries
  let subtreeRoot := layeredRoot X (leaves.map X.sha256) shardNodeDomain
  pure (X.sha256 (shardRootEncoding shardId entries.size subtreeRoot))

def computeShardMerkleHash (X : Crates) (shardId : UInt16)
    (entries : HashMap StoreHash IndexEntry) : Except CoreError String := do
  let root ← computeShardRootBytes X shardId entries
  pure (formatDigest root)

/-! ## Shard descriptors -/

@[ext] structure ShardDescriptor where
  shardId : UInt16
  shardPrefix : String
  blobDigest : String
  compressedSize : UInt64
  uncompressedSize : UInt64
  entryCount : UInt64
  merkleHash : String
deriving DecidableEq, Repr

namespace ShardDescriptor

def isEmpty (descriptor : ShardDescriptor) : Bool := descriptor.entryCount = 0

def shardText (shardId : UInt16) : String := "shard " ++ toString shardId.toNat

def validateStructure (X : Crates) (descriptor : ShardDescriptor) : Except CoreError Unit := do
  ensure (descriptor.shardId < 1024)
    (.invalidIndex ("shard id " ++ toString descriptor.shardId.toNat ++ " is out of range"))
  ensure (descriptor.shardPrefix = shardIdToPrefix descriptor.shardId)
    (.invalidIndex (shardText descriptor.shardId ++ " has an invalid prefix"))
  if descriptor.isEmpty then do
    let expected ← computeShardMerkleHash X descriptor.shardId ∅
    ensure (Str.isEmpty descriptor.blobDigest ∧ descriptor.compressedSize = 0 ∧
        descriptor.uncompressedSize = 0 ∧ descriptor.merkleHash = expected)
      (.invalidIndex ("empty " ++ shardText descriptor.shardId ++ " has non-empty metadata"))
  else do
    mapErr (fun details =>
        CoreError.invalidIndex (shardText descriptor.shardId ++ " digest: " ++ details))
      (validateSha256 descriptor.blobDigest)
    ensure (descriptor.compressedSize ≠ 0 ∧ descriptor.uncompressedSize ≠ 0)
      (.invalidIndex ("non-empty " ++ shardText descriptor.shardId ++ " has zero size"))
    ensure (descriptor.entryCount ≠ 0)
      (.invalidIndex ("non-empty " ++ shardText descriptor.shardId ++ " has zero entries"))
    mapErr (fun details =>
        CoreError.invalidIndex (shardText descriptor.shardId ++ " Merkle hash: " ++ details))
      (validateSha256 descriptor.merkleHash)

/-- `ShardDescriptor::empty`. -/
def empty (X : Crates) (shardId : UInt16) : Except CoreError ShardDescriptor := do
  let merkleHash ← computeShardMerkleHash X shardId ∅
  pure ⟨shardId, shardIdToPrefix shardId, "", 0, 0, 0, merkleHash⟩

/-- `ShardDescriptor::new`. -/
def new (X : Crates) (shardId : UInt16) (blobDigest : String)
    (compressedSize uncompressedSize entryCount : UInt64) (merkleHash : String) :
    Except CoreError ShardDescriptor := do
  let value : ShardDescriptor := ⟨shardId, shardIdToPrefix shardId, blobDigest, compressedSize,
    uncompressedSize, entryCount, merkleHash⟩
  value.validateStructure X
  pure value

end ShardDescriptor

/-! ## The tree of all shards -/

def descriptorLeafMessage (descriptor : ShardDescriptor) (blobDigest : Option DigestBytes)
    (merkleHash : DigestBytes) : List UInt8 :=
  message descriptorLeafDomain
    [u16 descriptor.shardId, bytes (Str.asBytes descriptor.shardPrefix), optionDigest blobDigest,
      u64 descriptor.compressedSize, u64 descriptor.uncompressedSize, u64 descriptor.entryCount,
      digest merkleHash]

/-- The message of `descriptor_leaf_hash`; an empty blob digest is left out. -/
def descriptorLeafEncoding (descriptor : ShardDescriptor) : Except CoreError (List UInt8) := do
  let blobDigest ←
    if Str.isEmpty descriptor.blobDigest then pure none
    else some <$> canonicalDigestBytes descriptor.blobDigest "descriptor blob_digest"
  let merkleHash ← canonicalDigestBytes descriptor.merkleHash "descriptor merkle_hash"
  pure (descriptorLeafMessage descriptor blobDigest merkleHash)

abbrev Slots := List (Option ShardDescriptor)

/-- One iteration of the slotting loop. -/
def fillSlot (X : Crates) (ordered : Slots) (descriptor : ShardDescriptor) :
    Except CoreError Slots := do
  validateShardId descriptor.shardId
  ensure (ordered.getD descriptor.shardId.toNat none = none)
    (.invalidShardSet ("duplicate shard id " ++ toString descriptor.shardId.toNat))
  descriptor.validateStructure X
  pure (ordered.set descriptor.shardId.toNat (some descriptor))

def indexShardDescriptors (X : Crates) (shards : List ShardDescriptor) :
    Except CoreError (List ShardDescriptor) := do
  ensure (shards.length = numShards)
    (.invalidShardSet ("expected exactly " ++ toString numShards ++ " shard descriptors"))
  let ordered ← foldM (fillSlot X) (List.replicate numShards none) shards
  collect (fun slot => okOr (.invalidShardSet ("missing shard id " ++ toString slot.2)) slot.1)
    ordered.zipIdx

def rootRootEncoding (treeRoot : DigestBytes) : List UInt8 :=
  message rootRootDomain [bigEndian 8 numShards, digest treeRoot]

def computeMerkleRoot (X : Crates) (shards : List ShardDescriptor) : Except CoreError String := do
  let ordered ← indexShardDescriptors X shards
  let leaves ← collect descriptorLeafEncoding ordered
  let treeRoot := layeredRoot X (leaves.map X.sha256) rootNodeDomain
  pure (formatDigest (X.sha256 (rootRootEncoding treeRoot)))

def diffShardDescriptors (X : Crates) (oldShards newShards : List ShardDescriptor) :
    Except CoreError (List UInt16) := do
  let old ← indexShardDescriptors X oldShards
  let new ← indexShardDescriptors X newShards
  pure ((old.zip new).filterMap fun pair => if pair.1 ≠ pair.2 then some pair.2.shardId else none)

end NixCache.Core
