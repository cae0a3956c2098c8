import NixCache.Core.Proofs.FreshRoot
import NixCache.Oci.Proofs.Serving
import NixCache.Oci.Proofs.Writing
/-!
# What is pushed is read back

A root and a shard that were encoded by the writers are decoded by the readers, as long as the
limits of the reader allow it.
-/

namespace NixCache.Oci

open NixCache.Lib NixCache.Lib.Result NixCache.Core

variable {X : OciCrates} {client : OciClient} {registry : Registry}

/-- The documented behaviour of `serde_json` and `zstd` on what the writers write: documents are read
back from their text, and a compressed stream begins with the magic number and decodes to what was
compressed. -/
structure CodecLaws (X : OciCrates) : Prop where
  manifest : ∀ manifest : OciImageManifest, ReadsBack X manifest.toJson
  index : ∀ index : OciImageIndex, ReadsBack X index.toJson
  root : ∀ root : ShardedArchCacheIndexData, ReadsBack X root.toJson
  payload : ∀ payload : ShardDataPayload, ReadsBack X payload.toJson
  magic : ∀ data raw, X.zstdCompress data = .ok raw → ZstdCodec.isValidMagic raw = true
  content : ∀ data raw limit, X.zstdCompress data = .ok raw →
    X.zstdRead raw limit = .ok (data.take limit)

theorem IndexCodec.zstdCompress_of_encodeZstd {document : Json} {blob : Bytes}
    (h : encodeZstd X document = .ok blob) : X.zstdCompress (toVec X document) = .ok blob := by
  simpa only [encodeZstd, ZstdCodec.compress, mapErr_eq_ok] using h

/-- A document that was encoded is decoded exactly when its text is within the limit. -/
theorem IndexCodec.decodeZstd_encodeZstd (laws : CodecLaws X) {α : Type} {document : Json}
    {decode : Json → Except JsonError α} {blob : Bytes} {value : α} {mediaType : String}
    {maxBytes : UInt64} (hblob : encodeZstd X document = .ok blob)
    (hdocument : ReadsBack X document) (hdecode : decode document = .ok value)
    (hmedia : mediaType = rootIndexV8Zstd ∨ mediaType = shardDataV8Zstd)
    (hsize : (toVec X document).length ≤ maxBytes.toNat) :
    decodeZstd X decode blob mediaType maxBytes =
      .ok ⟨value, UInt64.ofNat (toVec X document).length⟩ := by
  have hcompress := zstdCompress_of_encodeZstd hblob
  have hmagic := laws.magic _ _ hcompress
  have hnonempty : blob ≠ [] := by
    rintro rfl
    simp [ZstdCodec.isValidMagic] at hmagic
  have hlimit : (toVec X document).length ≤ ZstdCodec.readLimit maxBytes := by
    have hmax := maxBytes.toNat_lt
    unfold ZstdCodec.readLimit
    omega
  have hread := laws.content _ _ (ZstdCodec.readLimit maxBytes) hcompress
  rw [List.take_of_length_le hlimit] at hread
  simp only [decodeZstd, bind_eq_ok, ensure_eq_ok, pure_eq_ok, mapErr_eq_ok,
    ZstdCodec.decompressLimited]
  refine ⟨(), hmedia, _, ⟨(), hnonempty, (), hmagic, _, hread, (), hsize, rfl⟩, value, ?_, rfl⟩
  rw [decodeJson_toVec hdocument, hdecode]
  rfl

theorem IndexCodec.length_le_of_decodeZstd (laws : CodecLaws X) {α : Type} {document : Json}
    {decode : Json → Except JsonError α} {blob : Bytes} {decoded : DecodedIndex α}
    {mediaType : String} {maxBytes : UInt64} (hblob : encodeZstd X document = .ok blob)
    (h : decodeZstd X decode blob mediaType maxBytes = .ok decoded)
    (hmax : maxBytes.toNat + 1 < 18446744073709551616) :
    (toVec X document).length ≤ maxBytes.toNat := by
  have hread := laws.content _ _ (ZstdCodec.readLimit maxBytes) (zstdCompress_of_encodeZstd hblob)
  simp only [decodeZstd, bind_eq_ok, ensure_eq_ok, mapErr_eq_ok, ZstdCodec.decompressLimited,
    pure_eq_ok, hread, Except.ok.injEq, exists_eq_left'] at h
  obtain ⟨_, _, _, ⟨_, _, _, _, _, hlength, _⟩, _⟩ := h
  rw [List.length_take] at hlength
  unfold ZstdCodec.readLimit at hlength
  omega

/-! ## Descriptors and annotations of a root -/

@[simp] theorem OciPlatform.toSystem_fromSystem (system : SystemArch) :
    (fromSystem system).toSystem = system :=
  SystemArch.fromOci_toOciPlatformTuple system

/-- The manifest that a root is published with. -/
def rootManifest (X : OciCrates) (now : String) (root : ShardedArchCacheIndexData) (blob : Bytes) :
    OciImageManifest :=
  buildShardedArchIndexManifest now
    ⟨digestOf X.toCrates blob, UInt64.ofNat blob.length, emptyConfigDigest, emptyConfigSize,
      root.system, root.merkleRoot⟩

/-- The limits that a manifest of a root with this blob needs. -/
structure ManifestFits (limits : OciReadLimits) (blob : Bytes) : Prop where
  layers : 1 ≤ limits.maxManifestLayers.toNat
  config : 2 ≤ limits.maxBufferedBlobBytes.toNat
  blob : blob.length ≤ limits.maxBufferedBlobBytes.toNat

namespace ManifestFits

variable {limits : OciReadLimits} {blob : Bytes}

theorem toNat_ofNat (h : ManifestFits limits blob) :
    (UInt64.ofNat blob.length).toNat = blob.length := by
  have hmax := limits.maxBufferedBlobBytes.toNat_lt
  have hblob := h.blob
  exact UInt64.toNat_ofNat_of_lt' (by simp only [UInt64.size]; omega)

end ManifestFits

theorem OciDescriptor.validateFor_eq_ok {descriptor : OciDescriptor} {target : String}
    {maxSize : UInt64} {u : Unit} :
    descriptor.validateFor target maxSize = .ok u ↔
      isSha256 descriptor.digest = true ∧ descriptor.size ≤ maxSize ∧
        ¬ Str.isEmpty (Str.trim descriptor.mediaType) = true := by
  simp only [OciDescriptor.validateFor, ContentDigest.parse, bind_eq_ok, ensure_eq_ok, mapErr_eq_ok,
    pure_eq_ok]
  constructor
  · rintro ⟨_, ⟨_, hdigest, _⟩, _, hsize, hmedia⟩
    exact ⟨hdigest, hsize, hmedia⟩
  · rintro ⟨hdigest, hsize, hmedia⟩
    exact ⟨_, ⟨(), hdigest, rfl⟩, (), hsize, hmedia⟩

theorem isSha256_emptyConfigDigest : isSha256 emptyConfigDigest = true := by decide

theorem validateV8Annotations_eq_ok {annotations : Annotations} {system : SystemArch}
    {merkleRoot target : String} {u : Unit} (hknown : system.isKnown = true)
    (hsystem : annotations.lookup systemKey = some system.asStr)
    (hschema : annotations.lookup schemaKey = some "8")
    (hmerkle : annotations.lookup merkleRootKey = some merkleRoot)
    (hdigest : isSha256 merkleRoot = true) :
    validateV8Annotations annotations system merkleRoot target = .ok u := by
  simp only [validateV8Annotations, bind_eq_ok, ensure_eq_ok, mapErr_eq_ok, pure_eq_ok,
    ContentDigest.parse]
  refine ⟨(), ⟨?_, hschema, hmerkle⟩, _, ⟨(), hdigest, rfl⟩, trivial⟩
  simp [hsystem, SystemArch.ofStr_asStr, hknown]

section Root

variable {now target : String} {root : ShardedArchCacheIndexData} {blob : Bytes}

theorem validateFor_rootManifest (hfits : ManifestFits client.limits blob) :
    (rootManifest X now root blob).validateFor client.limits target = .ok () := by
  have hconfig : emptyConfigSize ≤ client.limits.maxBufferedBlobBytes :=
    UInt64.le_iff_toNat_le.mpr hfits.config
  have hblob : UInt64.ofNat blob.length ≤ client.limits.maxBufferedBlobBytes := by
    rw [UInt64.le_iff_toNat_le, hfits.toNat_ofNat]
    exact hfits.blob
  have hdigest : isSha256 (digestOf X.toCrates blob) = true := isSha256_iff.mpr ⟨_, rfl⟩
  unfold OciImageManifest.validateFor rootManifest buildShardedArchIndexManifest
  simp only [bind_eq_ok, ensure_eq_ok, checkAll_eq_ok, List.mem_singleton,
    OciDescriptor.validateFor_eq_ok]
  refine ⟨(), trivial, (), trivial, (), hfits.layers, (),
    ⟨isSha256_emptyConfigDigest, hconfig, by decide⟩, (), trivial, ?_⟩
  rintro _ rfl
  exact ⟨hdigest, hblob, (by decide : ¬ Str.isEmpty (Str.trim rootIndexV8Zstd) = true)⟩

theorem isSha256_merkleRoot (h : root.IsValid X.toCrates) : isSha256 root.merkleRoot = true :=
  ShardedArchCacheIndexData.isSha256_of_computeMerkleRoot h.merkleRoot

theorem validateSchemaV8Root_of {manifest : OciImageManifest} {layer : OciDescriptor}
    {system : SystemArch} {merkleRoot : String} {limits : OciReadLimits}
    {annotations layerAnnotations : Annotations}
    (hvalid : manifest.validateFor limits target = .ok ()) (hlayers : manifest.layers = [layer])
    (hannotations : manifest.annotations = some annotations)
    (hroot : validateV8Annotations annotations system merkleRoot target = .ok ())
    (hmedia : layer.mediaType = rootIndexV8Zstd)
    (hplatform : layer.platformSystem = some system)
    (hlayerAnnotations : layer.annotations = some layerAnnotations)
    (hlayer : validateV8Annotations layerAnnotations system merkleRoot layer.digest = .ok ()) :
    manifest.validateSchemaV8Root system merkleRoot limits target = .ok layer := by
  unfold OciImageManifest.validateSchemaV8Root
  rw [hvalid, hlayers, hannotations]
  simp only [bind_eq_ok, okOr_eq_ok, Option.some.injEq, ensure_eq_ok, pure_eq_ok]
  exact ⟨(), trivial, _, rfl, (), hroot, (), hmedia, (), hplatform, _, hlayerAnnotations, (), hlayer,
    trivial⟩

def rootAnnotations (now : String) (root : ShardedArchCacheIndexData) : List (String × String) :=
  [("org.opencontainers.image.created", now),
    ("org.opencontainers.image.description",
      "NixCache Sharded Merkle Baseline (" ++ root.system.asStr ++ ")"),
    (systemKey, root.system.asStr), (merkleRootKey, root.merkleRoot), (schemaKey, "8")]

def layerAnnotations (root : ShardedArchCacheIndexData) : List (String × String) :=
  [(systemKey, root.system.asStr), (merkleRootKey, root.merkleRoot), (schemaKey, "8")]

theorem lookup_rootAnnotations {key value : String} (h : (key, value) ∈ rootAnnotations now root) :
    (HashMap.ofList (rootAnnotations now root)).lookup key = some value :=
  (HashMap.lookup_ofList (by simp [rootAnnotations, systemKey, merkleRootKey, schemaKey])).mpr h

theorem lookup_layerAnnotations {key value : String} (h : (key, value) ∈ layerAnnotations root) :
    (HashMap.ofList (layerAnnotations root)).lookup key = some value :=
  (HashMap.lookup_ofList (by simp [layerAnnotations, systemKey, merkleRootKey, schemaKey])).mpr h

/-- The layer of the manifest of a root. -/
def rootLayer (X : OciCrates) (root : ShardedArchCacheIndexData) (blob : Bytes) : OciDescriptor :=
  ⟨rootIndexV8Zstd, digestOf X.toCrates blob, UInt64.ofNat blob.length,
    some (OciPlatform.fromSystem root.system), some (HashMap.ofList (layerAnnotations root))⟩

/-- A root that was encoded is the root of the manifest it is published with. -/
theorem IndexClient.isRootOf_rootManifest (laws : CodecLaws X)
    (haccepted : IsAccepted X client root.system root)
    (hroots : ∀ hash ∈ root.gcRoots, hash.IsCanonical)
    (hblob : IndexCodec.encodeZstd X root.toJson = .ok blob)
    (hfits : ManifestFits client.limits blob)
    (htext : (IndexCodec.toVec X root.toJson).length ≤
      client.limits.maxIndexUncompressedBytes.toNat) :
    IsRootOf X client root.system target (rootManifest X now root blob) blob root := by
  have hvalid := haccepted.valid
  have hmerkle := isSha256_merkleRoot hvalid
  refine ⟨lookup_rootAnnotations (by simp [rootAnnotations]), ?_, haccepted⟩
  refine ⟨rootLayer X root blob, ?_, ?_, rfl, hfits.toNat_ofNat,
    UInt64.ofNat (IndexCodec.toVec X root.toJson).length, ?_⟩
  · apply validateSchemaV8Root_of (validateFor_rootManifest hfits) rfl rfl _ rfl _ rfl
    · exact validateV8Annotations_eq_ok hvalid.known
        (lookup_layerAnnotations (by simp [layerAnnotations]))
        (lookup_layerAnnotations (by simp [layerAnnotations]))
        (lookup_layerAnnotations (by simp [layerAnnotations])) hmerkle
    · exact validateV8Annotations_eq_ok hvalid.known
        (lookup_rootAnnotations (by simp [rootAnnotations]))
        (lookup_rootAnnotations (by simp [rootAnnotations]))
        (lookup_rootAnnotations (by simp [rootAnnotations])) hmerkle
    · simp [OciDescriptor.platformSystem]
  · rw [OciDescriptor.validateFor_eq_ok]
    refine ⟨isSha256_iff.mpr ⟨_, rfl⟩, ?_,
      (by decide : ¬ Str.isEmpty (Str.trim rootIndexV8Zstd) = true)⟩
    change UInt64.ofNat blob.length ≤ _
    rw [UInt64.le_iff_toNat_le, hfits.toNat_ofNat]
    exact hfits.blob
  · exact IndexCodec.decodeZstd_encodeZstd laws hblob (laws.root root)
      (ShardedArchCacheIndexData.fromJson_toJson hvalid hroots) (Or.inl rfl) htext

/-- A registry that holds what `push_sharded_root` writes lets the reader find the root. -/
theorem IndexClient.read_getShardedRoot_pushed (laws : CodecLaws X) {tag : String}
    (haccepted : IsAccepted X client root.system root)
    (hroots : ∀ hash ∈ root.gcRoots, hash.IsCanonical)
    (hblob : IndexCodec.encodeZstd X root.toJson = .ok blob)
    (hfits : ManifestFits client.limits blob)
    (htext : (IndexCodec.toVec X root.toJson).length ≤
      client.limits.maxIndexUncompressedBytes.toNat)
    (hmanifest : (IndexCodec.toVec X (rootManifest X now root blob).toJson).length ≤
      client.limits.maxManifestBytes.toNat)
    (htag : Str.startsWith (archTag tag root.system) "sha256:" = false)
    (hlookup : registry.lookup (archTag tag root.system) =
      some (IndexCodec.toVec X (rootManifest X now root blob).toJson))
    (hstored : registry.blobs (digestOf X.toCrates blob) = some blob) :
    registry.read X (getShardedRoot X client tag root.system) =
      .ok (some (root, digestOf X.toCrates
        (IndexCodec.toVec X (rootManifest X now root blob).toJson))) := by
  have himage : registry.read X (getImageManifest X client (archTag tag root.system)) =
      .ok (some (rootManifest X now root blob, digestOf X.toCrates
        (IndexCodec.toVec X (rootManifest X now root blob).toJson))) := by
    refine read_getImageManifest_some.mpr
      ⟨X.jsonText (rootManifest X now root blob).toJson, hlookup, rfl, ?_, hmanifest, ?_,
        validateFor_rootManifest hfits⟩
    · intro hleading
      rw [htag] at hleading
      cases hleading
    · change IndexCodec.decodeJson X OciImageManifest.fromJson (IndexCodec.toVec X _) = _
      rw [IndexCodec.decodeJson_toVec (laws.manifest _), OciImageManifest.fromJson_toJson]
      rfl
  exact read_getShardedRoot_tag himage (read_decodeRootManifest.mpr
    ⟨blob, hstored, isRootOf_rootManifest laws haccepted hroots hblob hfits htext⟩)

end Root

end NixCache.Oci
