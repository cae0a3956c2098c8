import NixCache.Oci.Codec
/-!
# OCI manifests

`nixcache-oci/src/manifest.rs`, with the wire format that `serde` derives for its types.
`chrono::Utc::now` is an argument, already formatted.
-/

namespace NixCache.Oci

open NixCache.Lib NixCache.Lib.Result NixCache.Lib.Json NixCache.Core

def ociImageManifestMediaType : String := "application/vnd.oci.image.manifest.v1+json"

def ociImageIndexMediaType : String := "application/vnd.oci.image.index.v1+json"

def ociImageConfigMediaType : String := "application/vnd.oci.image.config.v1+json"

/-- The digest of the document without fields. -/
def emptyConfigDigest : String :=
  "sha256:44136fa355b3678a1146ad16f7e8649e94fb4fc21fe77e8310c060f61caaff8a"

def emptyConfigSize : UInt64 := 2

def systemKey : String := "org.nixos.nixcache.system"

def merkleRootKey : String := "org.nixos.nixcache.merkle_root"

def schemaKey : String := "org.nixos.nixcache.schema"

/-- `HashMap<String, String>`. -/
abbrev Annotations := HashMap String String

namespace Annotations

def toJson : Annotations → Json := ofMap id .str

def fromJson : Decoder Annotations := Json.map .ok text

end Annotations

/-! ## Platforms and descriptors -/

@[ext] structure OciPlatform where
  architecture : String
  os : String
  variant : Option String
  osFeatures : List String
deriving DecidableEq, Repr

namespace OciPlatform

def fromSystem (system : SystemArch) : OciPlatform :=
  let (os, arch, variant) := system.toOciPlatformTuple
  ⟨arch, os, variant, []⟩

def toSystem (platform : OciPlatform) : SystemArch :=
  SystemArch.fromOci platform.os platform.architecture platform.variant

def toJson (platform : OciPlatform) : Json :=
  .obj
    [("architecture", .str platform.architecture),
      ("os", .str platform.os),
      ("variant", ofOption .str platform.variant),
      ("os.features", .arr (platform.osFeatures.map .str))]

def fromJson (json : Json) : Except JsonError OciPlatform := do
  let fields ← record ["architecture", "os", "variant", "os.features"] json
  let architecture ← field fields "architecture" text
  let os ← field fields "os" text
  let variant ← optionField fields "variant" text
  let osFeatures ← field fields "os.features" (list text)
  pure ⟨architecture, os, variant, osFeatures⟩

end OciPlatform

structure OciDescriptor where
  mediaType : String
  digest : String
  size : UInt64
  platform : Option OciPlatform
  annotations : Option Annotations

namespace OciDescriptor

def validateFor (descriptor : OciDescriptor) (target : String) (maxSize : UInt64) :
    Except OciError Unit := do
  let _ ← mapErr
    (fun _ => OciError.invalidDescriptor target
      "descriptor digest is not a canonical SHA-256 digest")
    (ContentDigest.parse descriptor.digest)
  ensure (descriptor.size ≤ maxSize)
    (.sizeLimitExceeded target maxSize.toNat descriptor.size.toNat)
  ensure (¬ Str.isEmpty (Str.trim descriptor.mediaType))
    (.invalidDescriptor target "descriptor media type is empty")

/-- The system that the annotations name. -/
def annotationSystem (descriptor : OciDescriptor) : Option SystemArch :=
  (descriptor.annotations.bind fun annotations => annotations.lookup systemKey).map SystemArch.ofStr

def platformSystem (descriptor : OciDescriptor) : Option SystemArch :=
  descriptor.platform.map OciPlatform.toSystem

def toJson (descriptor : OciDescriptor) : Json :=
  .obj
    [("mediaType", .str descriptor.mediaType),
      ("digest", .str descriptor.digest),
      ("size", .int descriptor.size.toNat),
      ("platform", ofOption OciPlatform.toJson descriptor.platform),
      ("annotations", ofOption Annotations.toJson descriptor.annotations)]

def fromJson (json : Json) : Except JsonError OciDescriptor := do
  let fields ← record ["mediaType", "digest", "size", "platform", "annotations"] json
  let mediaType ← field fields "mediaType" text
  let digest ← field fields "digest" text
  let size ← field fields "size" u64
  let platform ← optionField fields "platform" OciPlatform.fromJson
  let annotations ← optionField fields "annotations" Annotations.fromJson
  pure ⟨mediaType, digest, size, platform, annotations⟩

end OciDescriptor

/-! ## Image indexes -/

structure OciImageIndex where
  schemaVersion : UInt32
  mediaType : String
  manifests : List OciDescriptor
  annotations : Option Annotations

namespace OciImageIndex

/-- The checks of one child, with the systems of the children before it. -/
def validateChild (limits : OciReadLimits) (target : String) (systems : List SystemArch)
    (descriptor : OciDescriptor) : Except OciError (List SystemArch) := do
  descriptor.validateFor target limits.maxManifestBytes
  ensure (descriptor.mediaType = ociImageManifestMediaType)
    (.invalidDescriptor descriptor.digest "image index child is not an OCI image manifest")
  let platformSystem := descriptor.platformSystem
  let annotationSystem := descriptor.annotationSystem
  ensure (¬ (platformSystem.any (fun system => !system.isKnown) ∨
      annotationSystem.any (fun system => !system.isKnown) ∨
      (∃ a ∈ platformSystem, ∃ b ∈ annotationSystem, a ≠ b)))
    (.invalidDescriptor descriptor.digest "descriptor platform is unknown or inconsistent")
  let system ← okOr
    (.invalidDescriptor descriptor.digest "image index child has no known platform")
    ((platformSystem.or annotationSystem).filter SystemArch.isKnown)
  ensure (system ∉ systems)
    (.invalidDescriptor descriptor.digest "image index contains duplicate platforms")
  pure (system :: systems)

def validateFor (index : OciImageIndex) (limits : OciReadLimits) (target : String) :
    Except OciError Unit := do
  ensure (index.schemaVersion = 2)
    (.invalidDescriptor target "image index schemaVersion must be 2")
  ensure (index.mediaType = ociImageIndexMediaType)
    (.invalidDescriptor target "image index mediaType is not the OCI image index type")
  ensure (index.manifests.length ≤ limits.maxImageIndexDescriptors.toNat)
    (.sizeLimitExceeded target limits.maxImageIndexDescriptors.toNat index.manifests.length)
  let _ ← foldM (validateChild limits target) [] index.manifests
  pure ()

/-- Whether a child is the manifest of `system`. -/
def isManifestFor (system : SystemArch) (descriptor : OciDescriptor) : Bool :=
  if descriptor.platform = some (OciPlatform.fromSystem system) then true
  else
    match descriptor.annotations.bind fun annotations => annotations.lookup systemKey with
    | some name => name = system.asStr
    | none => false

def findManifestForSystem (index : OciImageIndex) (system : SystemArch) : Option OciDescriptor :=
  index.manifests.find? (isManifestFor system)

def toJson (index : OciImageIndex) : Json :=
  .obj
    [("schemaVersion", .int index.schemaVersion.toNat),
      ("mediaType", .str index.mediaType),
      ("manifests", .arr (index.manifests.map OciDescriptor.toJson)),
      ("annotations", ofOption Annotations.toJson index.annotations)]

def fromJson (json : Json) : Except JsonError OciImageIndex := do
  let fields ← record ["schemaVersion", "mediaType", "manifests", "annotations"] json
  let schemaVersion ← field fields "schemaVersion" u32
  let mediaType ← field fields "mediaType" text
  let manifests ← field fields "manifests" (list OciDescriptor.fromJson)
  let annotations ← optionField fields "annotations" Annotations.fromJson
  pure ⟨schemaVersion, mediaType, manifests, annotations⟩

end OciImageIndex

/-! ## Image manifests -/

structure OciImageManifest where
  schemaVersion : UInt32
  mediaType : String
  config : OciDescriptor
  layers : List OciDescriptor
  annotations : Option Annotations

def validateV8Annotations (annotations : Annotations) (system : SystemArch)
    (merkleRoot target : String) : Except OciError Unit := do
  let annotationSystem :=
    ((annotations.lookup systemKey).map SystemArch.ofStr).filter SystemArch.isKnown
  ensure (annotationSystem = some system ∧ annotations.lookup schemaKey = some "8" ∧
      annotations.lookup merkleRootKey = some merkleRoot)
    (.invalidDescriptor target "Schema v8 annotations are missing or inconsistent")
  let _ ← mapErr
    (fun _ => OciError.invalidDescriptor target
      "Schema v8 merkle_root is not a canonical SHA-256 digest")
    (ContentDigest.parse merkleRoot)
  pure ()

namespace OciImageManifest

def validateFor (manifest : OciImageManifest) (limits : OciReadLimits) (target : String) :
    Except OciError Unit := do
  ensure (manifest.schemaVersion = 2)
    (.invalidDescriptor target "image manifest schemaVersion must be 2")
  ensure (manifest.mediaType = ociImageManifestMediaType)
    (.invalidDescriptor target "image manifest mediaType is not the OCI image manifest type")
  ensure (manifest.layers.length ≤ limits.maxManifestLayers.toNat)
    (.sizeLimitExceeded target limits.maxManifestLayers.toNat manifest.layers.length)
  manifest.config.validateFor target limits.maxBufferedBlobBytes
  ensure (manifest.config.mediaType = ociImageConfigMediaType)
    (.invalidDescriptor target "manifest config has an invalid media type")
  checkAll (fun layer => layer.validateFor target limits.maxBufferedBlobBytes) manifest.layers

def validateSchemaV8Root (manifest : OciImageManifest) (system : SystemArch) (merkleRoot : String)
    (limits : OciReadLimits) (target : String) : Except OciError OciDescriptor := do
  manifest.validateFor limits target
  match manifest.layers with
  | [layer] => do
      let annotations ← okOr
        (.invalidDescriptor target "Schema v8 root manifest annotations are missing")
        manifest.annotations
      validateV8Annotations annotations system merkleRoot target
      ensure (layer.mediaType = rootIndexV8Zstd) (.unsupportedMediaType layer.mediaType)
      ensure (layer.platformSystem = some system)
        (.invalidDescriptor layer.digest "root layer platform does not match requested system")
      let layerAnnotations ← okOr
        (.invalidDescriptor layer.digest "Schema v8 root layer annotations are missing")
        layer.annotations
      validateV8Annotations layerAnnotations system merkleRoot layer.digest
      pure layer
  | _ => .error .layerDescriptorMissing

def toJson (manifest : OciImageManifest) : Json :=
  .obj
    [("schemaVersion", .int manifest.schemaVersion.toNat),
      ("mediaType", .str manifest.mediaType),
      ("config", manifest.config.toJson),
      ("layers", .arr (manifest.layers.map OciDescriptor.toJson)),
      ("annotations", ofOption Annotations.toJson manifest.annotations)]

def fromJson (json : Json) : Except JsonError OciImageManifest := do
  let fields ← record ["schemaVersion", "mediaType", "config", "layers", "annotations"] json
  let schemaVersion ← field fields "schemaVersion" u32
  let mediaType ← field fields "mediaType" text
  let config ← field fields "config" OciDescriptor.fromJson
  let layers ← field fields "layers" (list OciDescriptor.fromJson)
  let annotations ← optionField fields "annotations" Annotations.fromJson
  pure ⟨schemaVersion, mediaType, config, layers, annotations⟩

end OciImageManifest

/-! ## Either of the two -/

inductive OciArtifactManifest where
  | index (value : OciImageIndex)
  | manifest (value : OciImageManifest)

namespace OciArtifactManifest

/-- `#[serde(untagged)]`: the first variant that decodes. -/
def fromJson (json : Json) : Except JsonError OciArtifactManifest :=
  match OciImageIndex.fromJson json with
  | .ok value => .ok (index value)
  | .error _ =>
      match OciImageManifest.fromJson json with
      | .ok value => .ok (manifest value)
      | .error _ => .error .noVariant

def asIndex : OciArtifactManifest → Option OciImageIndex
  | index value => some value
  | manifest _ => none

def validateFor (artifact : OciArtifactManifest) (limits : OciReadLimits) (target : String) :
    Except OciError Unit :=
  match artifact with
  | index value => value.validateFor limits target
  | manifest value => value.validateFor limits target

end OciArtifactManifest

/-! ## What the writers build -/

structure ShardedArchIndexManifestParams where
  rootBlobDigest : String
  rootBlobSize : UInt64
  configDigest : String
  configSize : UInt64
  system : SystemArch
  merkleRoot : String

def buildShardedArchIndexManifest (now : String) (params : ShardedArchIndexManifestParams) :
    OciImageManifest where
  schemaVersion := 2
  mediaType := ociImageManifestMediaType
  config := ⟨ociImageConfigMediaType, params.configDigest, params.configSize, none, none⟩
  layers :=
    [⟨rootIndexV8Zstd, params.rootBlobDigest, params.rootBlobSize,
      some (OciPlatform.fromSystem params.system),
      some (HashMap.ofList
        [(systemKey, params.system.asStr), (merkleRootKey, params.merkleRoot), (schemaKey, "8")])⟩]
  annotations :=
    some (HashMap.ofList
      [("org.opencontainers.image.created", now),
        ("org.opencontainers.image.description",
          "NixCache Sharded Merkle Baseline (" ++ params.system.asStr ++ ")"),
        (systemKey, params.system.asStr),
        (merkleRootKey, params.merkleRoot),
        (schemaKey, "8")])

def buildImageIndex (now : String) (manifestDescriptors : List OciDescriptor)
    (description : String) : OciImageIndex where
  schemaVersion := 2
  mediaType := ociImageIndexMediaType
  manifests := manifestDescriptors
  annotations :=
    some (HashMap.ofList
      [("org.opencontainers.image.created", now),
        ("org.opencontainers.image.description", description)])

end NixCache.Oci
