import NixCache.Core.Wire
import NixCache.Oci.Endpoint
/-!
# Registry backends, read limits and errors

`nixcache-oci/src/backend/kind.rs`, `backend/driver.rs`, `limits.rs` and `error.rs`.  The six drivers
differ only in their kind, so a driver is its kind.  `str::to_lowercase` is a parameter.
-/

namespace NixCache.Oci

open NixCache.Lib NixCache.Lib.Result NixCache.Core

/-! ## Kinds and capabilities -/

inductive RegistryKind where
  | ghcr
  | dockerHub
  | awsEcr
  | gcpArtifactRegistry
  | azureAcr
  | genericOci
deriving DecidableEq, Repr

inductive BlobUploadStrategy where
  | fixedTwoStepPut
  | preferMonolithicPost
  | resumableChunkedPatch
deriving DecidableEq, Repr

inductive ManifestCasSupport where
  | ifMatch
  | unsupported
deriving DecidableEq, Repr

/-- `RegistryCapabilities`, without the fields that no function modelled here reads. -/
structure RegistryCapabilities where
  manifestCasSupport : ManifestCasSupport
  fixedUploadStrategy : BlobUploadStrategy
  supportsBlobPhysicalDeletion : Bool
deriving DecidableEq, Repr

namespace RegistryKind

/-- `Display`. -/
def text : RegistryKind → String
  | ghcr => "ghcr"
  | dockerHub => "docker_hub"
  | awsEcr => "aws_ecr"
  | gcpArtifactRegistry => "gcp_artifact_registry"
  | azureAcr => "azure_acr"
  | genericOci => "generic_oci"

def capabilities : RegistryKind → RegistryCapabilities
  | ghcr => ⟨.unsupported, .fixedTwoStepPut, false⟩
  | dockerHub => ⟨.ifMatch, .preferMonolithicPost, false⟩
  | awsEcr => ⟨.unsupported, .preferMonolithicPost, false⟩
  | gcpArtifactRegistry => ⟨.ifMatch, .preferMonolithicPost, true⟩
  | azureAcr => ⟨.ifMatch, .preferMonolithicPost, true⟩
  | genericOci => ⟨.unsupported, .resumableChunkedPatch, true⟩

/-- The kind of a host. -/
def ofHost (host : String) : RegistryKind :=
  if host = "ghcr.io" then ghcr
  else if host = "docker.io" ∨ host = "index.docker.io" ∨ host = "registry-1.docker.io" then
    dockerHub
  else if Str.containsStr host ".dkr.ecr." ∧ Str.endsWith host ".amazonaws.com" then awsEcr
  else if Str.endsWith host "-docker.pkg.dev" ∨ host = "gcr.io" then gcpArtifactRegistry
  else if Str.endsWith host ".azurecr.io" then azureAcr
  else genericOci

/-- `RegistryKind::detect`. -/
def detect (parseUri : String → Except String Uri) (registry : String) : RegistryKind :=
  match RegistryEndpoint.parse parseUri registry with
  | .ok endpoint => ofHost endpoint.host
  | .error _ => genericOci

/-- What a blank registry stands for; the other drivers have no default. -/
def registryOrDefault (kind : RegistryKind) (registry : String) : String :=
  match kind with
  | ghcr => if Str.isEmpty (Str.trim registry) then "ghcr.io" else registry
  | dockerHub => if Str.isEmpty (Str.trim registry) then "registry-1.docker.io" else registry
  | _ => registry

def canonicalizeEndpoint (parseUri : String → Except String Uri) (kind : RegistryKind)
    (registry : String) : Except RegistryEndpointError RegistryEndpoint := do
  let endpoint ← RegistryEndpoint.parse parseUri (kind.registryOrDefault registry)
  if kind = dockerHub ∧ (endpoint.host = "docker.io" ∨ endpoint.host = "index.docker.io") then
    pure (endpoint.replaceHost "registry-1.docker.io")
  else pure endpoint

def canonicalizeRepository (toLowercase : String → String) (kind : RegistryKind) (repo : String) :
    String :=
  let trimmed := Str.trimMatches repo '/'
  match kind with
  | genericOci => trimmed
  | dockerHub =>
      let clean := toLowercase trimmed
      if Str.containsChar clean '/' then clean else "library/" ++ clean
  | _ => toLowercase trimmed

end RegistryKind

/-! ## Read limits -/

structure OciReadLimits where
  maxManifestBytes : UInt64 := 4194304
  maxBufferedBlobBytes : UInt64 := 67108864
  maxStreamedBlobBytes : UInt64 := 17179869184
  maxIndexUncompressedBytes : UInt64 := 67108864
  maxImageIndexDescriptors : UInt64 := 1024
  maxManifestLayers : UInt64 := 16
  maxShardEntries : UInt64 := 500000
  maxGcRoots : UInt64 := 500000
  maxParallelIndexReads : UInt64 := 16
deriving DecidableEq, Repr

inductive ReadLimitsError where
  | zero (field : String)
deriving DecidableEq, Repr

namespace OciReadLimits

/-- `validate`; on a 64-bit platform every limit fits a `usize`. -/
def validate (limits : OciReadLimits) : Except ReadLimitsError Unit :=
  checkAll (fun item => ensure (item.2 ≠ 0) (.zero item.1))
    [("max_manifest_bytes", limits.maxManifestBytes),
      ("max_buffered_blob_bytes", limits.maxBufferedBlobBytes),
      ("max_index_uncompressed_bytes", limits.maxIndexUncompressedBytes),
      ("max_image_index_descriptors", limits.maxImageIndexDescriptors),
      ("max_manifest_layers", limits.maxManifestLayers),
      ("max_shard_entries", limits.maxShardEntries),
      ("max_gc_roots", limits.maxGcRoots),
      ("max_parallel_index_reads", limits.maxParallelIndexReads),
      ("max_streamed_blob_bytes", limits.maxStreamedBlobBytes)]

/-- `impl IndexValidationLimits for OciReadLimits`. -/
def indexLimits (limits : OciReadLimits) : IndexLimits :=
  ⟨limits.maxShardEntries, limits.maxGcRoots, limits.maxIndexUncompressedBytes,
    limits.maxStreamedBlobBytes⟩

theorem validate_default : validate {} = .ok () := by decide

end OciReadLimits

/-! ## Errors -/

abbrev Bytes := List UInt8

/-- `http::StatusCode`. -/
abbrev StatusCode := Nat

def isSuccess (status : StatusCode) : Bool := 200 ≤ status ∧ status < 300

inductive TransportError where
  | io (message : String)
  | httpStatus (status : StatusCode) (message : Option String)
  | connectionFailed (endpoint message : String)
  | timeout (milliseconds : Nat)
  | invalidUri (url reason : String)
  | headerParse (header : String)
  | responseTooLarge (url : String) (limit actual : Nat)
deriving DecidableEq, Repr

inductive TokenError where
  | tokenMissingInBody
  | flightFailed
  | exchangeFailed (realm : String) (status : StatusCode)
  | invalidResponse (realm details : String)
deriving DecidableEq, Repr

inductive CompressionError where
  | zstdCompress (code : Nat)
  | zstdDecompress (code : Nat)
  | invalidMagic (found : UInt32)
  | emptyBuffer
  | outputLimitExceeded (limit actual : Nat)
  | io (message : String)
deriving DecidableEq, Repr

/-- `OciError`, without the variants that no function modelled here raises. -/
inductive OciError where
  | invalidEndpoint (error : RegistryEndpointError)
  | digestMismatch (target expected actual : String)
  | headerDigestMismatch (target header expected : String)
  | invalidDescriptor (target details : String)
  | sizeMismatch (target : String) (expected actual : Nat)
  | sizeLimitExceeded (target : String) (limit actual : Nat)
  | authChallengeInvalid (details : String)
  | authenticationFailed (operation : String) (status : StatusCode) (details : String)
  | deletionVerificationFailed (target details : String)
  | operationNotSupported (operation : String) (backend : RegistryKind) (reason : String)
  | deletionFailed (target : String) (status : StatusCode) (details : String)
  | insufficientPermission (target requiredScope details : String)
  | blobNotFound (digest : String)
  | blobCheckFailed (status : StatusCode)
  | blobUploadFailed (status : StatusCode)
  | blobDownloadFailed (status : StatusCode)
  | manifestPushFailed (status : StatusCode)
  | manifestFetchFailed (status : StatusCode)
  | casPreconditionFailed (tag : String) (expected actual : Option String)
  | casUnsupported (tag : String) (backend : RegistryKind)
  | uploadLocationMissing
  | uploadDigestUnavailable
  | uploadRangeInvalid (details : String)
  | resumableUploadFailed (attempts : Nat) (source : OciError)
  | subManifestMissing (digest : String)
  | layerDescriptorMissing
  | unsupportedMediaType (mediaType : String)
  | invalidUtf8Manifest
  | token (error : TokenError)
  | transport (error : TransportError)
  | compression (error : CompressionError)
  | core (error : CoreError)
  | json (error : JsonError)
deriving DecidableEq, Repr

namespace OciError

/-- `From<TransportError>`. -/
def ofTransport : TransportError → OciError
  | .responseTooLarge url limit actual => sizeLimitExceeded url limit actual
  | error => transport error

end OciError

/-- `?` on a `Result<_, CoreError>`. -/
def liftCore {α : Type} : Except CoreError α → Except OciError α := mapErr .core

/-- `?` on a `Result<_, serde_json::Error>`. -/
def liftJson {α : Type} : Except JsonError α → Except OciError α := mapErr .json

end NixCache.Oci
