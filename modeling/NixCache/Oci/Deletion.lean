import NixCache.Oci.Tags
/-!
# What a deletion asks for and reports

The types of `nixcache-oci/src/client/deletion.rs`, the capabilities of the backends that deletion
depends on, and the errors that only a deletion raises.
-/

namespace NixCache.Oci

open NixCache.Lib NixCache.Lib.Result NixCache.Core

/-! ## Backends -/

inductive RegistryDeletionStrategy where
  | gitHubPackagesRestApi
  | dockerHubRestApi
  | awsEcrApi
  | standardOciDelete
  | unsupported
deriving DecidableEq, Repr

/-- `Debug`. -/
def RegistryDeletionStrategy.debug : RegistryDeletionStrategy → String
  | gitHubPackagesRestApi => "GitHubPackagesRestApi"
  | dockerHubRestApi => "DockerHubRestApi"
  | awsEcrApi => "AwsEcrApi"
  | standardOciDelete => "StandardOciDelete"
  | unsupported => "Unsupported"

inductive PackageDeletionSupport where
  | nativeComplete
  | taggedGraphOnly
  | unsupported
deriving DecidableEq, Repr

namespace RegistryKind

/-- `RegistryCapabilities::deletion_strategy`. -/
def deletionStrategy : RegistryKind → RegistryDeletionStrategy
  | ghcr => .gitHubPackagesRestApi
  | dockerHub => .dockerHubRestApi
  | awsEcr => .awsEcrApi
  | gcpArtifactRegistry | azureAcr | genericOci => .standardOciDelete

/-- `RegistryCapabilities::package_deletion_support`. -/
def packageDeletionSupport : RegistryKind → PackageDeletionSupport
  | ghcr => .nativeComplete
  | dockerHub | awsEcr => .unsupported
  | gcpArtifactRegistry | azureAcr | genericOci => .taggedGraphOnly

end RegistryKind

/-! ## Status lines -/

/-- `StatusCode::canonical_reason`. -/
def canonicalReasons : List (StatusCode × String) :=
  [(100, "Continue"), (101, "Switching Protocols"), (102, "Processing"), (200, "OK"),
    (201, "Created"), (202, "Accepted"), (203, "Non Authoritative Information"),
    (204, "No Content"), (205, "Reset Content"), (206, "Partial Content"), (207, "Multi-Status"),
    (208, "Already Reported"), (226, "IM Used"), (300, "Multiple Choices"),
    (301, "Moved Permanently"), (302, "Found"), (303, "See Other"), (304, "Not Modified"),
    (305, "Use Proxy"), (307, "Temporary Redirect"), (308, "Permanent Redirect"),
    (400, "Bad Request"), (401, "Unauthorized"), (402, "Payment Required"), (403, "Forbidden"),
    (404, "Not Found"), (405, "Method Not Allowed"), (406, "Not Acceptable"),
    (407, "Proxy Authentication Required"), (408, "Request Timeout"), (409, "Conflict"),
    (410, "Gone"), (411, "Length Required"), (412, "Precondition Failed"),
    (413, "Payload Too Large"), (414, "URI Too Long"), (415, "Unsupported Media Type"),
    (416, "Range Not Satisfiable"), (417, "Expectation Failed"), (418, "I'm a teapot"),
    (421, "Misdirected Request"), (422, "Unprocessable Entity"), (423, "Locked"),
    (424, "Failed Dependency"), (425, "Too Early"), (426, "Upgrade Required"),
    (428, "Precondition Required"), (429, "Too Many Requests"),
    (431, "Request Header Fields Too Large"), (451, "Unavailable For Legal Reasons"),
    (500, "Internal Server Error"), (501, "Not Implemented"), (502, "Bad Gateway"),
    (503, "Service Unavailable"), (504, "Gateway Timeout"), (505, "HTTP Version Not Supported"),
    (506, "Variant Also Negotiates"), (507, "Insufficient Storage"), (508, "Loop Detected"),
    (510, "Not Extended"), (511, "Network Authentication Required")]

/-- `Display` of a status. -/
def statusText (status : StatusCode) : String :=
  toString status ++ " " ++ (canonicalReasons.lookup status).getD "<unknown status code>"

/-! ## Requests -/

/-- The requests to the GitHub API, under the route of an organisation or of a user. -/
inductive PackagesRequest where
  | listVersions (isOrg : Bool) (page : Nat)
  | deleteVersion (isOrg : Bool) (versionId : UInt64)
  | deletePackage (isOrg : Bool)
deriving DecidableEq

/-- The requests of a deletion: those of a listing and of the client, and its own. -/
inductive DeletionRequest where
  | tags (request : TagRequest)
  | packages (request : PackagesRequest)
  | deleteManifest (reference : String)
  | headManifest (reference : String)
deriving DecidableEq

/-- A request of the client. -/
def DeletionRequest.client (request : Request) : DeletionRequest := .tags (.other request)

/-! ## Errors -/

/-- The `details` of a `DeletionDiscoveryFailed`: the text of an error, or a text of its own. -/
inductive DiscoveryDetails where
  | text (details : String)
  | oci (error : OciError)
  | core (error : CoreError)
  | json (error : JsonError)
deriving DecidableEq

/-- `OciError` with the variants that deletion adds. -/
inductive DeletionError where
  | oci (error : OciError)
  | pagination (error : PaginationFailed)
  | discoveryFailed (stage target : String) (details : DiscoveryDetails)
  | objectLimitExceeded (target : String)
  /-- The number of the next page does not fit the `i32` that counts them. -/
  | pageOverflow
deriving DecidableEq

/-- A deletion in progress. -/
abbrev Deletion := Action DeletionRequest Reply DeletionError

/-- An exchange of the client, with its error as it is. -/
def liftExchange {α : Type} (exchange : Exchange α) : Deletion α :=
  Action.mapErr .oci (Action.embed DeletionRequest.client exchange)

/-! ## Results -/

/-- `BlobDeletionTarget`. -/
structure BlobDeletionTarget where
  digest : NarDigest
  size : UInt64
deriving DecidableEq

/-- `ManifestDeletionOutcome`. -/
inductive ManifestDeletionOutcome where
  | deleted
  | alreadyAbsent
deriving DecidableEq, Repr

inductive BlobDeletionOutcome where
  | deleted (bytes : UInt64)
  | alreadyAbsent
deriving DecidableEq, Repr

inductive DeletionObjectType where
  | manifest
  | blob
  | tag
deriving DecidableEq, Repr

inductive DeletionFailureKind where
  | permissionDenied
  | notSupported
  | httpStatus
  | transport
  | verification
  | other
deriving DecidableEq, Repr

/-- The `details` of a `DeletionFailure`: the text of an error, or a text of its own. -/
inductive FailureDetails where
  | text (details : String)
  | error (error : DeletionError)
deriving DecidableEq

structure DeletionFailure where
  digest : String
  objectType : DeletionObjectType
  kind : DeletionFailureKind
  details : FailureDetails
deriving DecidableEq

/-- `deletion_failure`. -/
def deletionFailure (digest : String) (objectType : DeletionObjectType) (error : DeletionError) :
    DeletionFailure where
  digest := digest
  objectType := objectType
  kind :=
    match error with
    | .oci (.insufficientPermission _ _ _) => .permissionDenied
    | .oci (.operationNotSupported _ _ _) => .notSupported
    | .oci (.deletionFailed _ _ _) | .oci (.blobCheckFailed _) | .oci (.blobUploadFailed _)
    | .oci (.manifestFetchFailed _) | .oci (.manifestPushFailed _) => .httpStatus
    | .oci (.transport _) => .transport
    | .oci (.deletionVerificationFailed _ _) => .verification
    | _ => .other
  details := .error error

inductive PackageDeletionScope where
  | tagReachableGraph
  | nativePackageApi
deriving DecidableEq, Repr

structure PackageDeletionSummary where
  scope : PackageDeletionScope := .tagReachableGraph
  countsKnown : Bool := true
  tagsDiscovered : Nat := 0
  manifestsDiscovered : Nat := 0
  blobsDiscovered : Nat := 0
  manifestsDeleted : Nat := 0
  blobsDeleted : Nat := 0
  manifestsAlreadyAbsent : Nat := 0
  blobsAlreadyAbsent : Nat := 0
  deletedBlobBytes : Nat := 0
  failures : List DeletionFailure := []
  complete : Bool := true
deriving DecidableEq

end NixCache.Oci
