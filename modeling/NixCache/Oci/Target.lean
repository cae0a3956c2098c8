import NixCache.Lib.Text
import NixCache.Oci.Token
import NixCache.Oci.Upload
/-!
# What a request is sent to

`client/endpoint.rs`, the names that `format_auth_scope` and `GitHubPackagesClient` of
`backend/ghcr.rs` give the package of a client, and the URL of each request.
-/

namespace NixCache.Oci

open NixCache.Lib NixCache.Core
open Tokens (TokenManager)

def withDigest (url digest : String) : String :=
  url ++ (if Str.containsChar url '?' then "&" else "?") ++ "digest=" ++ digest

namespace OciClient

def uploadUrl (client : OciClient) : String :=
  client.endpoint.apiUrl ("/v2/" ++ client.repo ++ "/nix-cache/blobs/uploads/")

def tagsUrl (client : OciClient) : String :=
  client.endpoint.apiUrl ("/v2/" ++ client.repo ++ "/nix-cache/tags/list")

end OciClient

/-- The URL of a request.  A token is fetched from the realm of the challenge, without a bearer. -/
def Request.url (client : OciClient) : Request → Option String
  | .getManifest reference => some (client.manifestUrl reference)
  | .putManifest reference _ _ _ => some (client.manifestUrl reference)
  | .headBlob digest => some (client.blobUrl digest)
  | .getBlob digest => some (client.blobUrl digest)
  | .deleteBlob digest => some (client.blobUrl digest)
  | .postUpload => some client.uploadUrl
  | .postBlob digest _ => some (withDigest client.uploadUrl digest)
  | .putUpload sessionUrl digest _ => some (withDigest sessionUrl digest)
  | .deleteUpload sessionUrl => some sessionUrl
  | .refreshToken _ => none

def UploadRequest.url (client : OciClient) : UploadRequest → Option String
  | .other request => request.url client
  | .readBody _ => none
  | .patchChunk sessionUrl _ _ => some sessionUrl
  | .probe sessionUrl => some sessionUrl
  | .putFinish sessionUrl digest => some (withDigest sessionUrl digest)

/-- The upload session that a request names.  The other requests name a resource of the client. -/
def Request.sessionUrl : Request → Option String
  | .putUpload sessionUrl _ _ => some sessionUrl
  | .deleteUpload sessionUrl => some sessionUrl
  | _ => none

def UploadRequest.sessionUrl : UploadRequest → Option String
  | .other request => request.sessionUrl
  | .readBody _ => none
  | .patchChunk sessionUrl _ _ => some sessionUrl
  | .probe sessionUrl => some sessionUrl
  | .putFinish sessionUrl _ => some sessionUrl

/-! ## GitHub Packages -/

/-- The part of `GitHubPackagesClient` that names the package. -/
structure GitHubPackagesClient where
  owner : String
  packageName : String
deriving DecidableEq, Repr

namespace GitHubPackagesClient

def new (repoPath : String) : GitHubPackagesClient :=
  let clean := Str.trimMatches repoPath '/'
  match Str.splitOnce clean '/' with
  | some (owner, rest) =>
      let target :=
        if Str.endsWith rest "/nix-cache" ∨ rest = "nix-cache" then rest
        else rest ++ "/nix-cache"
      ⟨owner, Str.replaceChar target '/' "%2F"⟩
  | none => ⟨clean, "nix-cache"⟩

def formatUrl (packages : GitHubPackagesClient) (isOrg : Bool) (endpointSuffix : String) : String :=
  let suffix :=
    if Str.isEmpty endpointSuffix ∨ Str.startsWith endpointSuffix "/" ∨
        Str.startsWith endpointSuffix "?" then endpointSuffix
    else "/" ++ endpointSuffix
  "https://api.github.com/" ++ (if isOrg then "orgs" else "users") ++ "/" ++ packages.owner ++
    "/packages/container/" ++ packages.packageName ++ suffix

end GitHubPackagesClient

end NixCache.Oci
