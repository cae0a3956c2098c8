import NixCache.Oci.Deletion
/-!
# GitHub Packages

`nixcache-oci/src/backend/ghcr.rs`: versions of a container package are listed and deleted through
`api.github.com`, under the route of an organisation or that of a user.  A token that GitHub refuses
is not exchanged for another one.
-/

namespace NixCache.Oci

open NixCache.Lib NixCache.Lib.Result NixCache.Core
open Json (record field optionField text u64 list)

/-! ## Versions -/

structure GitHubContainerMetadata where
  tags : List String
deriving DecidableEq

structure GitHubPackageVersionMetadata where
  container : Option GitHubContainerMetadata
deriving DecidableEq

structure GitHubPackageVersion where
  id : UInt64
  name : String
  metadata : Option GitHubPackageVersionMetadata
deriving DecidableEq

/-- A field with `#[serde(default)]`. -/
def defaultField {α : Type} (fields : String → Option Json) (name : String) (default : α)
    (decode : Json.Decoder α) : Except JsonError α :=
  match fields name with
  | some json => decode json
  | none => .ok default

def GitHubContainerMetadata.fromJson (json : Json) : Except JsonError GitHubContainerMetadata := do
  let fields ← record ["tags"] json
  let tags ← defaultField fields "tags" [] (list text)
  pure ⟨tags⟩

def GitHubPackageVersionMetadata.fromJson (json : Json) :
    Except JsonError GitHubPackageVersionMetadata := do
  let fields ← record ["container"] json
  let container ← optionField fields "container" GitHubContainerMetadata.fromJson
  pure ⟨container⟩

namespace GitHubPackageVersion

def fromJson (json : Json) : Except JsonError GitHubPackageVersion := do
  let fields ← record ["id", "name", "metadata"] json
  let id ← field fields "id" u64
  let name ← defaultField fields "name" "" text
  let metadata ← optionField fields "metadata" GitHubPackageVersionMetadata.fromJson
  pure ⟨id, name, metadata⟩

/-- The tags of a version, when it says what it contains. -/
def tags (version : GitHubPackageVersion) : List String :=
  ((version.metadata.bind fun metadata => metadata.container).map fun container =>
    container.tags).getD []

end GitHubPackageVersion

/-! ## Requests -/

/-- `owner_type`: whether the owner is known to be an organisation or a user. -/
inductive OwnerType where
  | unknown
  | orgs
  | users
deriving DecidableEq, Repr

/-- The type that a route which answered stands for. -/
def OwnerType.ofRoute (isOrg : Bool) : OwnerType := if isOrg then .orgs else .users

/-- What is known of the owner after a route has answered. -/
def OwnerType.learn (cached : OwnerType) (isOrg : Bool) : OwnerType :=
  if cached = .unknown then .ofRoute isOrg else cached

abbrev PackagesExchange := Action PackagesRequest Reply DeletionError

namespace GitHubPackagesClient

def maxGithubApiResponseBytes : UInt64 := 4194304

/-- The URL of a request. -/
def url (packages : GitHubPackagesClient) : PackagesRequest → String
  | .listVersions isOrg page =>
      packages.formatUrl isOrg ("/versions?per_page=100&page=" ++ toString page)
  | .deleteVersion isOrg versionId =>
      packages.formatUrl isOrg ("/versions/" ++ toString versionId.toNat)
  | .deletePackage isOrg => packages.formatUrl isOrg ""

def handleStatusError (packages : GitHubPackagesClient) (action : String) (status : StatusCode)
    (body : Bytes) : DeletionError :=
  let details := Str.trim ((Str.fromUtf8 body).getD "<invalid utf-8>")
  let target := packages.owner ++ "/" ++ packages.packageName
  if status = 403 ∨ status = 401 then
    .oci (.insufficientPermission target "delete:packages"
      ("HTTP " ++ statusText status ++ " when performing " ++ action ++ " on GHCR: " ++ details ++
        ". Remedy: Ensure your token has 'delete:packages' (PAT) or 'packages: write' (GitHub " ++
        "Actions) permissions."))
  else
    .oci (.deletionFailed target status
      ("HTTP " ++ statusText status ++ " during " ++ action ++ ": " ++ details))

section

variable (X : OciCrates) (packages : GitHubPackagesClient)

/-- `transport.get`. -/
def get (request : PackagesRequest) : PackagesExchange Fetched := do
  let reply ← Action.request request
  Action.ofExcept <| mapErr .oci <|
    readReply (collectBody (packages.url request) maxGithubApiResponseBytes) reply

/-- `transport.delete`. -/
def delete (request : PackagesRequest) : PackagesExchange StatusCode := do
  let reply ← Action.request request
  let fetched ← Action.ofExcept (mapErr .oci (readReply (fun _ => .ok []) reply))
  pure fetched.status

/-! ## Listing -/

/-- The body of a page and the route that served it, or `none` when both routes deny that there is
such a page. -/
def getPage (cached : OwnerType) (page : Nat) : PackagesExchange (Option (Bytes × Bool)) := do
  let isOrg : Bool := cached ≠ .users
  let first ← get packages (.listVersions isOrg page)
  if isSuccess first.status then pure (some (first.body, isOrg))
  else if first.status = 404 ∧ cached = .unknown then do
    let second ← get packages (.listVersions false page)
    if isSuccess second.status then pure (some (second.body, false))
    else if second.status = 404 then pure none
    else Action.ofExcept (.error
      (packages.handleStatusError "list package versions" second.status second.body))
  else if first.status = 404 then pure none
  else Action.ofExcept (.error
    (packages.handleStatusError "list package versions" first.status first.body))

/-- `serde_json::from_slice`. -/
def readVersions (body : Bytes) : Except DeletionError (List GitHubPackageVersion) :=
  mapErr .oci (IndexCodec.decodeJson X (list GitHubPackageVersion.fromJson) body)

/-- What the listing returns when there is no next page. -/
def endOfVersions (allVersions : List GitHubPackageVersion) :
    Except DeletionError (List GitHubPackageVersion) := do
  ensure (allVersions = [])
    (.discoveryFailed "ghcr_versions" packages.packageName
      (.text "GHCR returned 404 after a partial version listing"))
  pure []

/-- The loop, with the number of pages that the page counter has left.  The owner type that the
loop goes by is the one from before the first page. -/
def listFrom (cached : OwnerType) : Nat → (page : Nat) → (ownerType : OwnerType) →
    List GitHubPackageVersion → PackagesExchange (List GitHubPackageVersion × OwnerType)
  | 0, _, _, _ => Action.ofExcept (.error .pageOverflow)
  | remaining + 1, page, ownerType, allVersions => do
      match ← getPage packages cached page with
      | none => do
          let versions ← Action.ofExcept (endOfVersions packages allVersions)
          pure (versions, ownerType)
      | some (body, isOrg) => do
          let versions ← Action.ofExcept (readVersions X body)
          let allVersions := allVersions ++ versions
          let ownerType := cached.learn isOrg
          if versions.length < 100 then pure (allVersions, ownerType)
          else listFrom cached remaining (page + 1) ownerType allVersions

/-- The number of pages that an `i32` counts. -/
def maxPages : Nat := 2147483647

def listPackageVersions (ownerType : OwnerType) :
    PackagesExchange (List GitHubPackageVersion × OwnerType) :=
  listFrom X packages ownerType maxPages 1 ownerType []

/-! ## Deleting -/

/-- `find_version_id_by_tag`, once the versions are listed. -/
def findVersionId (versions : List GitHubPackageVersion) (tag : String) : Option UInt64 :=
  (versions.find? fun version => tag ∈ version.tags).map GitHubPackageVersion.id

def isDeleted (status : StatusCode) : Bool := status = 204 ∨ status = 200 ∨ status = 202

/-- A deletion under the route of the owner: the common part of `delete_package_version` and
`delete_entire_package`. -/
def deleteUnderRoute (action : String) (request : Bool → PackagesRequest) (cached : OwnerType) :
    PackagesExchange OwnerType := do
  let isOrg : Bool := cached ≠ .users
  let first ← delete (request isOrg)
  if isDeleted first then pure (cached.learn isOrg)
  else if first = 404 ∧ cached = .unknown then do
    let second ← delete (request false)
    if isDeleted second ∨ second = 404 then pure .users
    else Action.ofExcept (.error (packages.handleStatusError action second []))
  else if first = 404 then pure cached
  else Action.ofExcept (.error (packages.handleStatusError action first []))

def deletePackageVersion (ownerType : OwnerType) (versionId : UInt64) :
    PackagesExchange OwnerType :=
  deleteUnderRoute packages "delete package version" (fun isOrg => .deleteVersion isOrg versionId)
    ownerType

/-- `delete_by_tag` of a new client. -/
def deleteByTag (tag : String) : PackagesExchange Unit := do
  let (versions, ownerType) ← listPackageVersions X packages .unknown
  match findVersionId versions tag with
  | some versionId => do
      let _ ← deletePackageVersion packages ownerType versionId
      pure ()
  | none => pure ()

/-- `delete_entire_package` of a new client. -/
def deleteEntirePackage : PackagesExchange Unit := do
  let _ ← deleteUnderRoute packages "delete package" .deletePackage .unknown
  pure ()

end

end GitHubPackagesClient

end NixCache.Oci
