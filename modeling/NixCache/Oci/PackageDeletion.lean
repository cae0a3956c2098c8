import NixCache.Oci.Discovery
import NixCache.Oci.Download
/-!
# Deleting manifests, blobs, tags and packages

`nixcache-oci/src/client/deletion/operations.rs`.  A deletion of a whole package first discovers what
the tags reach, then deletes it object by object, and last looks whether anything is left.
-/

namespace NixCache.Oci

open NixCache.Lib NixCache.Lib.Result NixCache.Core

namespace DeletionClient

/-! ## Single objects -/

section

variable (X : OciCrates) (client : OciClient)

/-- A call of the transport for a request of its own. -/
def send (request : DeletionRequest) : Deletion Fetched := do
  let reply ← Action.request request
  Action.ofExcept (mapErr .oci (readReply (fun _ => .ok []) reply))

/-- `request_delete_with_auth_retry` and `request_head_with_auth_retry`. -/
def sendWithAuthRetry (operation : String) (request : DeletionRequest) : Deletion StatusCode := do
  let first ← send request
  if first.status ≠ 401 then pure first.status
  else do
    liftExchange (requestChallengeForResponse X operation first.headers)
    let second ← send request
    Action.ofExcept <| ensure (second.status ≠ 401)
      (.oci (.authenticationFailed operation second.status "Bearer challenge retry was rejected"))
    pure second.status

/-- How a registry answered the DELETE of an object: `true` when it was deleted, `false` when it was
absent.  The parts in which manifests and blobs differ are arguments. -/
def readDeletion (object target unsupported : String) (status : StatusCode) :
    Except OciError Bool :=
  if isSuccess status ∨ status = 202 ∨ status = 204 then .ok true
  else if status = 404 then .ok false
  else if status = 401 ∨ status = 403 then
    .error (.insufficientPermission target ("delete:" ++ object)
      ("HTTP " ++ statusText status ++ " from registry when deleting " ++ object ++ " " ++ target))
  else if status = 405 then
    .error (.operationNotSupported ("delete_" ++ object) client.kind unsupported)
  else
    .error (.deletionFailed target status
      ("HTTP " ++ statusText status ++ " when deleting " ++ object ++ " " ++ target))

def deleteManifestStrict (digest : String) : Deletion ManifestDeletionOutcome := do
  let status ← sendWithAuthRetry X "delete manifest" (.deleteManifest digest)
  let deleted ← Action.ofExcept <| mapErr .oci <| readDeletion client "manifest" digest
    ("Registry returned 405 Method Not Allowed for manifest deletion on " ++ digest ++
      ". Backend deletion strategy: " ++ client.kind.deletionStrategy.debug) status
  pure (if deleted then .deleted else .alreadyAbsent)

def deleteBlobStrict (target : BlobDeletionTarget) : Deletion BlobDeletionOutcome := do
  Action.ofExcept <| ensure client.capabilities.supportsBlobPhysicalDeletion
    (.oci (.operationNotSupported "delete_blob" client.kind
      ("Backend '" ++ client.kind.text ++ "' does not support standalone physical OCI blob " ++
        "deletion. Blobs are automatically reclaimed with package/version removal.")))
  let digest := target.digest.val
  let status ← sendWithAuthRetry X "delete blob" (.client (.deleteBlob digest))
  let deleted ← Action.ofExcept <| mapErr .oci <| readDeletion client "blob" digest
    ("Registry returned 405 Method Not Allowed for blob deletion " ++ digest) status
  pure (if deleted then .deleted target.size else .alreadyAbsent)

def verifyManifestAbsent (digest : String) : Deletion Unit := do
  let status ← sendWithAuthRetry X "verify manifest deletion" (.headManifest digest)
  if status = 404 then pure ()
  else if status = 200 then
    Action.ofExcept (.error (.oci (.deletionVerificationFailed digest
      "manifest is still present after DELETE")))
  else
    Action.ofExcept (.error (.oci (.deletionVerificationFailed digest
      ("manifest verification returned HTTP " ++ statusText status))))

/-! ## Tags -/

/-- The digest of the manifest that a tag names, or `none` when there is no such tag. -/
def readTagManifest (tag : String) (fetched : Fetched) : Except OciError (Option ContentDigest) :=
  if fetched.status = 404 then .ok none
  else do
    ensure (¬ (fetched.status = 401 ∨ fetched.status = 403))
      (.insufficientPermission tag "pull,delete:manifest"
        ("HTTP " ++ statusText fetched.status ++ " when checking manifest tag " ++ tag))
    ensure (isSuccess fetched.status)
      (.deletionFailed tag fetched.status
        ("HTTP " ++ statusText fetched.status ++ " when retrieving tag manifest " ++ tag))
    let contentLength ← mapErr .transport (parseContentLength fetched.headers)
    let digest ← verifyBufferedBody X.toCrates (client.manifestUrl tag) none
      (fetched.headers.get "docker-content-digest") none contentLength fetched.body
    pure (some digest)

def deleteTagStrict (tag : String) : Deletion Unit :=
  match client.kind.deletionStrategy with
  | .gitHubPackagesRestApi =>
      Action.embed DeletionRequest.packages <|
        GitHubPackagesClient.deleteByTag X (GitHubPackagesClient.new client.repo) tag
  | .standardOciDelete | .dockerHubRestApi | .awsEcrApi => do
      let fetched ← liftExchange <| requestGetWithAuthRetry X (client.manifestUrl tag)
        (.getManifest tag) "get tag manifest" client.limits.maxManifestBytes
      match ← Action.ofExcept (mapErr .oci (readTagManifest X client tag fetched)) with
      | none => pure ()
      | some digest => do
          let _ ← deleteManifestStrict X client digest.val
          let tagStatus ← sendWithAuthRetry X "delete tag" (.deleteManifest tag)
          Action.ofExcept <| ensure (tagStatus = 404 ∨ isSuccess tagStatus ∨ tagStatus = 202)
            (.oci (.deletionFailed tag tagStatus "registry rejected tag deletion"))
  | .unsupported =>
      Action.ofExcept (.error (.oci (.operationNotSupported "delete_tag" client.kind
        ("Registry backend '" ++ client.kind.text ++ "' does not support tag deletion"))))

end

/-! ## Summaries -/

end DeletionClient

namespace PackageDeletionSummary

def fail (summary : PackageDeletionSummary) (failure : DeletionFailure) : PackageDeletionSummary :=
  { summary with failures := summary.failures ++ [failure] }

/-- What the DELETE of a manifest adds to the summary. -/
def addManifest (summary : PackageDeletionSummary) (digest : String) :
    Except DeletionError ManifestDeletionOutcome → PackageDeletionSummary
  | .ok .deleted => { summary with manifestsDeleted := summary.manifestsDeleted + 1 }
  | .ok .alreadyAbsent =>
      { summary with manifestsAlreadyAbsent := summary.manifestsAlreadyAbsent + 1 }
  | .error error => summary.fail (deletionFailure digest .manifest error)

/-- What the DELETE of a blob adds to the summary. -/
def addBlob (summary : PackageDeletionSummary) (digest : String) :
    Except DeletionError BlobDeletionOutcome → PackageDeletionSummary
  | .ok (.deleted bytes) =>
      { summary with
        blobsDeleted := summary.blobsDeleted + 1
        deletedBlobBytes := saturatingAdd summary.deletedBlobBytes bytes.toNat }
  | .ok .alreadyAbsent => { summary with blobsAlreadyAbsent := summary.blobsAlreadyAbsent + 1 }
  | .error error => summary.fail (deletionFailure digest .blob error)

/-- What the listing of the remaining tags adds to the summary. -/
def addRemainingTags (summary : PackageDeletionSummary) (repo : String) :
    Except DeletionError (List String) → PackageDeletionSummary
  | .ok [] => summary
  | .ok remainingTags => summary.fail
      ⟨repo, .tag, .verification,
        .text (toString remainingTags.length ++ " tag(s) remain after deleting the discovered graph")⟩
  | .error error => summary.fail (deletionFailure repo .tag error)

/-- What the verification of a manifest adds to the summary. -/
def addManifestCheck (summary : PackageDeletionSummary) (digest : String) :
    Except DeletionError Unit → PackageDeletionSummary
  | .ok () => summary
  | .error error => summary.fail (deletionFailure digest .manifest error)

/-- What the verification of a blob adds to the summary. -/
def addBlobCheck (summary : PackageDeletionSummary) (digest : String) :
    Except DeletionError Bool → PackageDeletionSummary
  | .ok true => summary.fail
      ⟨digest, .blob, .verification, .text "blob is still present after DELETE"⟩
  | .ok false => summary
  | .error error => summary.fail (deletionFailure digest .blob error)

end PackageDeletionSummary

namespace DeletionClient

section

variable (X : OciCrates) (client : OciClient)

/-! ## Packages -/

/-- The DELETE of one manifest of the plan. -/
def deletePlannedManifest (summary : PackageDeletionSummary) (digest : String) :
    Deletion PackageDeletionSummary := do
  let result ← Action.attempt (deleteManifestStrict X client digest)
  pure (summary.addManifest digest result)

/-- The DELETE of one blob of the plan. -/
def deletePlannedBlob (plan : DeletionPlan) (summary : PackageDeletionSummary) (digest : String) :
    Deletion PackageDeletionSummary := do
  let parsed ← Action.ofExcept <| mapErr (fun error => .oci (.core (.type error)))
    (NarDigest.parse digest)
  let result ← Action.attempt <|
    deleteBlobStrict X client ⟨parsed, (plan.blobs.lookup digest).getD 0⟩
  pure (summary.addBlob digest result)

/-- Whether a manifest of the plan is gone. -/
def checkPlannedManifest (summary : PackageDeletionSummary) (digest : String) :
    Deletion PackageDeletionSummary := do
  let result ← Action.attempt (verifyManifestAbsent X digest)
  pure (summary.addManifestCheck digest result)

/-- Whether a blob of the plan is gone. -/
def checkPlannedBlob (summary : PackageDeletionSummary) (digest : String) :
    Deletion PackageDeletionSummary := do
  let result ← Action.attempt (liftExchange (BlobClient.head X digest))
  pure (summary.addBlobCheck digest result)

/-- The deletion of what was discovered; the sorted digests are deleted in this order. -/
def deletePlan (plan : DeletionPlan) (summary : PackageDeletionSummary) :
    Deletion PackageDeletionSummary := do
  let summary ← Action.foldM (deletePlannedManifest X client) summary
    (plan.manifests.keys.insertionSort (· ≤ ·))
  Action.foldM (deletePlannedBlob X client plan) summary (plan.blobs.keys.insertionSort (· ≤ ·))

/-- The verification that nothing is left; the maps are iterated in their own order. -/
def verifyPlan (plan : DeletionPlan) (summary : PackageDeletionSummary) :
    Deletion PackageDeletionSummary := do
  let remaining ← Action.attempt (listTagsForDeletion X client)
  let summary := summary.addRemainingTags client.repo remaining
  let summary ← Action.foldM (checkPlannedManifest X) summary plan.manifests.keys
  Action.foldM (checkPlannedBlob X) summary plan.blobs.keys

def deleteEntirePackageStrict : Deletion PackageDeletionSummary :=
  match client.kind.packageDeletionSupport with
  | .nativeComplete => do
      Action.embed DeletionRequest.packages <|
        GitHubPackagesClient.deleteEntirePackage (GitHubPackagesClient.new client.repo)
      pure { scope := .nativePackageApi, countsKnown := false }
  | .taggedGraphOnly => do
      let plan ← discoverTagReachableGraph X client
      let summary ← deletePlan X client plan plan.summary
      let summary ← verifyPlan X client plan summary
      pure { summary with complete := summary.failures = [] }
  | .unsupported =>
      Action.ofExcept (.error (.oci (.operationNotSupported "delete_package" client.kind
        ("Registry backend '" ++ client.kind.text ++ "' cannot prove complete package deletion"))))

end

end DeletionClient

end NixCache.Oci
