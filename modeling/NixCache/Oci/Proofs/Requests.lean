import NixCache.Oci.Index
/-!
# The requests that are sent

Whatever the registry replies, a read sends nothing but reads, and an upload nothing but what
belongs to blobs.
-/

namespace NixCache.Oci

open NixCache.Lib NixCache.Lib.Action NixCache.Core

/-- A request of a read. -/
def Request.IsRead : Request → Prop
  | .getManifest _ | .getBlob _ | .refreshToken _ => True
  | _ => False

/-- A request of an upload. -/
def Request.IsUpload : Request → Prop
  | .headBlob _ | .postUpload | .postBlob _ _ | .putUpload _ _ _ | .deleteUpload _
  | .refreshToken _ => True
  | _ => False

variable {X : OciCrates} {client : OciClient} {Q : Request → Prop}

theorem only_transportCall {request : Request} {collect : Response → Except TransportError Bytes}
    (h : Q request) : Only Q (transportCall request collect) :=
  only_bind (only_request.mpr h) fun _ => only_ofExcept _

/-- A challenge is exchanged for a token and nothing else. -/
theorem only_requestChallengeForResponse {operation : String} {headers : HeaderMap} :
    Only (fun request => ∃ challenge, request = .refreshToken challenge)
      (requestChallengeForResponse X operation headers) := by
  apply only_ofExcept_bind
  intro challenge
  apply only_ofExcept_bind
  intro challenge
  exact only_bind (only_transportCall ⟨challenge, rfl⟩) fun _ => only_ofExcept _

theorem only_challenge {operation : String} {headers : HeaderMap}
    (htoken : ∀ challenge, Q (.refreshToken challenge)) :
    Only Q (requestChallengeForResponse X operation headers) := by
  apply only_requestChallengeForResponse.mono
  rintro _ ⟨challenge, rfl⟩
  exact htoken challenge

theorem only_requestWithAuthRetry {operation : String} {call : Exchange Fetched}
    (hcall : Only Q call) (htoken : ∀ challenge, Q (.refreshToken challenge)) :
    Only Q (requestWithAuthRetry X operation call) := by
  apply only_bind hcall
  intro first
  split
  · exact only_pure first
  · apply only_bind (only_challenge htoken)
    intro _
    apply only_bind hcall
    intro second
    apply only_ofExcept_bind
    intro _
    exact only_pure second

theorem only_send {request : Request} {operation : String}
    {collect : Response → Except TransportError Bytes} (h : Q request)
    (htoken : ∀ challenge, Q (.refreshToken challenge)) :
    Only Q (requestWithAuthRetry X operation (transportCall request collect)) :=
  only_requestWithAuthRetry (only_transportCall h) htoken

/-! ## Reads -/

theorem BlobClient.only_getDescriptor (descriptor : OciDescriptor) :
    Only Request.IsRead (getDescriptor X client descriptor) := by
  apply only_ofExcept_bind
  intro _
  apply only_ofExcept_bind
  intro _
  apply only_bind (only_send trivial fun _ => trivial)
  intro fetched
  split
  · apply only_ofExcept_bind
    intro _
    apply only_ofExcept_bind
    intro _
    exact only_pure _
  · split
    · exact only_ofExcept _
    · exact only_ofExcept _

theorem ManifestClient.only_getWithExpectedSize (reference : String) (size : Option UInt64) :
    Only Request.IsRead (getWithExpectedSize X client reference size) := by
  apply only_ofExcept_bind
  intro _
  apply only_bind (only_send trivial fun _ => trivial)
  intro fetched
  split
  · apply only_ofExcept_bind
    intro _
    exact only_pure _
  · split
    · exact only_pure _
    · exact only_ofExcept _

theorem ManifestClient.only_fetchArtifact (reference : String) :
    Only Request.IsRead (fetchArtifact X client reference) := by
  apply only_bind (only_getWithExpectedSize reference none)
  intro found
  cases found with
  | none => exact only_pure _
  | some found =>
      apply only_ofExcept_bind
      intro _
      apply only_ofExcept_bind
      intro _
      exact only_pure _

namespace IndexClient

theorem only_getImageManifest (tag : String) :
    Only Request.IsRead (getImageManifest X client tag) := by
  apply only_bind (ManifestClient.only_getWithExpectedSize tag none)
  intro found
  cases found with
  | none => exact only_pure _
  | some found =>
      apply only_ofExcept_bind
      intro _
      apply only_ofExcept_bind
      intro _
      exact only_pure _

theorem only_decodeRootManifest (manifest : OciImageManifest) (system : SystemArch)
    (target : String) : Only Request.IsRead (decodeRootManifest X client manifest system target) := by
  apply only_ofExcept_bind
  intro _
  apply only_ofExcept_bind
  intro layer
  apply only_bind (BlobClient.only_getDescriptor layer)
  intro _
  apply only_ofExcept_bind
  intro _
  apply only_ofExcept_bind
  intro _
  apply only_ofExcept_bind
  intro _
  apply only_ofExcept_bind
  intro _
  exact only_pure _

theorem only_getShardedRootFromIndex (index : OciImageIndex) (system : SystemArch) :
    Only Request.IsRead (getShardedRootFromIndex X client index system) := by
  unfold getShardedRootFromIndex
  split
  · exact only_pure _
  · rename_i descriptor _
    apply only_ofExcept_bind
    intro _
    apply only_bind (ManifestClient.only_getWithExpectedSize descriptor.digest _)
    intro _
    apply only_ofExcept_bind
    intro _
    apply only_ofExcept_bind
    intro subManifest
    apply only_ofExcept_bind
    intro _
    apply only_bind (only_decodeRootManifest subManifest system descriptor.digest)
    intro _
    exact only_pure _

theorem only_getShardedRootFallback (tag : String) (system : SystemArch) :
    Only Request.IsRead (getShardedRootFallback X client tag system) := by
  apply only_bind (ManifestClient.only_fetchArtifact tag)
  intro found
  match found with
  | none => exact only_pure _
  | some ⟨.index index, _⟩ =>
      exact only_bind (only_getShardedRootFromIndex index system) fun _ => only_pure _
  | some ⟨.manifest manifest, _⟩ =>
      exact only_bind (only_decodeRootManifest manifest system tag) fun _ => only_pure _

theorem only_getShardedRoot (tag : String) (system : SystemArch) :
    Only Request.IsRead (getShardedRoot X client tag system) := by
  apply only_bind (only_getImageManifest _)
  intro found
  match found with
  | some (manifest, _) =>
      exact only_bind (only_decodeRootManifest manifest system _) fun _ => only_pure _
  | none => exact only_getShardedRootFallback tag system

theorem only_getShardData (descriptor : ShardDescriptor) (system : SystemArch) :
    Only Request.IsRead (getShardData X client descriptor system) := by
  apply only_ofExcept_bind
  intro _
  split
  · exact only_ofExcept _
  · apply only_bind (BlobClient.only_getDescriptor _)
    intro _
    apply only_ofExcept_bind
    intro _
    exact only_ofExcept _

end IndexClient

/-! ## Uploads -/

namespace BlobClient

theorem only_executeTwoStepPut (digest : ContentDigest) (bytes : Bytes) :
    Only Request.IsUpload (executeTwoStepPut X client digest bytes) := by
  apply only_bind (only_send trivial fun _ => trivial)
  intro _
  apply only_ofExcept_bind
  intro _
  apply only_ofExcept_bind
  intro _
  apply only_ofExcept_bind
  intro sessionUrl
  have hput : Only Request.IsUpload (putUpload X sessionUrl digest bytes) :=
    only_bind (only_send trivial fun _ => trivial) fun _ => only_ofExcept _
  apply only_bind (only_attempt hput)
  intro result
  cases result with
  | ok _ => exact only_pure _
  | error error =>
      have habort : Only Request.IsUpload (abortUploadSession X sessionUrl) :=
        only_bind (only_attempt (only_send trivial fun _ => trivial)) fun _ => only_pure _
      exact only_bind habort fun _ => only_ofExcept _

theorem only_pushBytes (bytes : Bytes) : Only Request.IsUpload (pushBytes X client bytes) := by
  have hhead : ∀ digest, Only Request.IsUpload (head X digest) := by
    intro digest
    apply only_bind (only_send trivial fun _ => trivial)
    intro fetched
    split
    · exact only_pure _
    · split
      · exact only_pure _
      · exact only_ofExcept _
  have hput : ∀ digest : ContentDigest, Only Request.IsUpload
      (executeTwoStepPut X client digest bytes >>= fun _ => pure digest) :=
    fun digest => only_bind (only_executeTwoStepPut digest bytes) fun _ => only_pure _
  have hpost : ∀ digest : ContentDigest, Only Request.IsUpload
      (Action.attempt (requestPostBytesWithAuthRetry X digest.val bytes "monolithic blob upload")
        : Exchange _) :=
    fun _ => only_attempt (only_send trivial fun _ => trivial)
  apply only_bind (hhead _)
  intro present
  split
  · exact only_pure _
  · split
    · exact hput _
    all_goals
      apply only_bind (hpost _)
      intro result
      cases result with
      | error _ => exact hput _
      | ok fetched =>
          dsimp only
          split
          · exact only_pure _
          · exact hput _

theorem only_pushZstd (document : Json) :
    Only Request.IsUpload (pushZstd X client document) := by
  apply only_ofExcept_bind
  intro compressed
  exact only_bind (only_pushBytes compressed) fun _ => only_pure _

theorem only_ensureEmptyConfig : Only Request.IsUpload (ensureEmptyConfig X client) :=
  only_bind (only_pushBytes _) fun _ => only_ofExcept _

end BlobClient

theorem ManifestClient.only_ensureConfigFor (text : String) :
    Only Request.IsUpload (ensureConfigFor X client text) := by
  unfold ensureConfigFor
  split
  · exact BlobClient.only_ensureEmptyConfig
  · exact only_pure _

end NixCache.Oci
