import NixCache.Oci.PackageDeletion
import NixCache.Oci.Proofs.Discovery
import NixCache.Oci.Proofs.Requests
/-!
# Looking at a package

A deletion is the only one to change the package.  It tells what its DELETEs did only by looking
again, and nothing changes while it looks.
-/

namespace NixCache.Oci

open NixCache.Lib NixCache.Lib.Result NixCache.Lib.Action NixCache.Core
open NixCache.Lib.Paging (Catalog)
open NixCache.Lib.Program (Trace Follows)

/-! ## A package -/

/-- What a registry holds for a package, and the tags that it lists. -/
structure Package where
  registry : Registry
  tags : Catalog String

/-- One exchange of a deletion.  A DELETE may do anything, whatever its reply is; the other requests
change nothing, and what they are told is so. -/
def Package.Step (X : OciCrates) (client : OciClient) (before : Package)
    (event : DeletionRequest × Reply) (after : Package) : Prop :=
  match event.1 with
  | .deleteManifest _ | .tags (.other (.deleteBlob _)) => True
  | .headManifest reference =>
      after = before ∧ ∀ response, event.2 = .ok response → response.status = 404 →
        before.registry.lookup reference = none
  | .tags (.getTags cursor) =>
      after = before ∧ ∀ page, ManifestClient.Carries X client cursor event.2 page →
        before.tags.IsPage TagList.pageSize cursor page (ManifestClient.announcesMore event.2) ∧
          (page.length < TagList.pageSize → page = before.tags.after cursor)
  | .tags (.other request) => after = before ∧ before.registry.Shows X (request, event.2)
  | .packages _ => after = before

namespace DeletionClient

/-- A request that deletes nothing. -/
def IsLook : DeletionRequest → Prop
  | .deleteManifest _ => False
  | .tags (.other (.headBlob _)) => True
  | .tags (.other request) => request.IsRead
  | _ => True

theorem isLook_client {request : Request} (h : request.IsRead) : IsLook (.client request) := by
  cases request with
  | getManifest reference | getBlob digest | refreshToken challenge => exact h
  | putManifest reference contentType condition body | headBlob digest | deleteBlob digest
    | postUpload | postBlob digest body | putUpload session digest body | deleteUpload session =>
      exact h.elim

variable {X : OciCrates} {client : OciClient} {before after : Package}
  {trace : Trace DeletionRequest Reply}

-- whole runs are taken apart one call at a time
attribute [local irreducible] ManifestClient.listTags GitHubPackagesClient.listPackageVersions
  listPackagesTags listTagsForDeletion run discoverTagReachableGraph

theorem only_discover {α : Type} {stage target : String} {exchange : Exchange α}
    (h : Only Request.IsRead exchange) : Only IsLook (discover stage target exchange) :=
  only_mapErr (only_embed (h.mono fun _ => isLook_client))

theorem isLook_refreshToken (challenge : BearerChallenge) :
    IsLook (.client (.refreshToken challenge)) := trivial

theorem only_getTagsWithAuthRetry (cursor : Option String) :
    Only (fun request => IsLook (.tags request))
      (ManifestClient.getTagsWithAuthRetry X client cursor) := by
  have hpage : Only (fun request => IsLook (.tags request))
      (ManifestClient.getTags client cursor) :=
    only_bind (only_request.mpr trivial) fun _ => only_ofExcept _
  apply only_bind hpage
  intro first
  split
  · exact only_pure _
  · have hchallenge : Only (fun request => IsLook (.tags request)) (Action.embed TagRequest.other
        (requestChallengeForResponse X "list tags" first.headers)) :=
      only_embed (only_challenge isLook_refreshToken)
    apply only_bind hchallenge
    intro _
    apply only_bind hpage
    intro second
    exact only_ofExcept_bind fun _ => only_pure _

theorem only_listTags :
    Only (fun request => IsLook (.tags request)) (ManifestClient.listTags X client) := by
  unfold ManifestClient.listTags
  suffices hloop : ∀ remaining listing, Only (fun request => IsLook (.tags request))
      (ManifestClient.Listing.run X client remaining listing) from hloop _ _
  intro remaining
  induction remaining with
  | zero => exact fun listing => only_ofExcept _
  | succ remaining ih =>
      intro listing
      apply only_bind (only_mapErr (only_getTagsWithAuthRetry listing.lastTag))
      intro fetched
      apply only_ofExcept_bind
      intro step
      cases step with
      | finished list => exact only_pure _
      | continued next => exact ih next

theorem only_listPackagesTags : Only IsLook (listPackagesTags X client) := by
  unfold listPackagesTags
  apply only_bind (only_embed (only_of_forall (fun _ => trivial) _))
  intro listed
  exact only_pure _

theorem only_listTagsForDeletion : Only IsLook (listTagsForDeletion X client) := by
  unfold listTagsForDeletion
  apply only_bind (only_mapErr (only_embed only_listTags))
  intro list
  split
  · exact only_bind only_listPackagesTags fun _ => only_pure _
  · exact only_pure _

theorem only_queueTag (discovery : Discovery) (tag : String) :
    Only IsLook (queueTag X client discovery tag) := by
  apply only_bind (only_discover (ManifestClient.only_getWithExpectedSize tag none))
  intro found
  cases found with
  | none => exact only_pure _
  | some found =>
      dsimp only
      split
      · exact only_pure _
      · exact only_ofExcept_bind fun _ => only_pure _

theorem only_queueChild (digest : String) (discovery : Discovery) (descriptor : OciDescriptor) :
    Only IsLook (queueChild X client digest discovery descriptor) := by
  apply only_ofExcept_bind
  intro _
  apply only_ofExcept_bind
  intro _
  split
  · exact only_pure _
  · apply only_ofExcept_bind
    intro _
    apply only_bind (only_discover (ManifestClient.only_getWithExpectedSize _ _))
    intro found
    exact only_ofExcept_bind fun _ => only_pure _

theorem only_discoverShard (system : SystemArch) (rootDigest : String) (discovery : Discovery)
    (shard : ShardDescriptor) :
    Only IsLook (discoverShard X client system rootDigest discovery shard) := by
  unfold discoverShard
  split
  · exact only_pure _
  · apply only_ofExcept_bind
    intro plan
    split
    · exact only_pure _
    · apply only_bind (only_discover (IndexClient.only_getShardData shard system))
      intro shardData
      exact only_ofExcept_bind fun _ => only_pure _

theorem only_discoverLayer (digest : String) (manifest : OciImageManifest) (discovery : Discovery)
    (layer : OciDescriptor) :
    Only IsLook (discoverLayer X client digest manifest discovery layer) := by
  apply only_ofExcept_bind
  intro plan
  cases CacheLayerMediaType.parse layer.mediaType with
  | none => exact only_pure _
  | some layerType =>
      apply only_bind (only_discover (BlobClient.only_getDescriptor layer))
      intro layerBytes
      cases layerType with
      | rootIndexV8Zstd =>
          apply only_ofExcept_bind
          intro decoded
          apply only_ofExcept_bind
          intro _
          exact only_foldM (only_discoverShard _ _) _ _
      | shardDataV8Zstd => exact only_ofExcept _

theorem only_run (fuel : Nat) (discovery : Discovery) :
    Only IsLook (run X client fuel discovery) := by
  induction fuel generalizing discovery with
  | zero =>
      unfold run
      exact only_pure _
  | succ fuel ih =>
      unfold run
      cases discovery.pending with
      | nil => exact only_pure _
      | cons entry pending =>
          refine only_bind ?_ ih
          unfold discoverNext
          split
          · exact only_pure _
          · apply only_ofExcept_bind
            intro _
            apply only_ofExcept_bind
            intro artifact
            cases artifact with
            | index index => exact only_foldM (only_queueChild _) _ _
            | manifest manifest =>
                apply only_ofExcept_bind
                intro plan
                exact only_foldM (only_discoverLayer _ manifest) _ _

theorem only_discoverTagReachableGraph : Only IsLook (discoverTagReachableGraph X client) := by
  unfold discoverTagReachableGraph
  apply only_bind only_listTagsForDeletion
  intro tags
  apply only_bind (only_foldM only_queueTag _ _)
  intro discovery
  exact only_bind (only_run _ _) fun _ => only_pure _

/-! ## What a verification asks for -/

theorem only_sendWithAuthRetry {operation : String} {request : DeletionRequest}
    (h : IsLook request) : Only IsLook (sendWithAuthRetry X operation request) := by
  have hsend : Only IsLook (send request) := only_bind (only_request.mpr h) fun _ => only_ofExcept _
  apply only_bind hsend
  intro first
  split
  · exact only_pure _
  · apply only_bind (only_mapErr (only_embed (only_challenge isLook_refreshToken)))
    intro _
    apply only_bind hsend
    intro second
    exact only_ofExcept_bind fun _ => only_pure _

theorem only_head (digest : String) :
    Only IsLook (liftExchange (BlobClient.head X digest)) := by
  apply only_mapErr
  apply only_embed
  have hhead : IsLook (.client (.headBlob digest)) := trivial
  apply only_bind
    (only_send (Q := fun request => IsLook (.client request)) hhead isLook_refreshToken)
  intro fetched
  split
  · exact only_pure _
  · split
    · exact only_pure _
    · exact only_ofExcept _

theorem only_verifyPlan (plan : DeletionPlan) (summary : PackageDeletionSummary) :
    Only IsLook (verifyPlan X client plan summary) := by
  unfold verifyPlan
  apply only_bind (only_attempt only_listTagsForDeletion)
  intro remaining
  apply only_bind
  · apply only_foldM
    intro summary digest
    refine only_bind (only_attempt ?_) fun _ => only_pure _
    unfold verifyManifestAbsent
    have hhead : IsLook (.headManifest digest) := trivial
    apply only_bind (only_sendWithAuthRetry hhead)
    intro status
    split
    · exact only_pure _
    · split <;> exact only_ofExcept _
  · intro summary
    apply only_foldM
    intro summary digest
    exact only_bind (only_attempt (only_head digest)) fun _ => only_pure _

end DeletionClient

end NixCache.Oci
