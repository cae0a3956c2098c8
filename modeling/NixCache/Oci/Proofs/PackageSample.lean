import NixCache.Oci.Proofs.Looking
/-!
# A package that answers

A registry that carries every deletion out and tells every look what it holds, and a package in it
with one tag.
-/

namespace NixCache.Oci

open NixCache.Lib NixCache.Lib.Result NixCache.Lib.Action NixCache.Core
open NixCache.Lib.Paging (Catalog)

/-! ## The service -/

namespace Package

/-- Whether a name goes away with the manifest `target`. -/
def names (X : Crates) (package : Package) (target reference : String) : Bool :=
  reference = target ∨ (package.registry.lookup reference).any fun body => digestOf X body = target

def deleteManifest (X : Crates) (package : Package) (target : String) : Package where
  registry :=
    { package.registry with
      tags := fun tag => if package.names X target tag then none else package.registry.tags tag
      manifests := fun digest =>
        if package.names X target digest then none else package.registry.manifests digest }
  tags :=
    { items := package.tags.items.filter fun tag => ¬ package.names X target tag
      sorted := package.tags.sorted.filter _ }

theorem names_of_lookup {X : Crates} {package : Package} {target reference : String} {body : Bytes}
    (h : package.registry.lookup reference = some body) (hdigest : digestOf X body = target) :
    package.names X target reference = true := by
  simp [names, h, hdigest]

theorem lookup_deleteManifest {X : Crates} {package : Package} {target reference : String}
    (h : ∀ body, package.registry.lookup reference = some body → digestOf X body = target) :
    (package.deleteManifest X target).registry.lookup reference = none := by
  cases hlookup : package.registry.lookup reference with
  | none =>
      have hparts := Option.or_eq_none_iff.mp hlookup
      simp [deleteManifest, Registry.lookup, hparts]
  | some body => simp [deleteManifest, Registry.lookup, names_of_lookup hlookup (h body hlookup)]

theorem tags_deleteManifest {X : Crates} {package : Package} {target : String}
    (h : ∀ tag ∈ package.tags.items, package.names X target tag = true) :
    (package.deleteManifest X target).tags.items = [] :=
  List.filter_eq_nil_iff.mpr fun tag htag => by simp [h tag htag]

/-- What a request is told. -/
def view (package : Package) : DeletionRequest → Reply
  | .tags (.getTags cursor) =>
      ManifestClient.tagsReply [] (package.tags.fullPage TagList.pageSize cursor)
  | .tags (.other request) => package.registry.view sampleCrates request
  | .packages _ => Registry.reply 404 []
  | .deleteManifest _ => Registry.reply 202 []
  | .headManifest reference =>
      Registry.reply (if (package.registry.lookup reference).isSome then 200 else 404) []

/-- Uploads are refused. -/
def answer (package : Package) (request : DeletionRequest) : Reply × Package :=
  match request with
  | .deleteManifest digest => (package.view request, package.deleteManifest sampleCrates digest)
  | .tags (.other (.deleteBlob digest)) =>
      (package.view request, { package with registry := package.registry.deleteBlob digest })
  | .tags (.other (.putManifest _ _ _ _)) | .tags (.other .postUpload)
  | .tags (.other (.postBlob _ _)) | .tags (.other (.putUpload _ _ _))
  | .tags (.other (.deleteUpload _)) => (Registry.reply 405 [], package)
  | _ => (package.view request, package)

variable {client : OciClient}

/-- The only page that a client can read in a reply with tags. -/
theorem page_eq_of_tagsReply {cursor : Option String} {tags page : List String}
    (h : ManifestClient.Carries (storingCrates sampleCrates) client cursor
      (ManifestClient.tagsReply [] tags) page) : page = tags := by
  obtain ⟨fetched, hreply, _, hread⟩ := h
  obtain ⟨response, hresponse, _, _, hbody⟩ := readReply_eq_ok.mp hreply
  cases hresponse
  obtain ⟨chunks, hchunks, hflat, _⟩ := collectBody_eq_ok hbody
  rw [hflat] at hread
  cases chunks with
  | nil => cases hchunks
  | cons chunk rest =>
      simp only [List.map_cons, List.cons.injEq, Except.ok.injEq, List.nil_eq,
        List.map_eq_nil_iff] at hchunks
      rw [hchunks.2, ← hchunks.1, List.flatten_singleton,
        ManifestClient.readTags_tagsDocument] at hread
      exact (Except.ok.inj hread).symm

theorem shows_view (registry : Registry) {request : Request}
    (h : (registry.answer sampleCrates request).2 = registry) :
    registry.Shows (storingCrates sampleCrates) (request, registry.view sampleCrates request) := by
  have hstep : Registry.Step sampleCrates (fun _ => true) registry
      (request, registry.view sampleCrates request) (registry.answer sampleCrates request).2 :=
    Registry.step_answer (X := storingCrates sampleCrates) rfl registry request
  rw [h] at hstep
  exact hstep

theorem shows_refused (registry : Registry) (request : Request) :
    registry.Shows (storingCrates sampleCrates) (request, Registry.reply 405 []) := by
  simp only [Registry.Shows, Registry.Step, Registry.reply, show isSuccess 405 = false from rfl]
  cases request <;> simp [Registry.MayRefuse]

/-- Each answer keeps to what a package does. -/
theorem step_answer (client : OciClient) (package : Package) (request : DeletionRequest) :
    Step (storingCrates sampleCrates) client package (request, (package.answer request).1)
      (package.answer request).2 := by
  cases request with
  | deleteManifest digest => trivial
  | packages request => exact rfl
  | headManifest reference =>
      refine ⟨rfl, ?_⟩
      intro response hresponse hstatus
      cases hresponse
      cases hlookup : package.registry.lookup reference with
      | none => rfl
      | some body => simp [hlookup] at hstatus
  | tags request =>
      cases request with
      | getTags cursor =>
          refine ⟨rfl, ?_⟩
          intro page hpage
          rw [page_eq_of_tagsReply hpage]
          exact ⟨Paging.isPage_fullPage _, fun hlength =>
            (Paging.isPage_fullPage false).complete hlength rfl⟩
      | other request =>
          cases request with
          | deleteBlob digest => trivial
          | getManifest reference => exact ⟨rfl, shows_view _ rfl⟩
          | getBlob digest => exact ⟨rfl, shows_view _ rfl⟩
          | headBlob digest => exact ⟨rfl, shows_view _ rfl⟩
          | refreshToken challenge => exact ⟨rfl, shows_view _ rfl⟩
          | putManifest reference contentType condition body =>
              exact ⟨rfl, shows_refused _ _⟩
          | postUpload => exact ⟨rfl, shows_refused _ _⟩
          | postBlob digest body => exact ⟨rfl, shows_refused _ _⟩
          | putUpload session digest body => exact ⟨rfl, shows_refused _ _⟩
          | deleteUpload session => exact ⟨rfl, shows_refused _ _⟩

/-- A look finds the package as it is. -/
theorem plays_look {ε α : Type} {action : Action DeletionRequest Reply ε α} (package : Package)
    (h : Only DeletionClient.IsLook action) :
    Plays answer action package (eval package.view action) package := by
  refine Plays.of_only ?_ h
  intro request hlook
  cases request with
  | deleteManifest digest => exact hlook.elim
  | packages request => rfl
  | headManifest reference => rfl
  | tags request =>
      cases request with
      | getTags cursor => rfl
      | other request =>
          cases request with
          | getManifest reference | getBlob digest | refreshToken challenge | headBlob digest => rfl
          | putManifest reference contentType condition body | deleteBlob digest | postUpload
            | postBlob digest body | putUpload session digest body
            | deleteUpload session => exact hlook.elim

end Package

/-! ## A package with one tag -/

namespace DeletionClient

def sampleDescriptor : OciDescriptor :=
  ⟨ociImageConfigMediaType, emptyConfigDigest, emptyConfigSize, none, none⟩

/-- An artifact whose layer is its empty configuration. -/
def sampleManifest : OciImageManifest :=
  ⟨2, ociImageManifestMediaType, sampleDescriptor, [sampleDescriptor], none⟩

def sampleBody : String := JsonText.render sampleManifest.toJson

def sampleDigest : String := digestOf sampleCrates (Str.asBytes sampleBody)

/-- A registry with one manifest and one blob. -/
def singleManifest (tag digest blob : String) (body content : Bytes) : Registry where
  tags reference := if reference = tag then some body else none
  manifests reference := if reference = digest then some body else none
  blobs reference := if reference = blob then some content else none

theorem lookup_singleManifest {tag digest blob reference : String} {body content found : Bytes}
    (h : (singleManifest tag digest blob body content).lookup reference = some found) :
    found = body := by
  simp only [Registry.lookup, singleManifest] at h
  split at h
  · simpa using h.symm
  · split at h
    · simpa using h.symm
    · simp at h

def samplePackage : Package :=
  ⟨singleManifest (ManifestClient.sampleTag 0) sampleDigest emptyConfigDigest
    (Str.asBytes sampleBody) (Str.asBytes "{}"), ManifestClient.sampleCatalog 1⟩

/-- What the discovery finds in it. -/
def samplePlan : DeletionPlan :=
  ⟨[ManifestClient.sampleTag 0], AList.singleton sampleDigest sampleBody,
    AList.singleton emptyConfigDigest emptyConfigSize⟩

theorem lookup_sampleTag :
    samplePackage.registry.lookup (ManifestClient.sampleTag 0) = some (Str.asBytes sampleBody) := by
  simp [Registry.lookup, samplePackage, singleManifest]

theorem parse_sampleBody (digest : String) :
    parseDiscoveredManifest (storingCrates sampleCrates) sampleBody digest =
      .ok (.manifest sampleManifest) := by
  have hdocument : (storingCrates sampleCrates).fromSlice (Str.asBytes sampleBody) =
      .ok sampleManifest.toJson := readsBack_of_isPlain (OciImageManifest.isPlain_toJson _)
  have hvalue : Json.asValue sampleManifest.toJson = sampleManifest.toJson := rfl
  simp only [parseDiscoveredManifest, hdocument, bind_eq_ok, mapErr_eq_ok, okOr_eq_ok, ensure_eq_ok]
  refine ⟨sampleManifest.toJson, by rw [← hvalue]; rfl, 2, by decide, (), rfl,
    ociImageManifestMediaType, by decide, (), Or.inr rfl, OciArtifactManifest.fromJson_manifest _⟩

/-- A short listing is one page. -/
theorem eval_listTagsForDeletion {package : Package} (hcount : package.tags.items.length < 100)
    (hlength : ∀ tag ∈ package.tags.items, tag.length ≤ 128) :
    eval package.view (listTagsForDeletion (storingCrates sampleCrates) sampleClient) =
      .ok package.tags.items := by
  have hpage : package.tags.fullPage TagList.pageSize none = package.tags.items := by
    rw [Catalog.fullPage, Paging.after_none]
    exact List.take_of_length_le hcount.le
  have hcarries := ManifestClient.carries_tagsReply [] package.tags.items none rfl hcount.le hlength
  obtain ⟨fetched, hreply, hstatus, hread⟩ := hcarries
  have hstep : ManifestClient.Listing.addPage sampleClient {} package.tags.items =
      .ok (.finished ⟨package.tags.items, 1⟩) := by
    by_cases hnil : package.tags.items = []
    · rw [hnil]
      rfl
    · have hseen := Paging.seen_start package.tags
      have hfirst : package.tags.items <+: package.tags.after none := by
        rw [Paging.after_none]
      rw [ManifestClient.Listing.addPage_eq hseen hfirst hnil (by simp [TagList.maxTags]; omega)]
      simp [ManifestClient.Listing.afterPage, TagList.pageSize, hcount]
  have hfetch : eval (fun request => package.view (.tags request))
      (ManifestClient.getTagsWithAuthRetry (storingCrates sampleCrates) sampleClient none) =
        .ok fetched := by
    have hget : eval (fun request => package.view (.tags request))
        (ManifestClient.getTags sampleClient none) = .ok fetched := by
      change ManifestClient.readTagsReply sampleClient none
        (package.view (.tags (.getTags none))) = _
      rw [Package.view, hpage, hreply]
    rw [ManifestClient.getTagsWithAuthRetry, eval_bind, hget]
    change eval _ (if fetched.status ≠ 401 then pure fetched else _) = _
    rw [if_pos (ManifestClient.status_ne_of_isSuccess hstatus)]
    rfl
  have hlist : eval (fun request => package.view (.tags request))
      (ManifestClient.listTags (storingCrates sampleCrates) sampleClient) =
        .ok ⟨package.tags.items, 1⟩ := by
    rw [ManifestClient.listTags, show TagList.maxTagPages = 9999 + 1 from rfl,
      ManifestClient.Listing.run, eval_bind, eval_mapErr, hfetch]
    change eval _ (Action.ofExcept _ >>= _) = _
    rw [ManifestClient.Listing.readPage_eq hstatus hread, hstep]
    rfl
  rw [listTagsForDeletion, eval_bind, eval_mapErr, eval_embed, hlist]
  change eval package.view (if _ then _ else _) = _
  rw [if_neg (by simp [sampleClient, RegistryKind.deletionStrategy])]
  change Except.ok (sortedTags package.tags.items) = _
  rw [sortedTags_items]

theorem eval_queueTag (discovery : Discovery) (h : discovery.queuedManifests = ∅) :
    eval samplePackage.view (queueTag (storingCrates sampleCrates) sampleClient discovery
      (ManifestClient.sampleTag 0)) = .ok (discovery.queue sampleDigest sampleBody) := by
  have hweight : JsonText.weight sampleManifest.toJson ≤ 1000000 := by decide
  have hbytes := length_toVec_le sampleCrates sampleManifest.toJson
  have hread : samplePackage.registry.read (storingCrates sampleCrates)
      (ManifestClient.getWithDigest (storingCrates sampleCrates) sampleClient
        (ManifestClient.sampleTag 0)) = .ok (some (sampleBody, sampleDigest)) := by
    refine ManifestClient.read_getWithExpectedSize_some.mpr ⟨?_, rfl, ?_, by simp, ?_⟩
    · exact lookup_sampleTag
    · intro hleading
      exact absurd hleading (by decide)
    · change (IndexCodec.toVec (storingCrates sampleCrates) sampleManifest.toJson).length ≤ 4194304
      omega
  have hdiscover : eval samplePackage.view (discover "manifest_get" (ManifestClient.sampleTag 0)
      (ManifestClient.getWithDigest (storingCrates sampleCrates) sampleClient
        (ManifestClient.sampleTag 0))) = .ok (some (sampleBody, sampleDigest)) := by
    rw [discover, eval_mapErr, eval_embed]
    change mapErr _ (samplePackage.registry.read (storingCrates sampleCrates) _) = _
    rw [hread]
    rfl
  rw [queueTag, eval_bind, hdiscover]
  change eval samplePackage.view (if _ then _ else _) = _
  rw [h, if_neg (Finset.notMem_empty _), eval_bind]
  rfl

/-- What the queue holds at first. -/
def sampleQueue : Discovery :=
  Discovery.queue ⟨⟨[ManifestClient.sampleTag 0], ∅, ∅⟩, [], ∅, ∅⟩ sampleDigest sampleBody

/-- The one manifest is read, and its two descriptors name one blob. -/
theorem eval_discoverNext :
    eval samplePackage.view (discoverNext (storingCrates sampleCrates) sampleClient
      sampleDigest sampleBody
      ⟨⟨[ManifestClient.sampleTag 0], ∅, ∅⟩, [], insert sampleDigest ∅, ∅⟩) =
        .ok ⟨samplePlan, [], insert sampleDigest ∅, ∅⟩ := by
  have hroom : HashMap.size (∅ : HashMap String String) < maxDeletionManifests := by decide
  have hblob : addBlob ⟨[ManifestClient.sampleTag 0], AList.singleton sampleDigest sampleBody, ∅⟩
      emptyConfigDigest emptyConfigSize sampleDigest "config" sampleClient.repo =
        .ok samplePlan := by
    simp only [addBlob, insertBlob, bind_eq_ok, ensure_eq_ok]
    exact ⟨(), by decide, (), fun hfull => absurd hfull.1 (by decide), rfl⟩
  have hagain : addBlob samplePlan emptyConfigDigest emptyConfigSize sampleDigest "layer"
      sampleClient.repo = .ok samplePlan := by
    simp only [addBlob, insertBlob, bind_eq_ok, ensure_eq_ok]
    exact ⟨(), by decide, (), fun hfull => absurd hfull.1 (by decide), rfl⟩
  rw [discoverNext, if_neg (AList.notMem_empty _)]
  simp only [eval_bind, eval_ofExcept, bind_eq_ok, ensure_eq_ok]
  refine ⟨(), hroom, _, parse_sampleBody _, ?_⟩
  simp only [discoverArtifact, eval_bind, eval_ofExcept, bind_eq_ok]
  refine ⟨samplePlan, hblob, ?_⟩
  rw [show sampleManifest.layers = [sampleDescriptor] from rfl, Action.foldM, eval_bind, bind_eq_ok]
  refine ⟨⟨samplePlan, [], insert sampleDigest ∅, ∅⟩, ?_, rfl⟩
  rw [discoverLayer, eval_bind, bind_eq_ok]
  exact ⟨samplePlan, hagain, rfl⟩

theorem eval_discover :
    eval samplePackage.view (discoverTagReachableGraph (storingCrates sampleCrates) sampleClient) =
      .ok samplePlan := by
  have hsorted : sortedTags samplePackage.tags.items = [ManifestClient.sampleTag 0] :=
    sortedTags_items samplePackage.tags
  have hrun : ∀ fuel, eval samplePackage.view (run (storingCrates sampleCrates) sampleClient
      (fuel + 2) sampleQueue) = .ok ⟨samplePlan, [], insert sampleDigest ∅, ∅⟩ := by
    intro fuel
    rw [run]
    change eval samplePackage.view (discoverNext _ _ sampleDigest sampleBody
      ⟨⟨[ManifestClient.sampleTag 0], ∅, ∅⟩, [], insert sampleDigest ∅, ∅⟩ >>= _) = _
    rw [eval_bind, bind_eq_ok]
    exact ⟨_, eval_discoverNext, rfl⟩
  rw [discoverTagReachableGraph]
  simp only [eval_bind, bind_eq_ok]
  refine ⟨_, eval_listTagsForDeletion (by decide) (by decide), sampleQueue, ?_, _, hrun 99998, rfl⟩
  rw [hsorted, Action.foldM, eval_bind, bind_eq_ok]
  exact ⟨_, eval_queueTag _ rfl, rfl⟩

/-! ## Its deletion -/

/-- A DELETE that is accepted at once. -/
theorem plays_sendWithAuthRetry {package after : Package} {operation : String}
    {request : DeletionRequest} (h : package.answer request = (Registry.reply 202 [], after)) :
    Plays Package.answer (sendWithAuthRetry (storingCrates sampleCrates) operation request) package
      (.ok 202) after :=
  Plays.bind (Plays.bind (Plays.request h) (Plays.ofExcept _)) (Plays.pure 202)

theorem plays_deletePlannedManifest (package : Package) (summary : PackageDeletionSummary)
    (digest : String) :
    Plays Package.answer
      (deletePlannedManifest (storingCrates sampleCrates) sampleClient summary digest) package
      (.ok { summary with manifestsDeleted := summary.manifestsDeleted + 1 })
      (package.deleteManifest sampleCrates digest) := by
  have hdelete : Plays Package.answer
      (deleteManifestStrict (storingCrates sampleCrates) sampleClient digest) package (.ok .deleted)
      (package.deleteManifest sampleCrates digest) :=
    Plays.bind (plays_sendWithAuthRetry rfl) (Plays.bind (Plays.ofExcept (.ok true)) (Plays.pure _))
  exact Plays.bind (Plays.attempt hdelete) (Plays.pure _)

theorem plays_deletePlannedBlob (package : Package) (summary : PackageDeletionSummary) :
    Plays Package.answer
      (deletePlannedBlob (storingCrates sampleCrates) sampleClient samplePlan summary
        emptyConfigDigest) package
      (.ok { summary with
        blobsDeleted := summary.blobsDeleted + 1
        deletedBlobBytes := saturatingAdd summary.deletedBlobBytes 2 })
      { package with registry := package.registry.deleteBlob emptyConfigDigest } := by
  have hparse : NarDigest.parse emptyConfigDigest = .ok ⟨emptyConfigDigest⟩ := by decide
  have hdelete : Plays Package.answer
      (deleteBlobStrict (storingCrates sampleCrates) sampleClient ⟨⟨emptyConfigDigest⟩, 2⟩) package
      (.ok (.deleted 2))
      { package with registry := package.registry.deleteBlob emptyConfigDigest } :=
    Plays.bind (Plays.ofExcept (.ok ())) <| Plays.bind (plays_sendWithAuthRetry rfl) <|
      Plays.bind (Plays.ofExcept (.ok true)) (Plays.pure _)
  have hsize : (samplePlan.blobs.lookup emptyConfigDigest).getD 0 = 2 := by decide
  unfold deletePlannedBlob
  rw [hparse, hsize]
  exact Plays.bind (Plays.ofExcept (.ok _)) <| Plays.bind (Plays.attempt hdelete) (Plays.pure _)

theorem eval_checkPlannedManifest {package : Package} {summary : PackageDeletionSummary}
    {digest : String} (h : package.registry.lookup digest = none) :
    eval package.view (checkPlannedManifest (storingCrates sampleCrates) summary digest) =
      .ok summary := by
  have hview : package.view (.headManifest digest) = Registry.reply 404 [] := by
    simp [Package.view, h]
  simp only [checkPlannedManifest, verifyManifestAbsent, sendWithAuthRetry, send, eval_bind,
    eval_attempt, eval_request, hview]
  rfl

theorem eval_checkPlannedBlob {package : Package} {summary : PackageDeletionSummary}
    {digest : String} (h : package.registry.blobs digest = none) :
    eval package.view (checkPlannedBlob (storingCrates sampleCrates) summary digest) =
      .ok summary := by
  have hview : package.registry.view sampleCrates (.headBlob digest) = Registry.reply 404 [] := by
    simp [Registry.view, Registry.answer, h]
  have hhead : package.registry.read (storingCrates sampleCrates)
      (BlobClient.head (storingCrates sampleCrates) digest) = .ok false := by
    rw [BlobClient.head, Registry.read_bind, requestHeadWithAuthRetry, transportSend,
      Registry.read_requestWithAuthRetry]
    change readReply _ (package.registry.view sampleCrates (.headBlob digest)) >>= _ = _
    rw [hview]
    rfl
  simp only [checkPlannedBlob, liftExchange, eval_bind, eval_attempt, eval_mapErr, eval_embed]
  change (Except.ok (mapErr _ (package.registry.read (storingCrates sampleCrates) _)) >>= _) = _
  rw [hhead]
  rfl

/-- The package after its manifest and its blob were deleted. -/
def deletedPackage : Package :=
  { samplePackage.deleteManifest sampleCrates sampleDigest with
    registry := (samplePackage.deleteManifest sampleCrates sampleDigest).registry.deleteBlob
      emptyConfigDigest }

theorem lookup_deletedPackage (reference : String) :
    deletedPackage.registry.lookup reference = none :=
  Package.lookup_deleteManifest fun _ hbody => by rw [lookup_singleManifest hbody, sampleDigest]

theorem tags_deletedPackage : deletedPackage.tags.items = [] := by
  apply Package.tags_deleteManifest
  intro tag htag
  obtain rfl : tag = ManifestClient.sampleTag 0 := List.mem_singleton.mp htag
  exact Package.names_of_lookup lookup_sampleTag rfl

theorem plays_deletePlan :
    ∃ summary, Plays Package.answer
        (deletePlan (storingCrates sampleCrates) sampleClient samplePlan samplePlan.summary)
        samplePackage (.ok summary) deletedPackage ∧ summary.failures = [] := by
  have hmanifests : samplePlan.manifests.keys.insertionSort (· ≤ ·) = [sampleDigest] := rfl
  have hblobs : samplePlan.blobs.keys.insertionSort (· ≤ ·) = [emptyConfigDigest] := rfl
  unfold deletePlan
  rw [hmanifests, hblobs]
  simp only [Action.foldM]
  exact ⟨_, Plays.bind (Plays.bind (plays_deletePlannedManifest _ _ _) (Plays.pure _))
    (Plays.bind (plays_deletePlannedBlob _ _) (Plays.pure _)), rfl⟩

theorem eval_verifyPlan (summary : PackageDeletionSummary) :
    eval deletedPackage.view
      (verifyPlan (storingCrates sampleCrates) sampleClient samplePlan summary) = .ok summary := by
  have hmanifests : samplePlan.manifests.keys = [sampleDigest] := rfl
  have hblobs : samplePlan.blobs.keys = [emptyConfigDigest] := rfl
  have hblob : deletedPackage.registry.blobs emptyConfigDigest = none := by
    simp [deletedPackage, Registry.deleteBlob]
  have hlist : eval deletedPackage.view
      (listTagsForDeletion (storingCrates sampleCrates) sampleClient) =
        .ok deletedPackage.tags.items :=
    eval_listTagsForDeletion (by rw [tags_deletedPackage]; decide)
      (by rw [tags_deletedPackage]; simp)
  rw [tags_deletedPackage] at hlist
  unfold verifyPlan
  rw [hmanifests, hblobs]
  simp only [Action.foldM, eval_bind, eval_attempt, eval_pure, hlist, bind_eq_ok]
  exact ⟨_, rfl, summary, ⟨_, eval_checkPlannedManifest (lookup_deletedPackage _), rfl⟩, _,
    eval_checkPlannedBlob hblob, rfl⟩

/-- A complete deletion. -/
theorem plays_deleteEntirePackageStrict :
    ∃ summary, Plays Package.answer
        (deleteEntirePackageStrict (storingCrates sampleCrates) sampleClient) samplePackage
        (.ok summary) deletedPackage ∧ summary.complete = true := by
  have hlooks : Only IsLook (discoverTagReachableGraph (storingCrates sampleCrates) sampleClient) :=
    only_discoverTagReachableGraph
  have hdiscover := samplePackage.plays_look hlooks
  rw [eval_discover] at hdiscover
  obtain ⟨summary, hdelete, hclean⟩ := plays_deletePlan
  have hlooks : Only IsLook
      (verifyPlan (storingCrates sampleCrates) sampleClient samplePlan summary) :=
    only_verifyPlan samplePlan summary
  have hverify := deletedPackage.plays_look hlooks
  rw [eval_verifyPlan] at hverify
  have hkind : sampleClient.kind.packageDeletionSupport = .taggedGraphOnly := rfl
  rw [deleteEntirePackageStrict, hkind]
  exact ⟨_, Plays.bind hdiscover (Plays.bind hdelete (Plays.bind hverify (Plays.pure _))),
    decide_eq_true hclean⟩

end DeletionClient

end NixCache.Oci
