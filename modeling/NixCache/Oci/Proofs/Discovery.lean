import NixCache.Lib.Worklist
import NixCache.Oci.Proofs.Tags
import NixCache.Oci.Proofs.Unchanging
/-!
# What a discovery finds

Against a registry that does not change, the manifests of a plan are those that its tags reach
through image indexes, and its blobs are those that these manifests refer to.
-/

namespace NixCache.Oci

open NixCache.Lib NixCache.Lib.Result NixCache.Lib.Worklist NixCache.Core
open NixCache.Lib.HashMap (Records)
open NixCache.Lib.Paging (Catalog)
open NixCache.Lib.Program (Trace)

/-! ## What a registry holds -/

namespace Registry

variable (X : OciCrates) (client : OciClient) (registry : Registry)

/-- The manifest with a digest, as the discovery reads it. -/
def manifestAt (digest : String) : Option OciArtifactManifest :=
  (registry.lookup digest).bind fun bytes => (Str.fromUtf8 bytes).bind fun body =>
    (DeletionClient.parseDiscoveredManifest X body digest).toOption

/-- The children of the image index with a digest. -/
def childDigests (digest : String) : List String :=
  match registry.manifestAt X digest with
  | some (.index index) => index.manifests.map OciDescriptor.digest
  | _ => []

/-- The digests of the manifests that the tags name. -/
def taggedDigests (tags : List String) : List String :=
  tags.filterMap fun tag => (registry.lookup tag).map (digestOf X.toCrates)

/-- The content of a blob as a document of the cache. -/
def decodedAt {α : Type} (decode : Json → Except JsonError α) (digest mediaType : String) :
    Option α :=
  (registry.blobs digest).bind fun bytes =>
    (IndexCodec.decodeZstd X decode bytes mediaType
      client.limits.maxIndexUncompressedBytes).toOption.map DecodedIndex.value

def rootAt (digest : String) : Option ShardedArchCacheIndexData :=
  registry.decodedAt X client (ShardedArchCacheIndexData.fromJson X.toCrates) digest rootIndexV8Zstd

def shardAt (digest : String) : Option ShardDataPayload :=
  registry.decodedAt X client (ShardDataPayload.fromJson X.toCrates) digest shardDataV8Zstd

/-- The NAR blobs that the entries of a shard refer to, with their sizes. -/
def NarOf (digest blob : String) (size : UInt64) : Prop :=
  ∃ payload hash entry, registry.shardAt X client digest = some payload ∧
    payload.entries.lookup hash = some entry ∧ entry.narDigest.val = blob ∧ entry.narSize = size

/-- The blobs that a shard of a root refers to: its own, and those of its entries. -/
def ShardRefers (shard : ShardDescriptor) (blob : String) (size : UInt64) : Prop :=
  shard.entryCount ≠ 0 ∧
    (shard.blobDigest = blob ∧ shard.compressedSize = size ∨
      registry.NarOf X client shard.blobDigest blob size)

/-- The blobs that a layer refers to: its own, and those of the shards in it. -/
def LayerRefers (layer : OciDescriptor) (blob : String) (size : UInt64) : Prop :=
  (layer.digest = blob ∧ layer.size = size) ∨
    (layer.mediaType = rootIndexV8Zstd ∧ ∃ root, registry.rootAt X client layer.digest = some root ∧
      ∃ shard ∈ root.shards, registry.ShardRefers X client shard blob size) ∨
    (layer.mediaType = shardDataV8Zstd ∧ registry.NarOf X client layer.digest blob size)

/-- The blobs that the image manifest with a digest refers to. -/
def Refers (digest blob : String) (size : UInt64) : Prop :=
  ∃ manifest, registry.manifestAt X digest = some (.manifest manifest) ∧
    ((manifest.config.digest = blob ∧ manifest.config.size = size) ∨
      ∃ layer ∈ manifest.layers, registry.LayerRefers X client layer blob size)

end Registry

namespace DeletionClient

variable {X : OciCrates} {client : OciClient} {registry : Registry}
  {trace : Trace DeletionRequest Reply}

/-! ## Exchanges -/

/-- The exchanges of the client in the trace leave the registry as it is. -/
def Unchanged (X : OciCrates) (registry : Registry) (trace : Trace DeletionRequest Reply) : Prop :=
  ∀ request reply, (DeletionRequest.client request, reply) ∈ trace →
    registry.Shows X (request, reply)

theorem Unchanged.sublist {trace' : Trace DeletionRequest Reply}
    (h : Unchanged X registry trace) (hsub : trace'.Sublist trace) : Unchanged X registry trace' :=
  fun request reply hmem => h request reply (hsub.subset hmem)

theorem Unchanged.left {before after : Trace DeletionRequest Reply}
    (h : Unchanged X registry (before ++ after)) : Unchanged X registry before :=
  h.sublist (List.sublist_append_left before after)

theorem Unchanged.right {before after : Trace DeletionRequest Reply}
    (h : Unchanged X registry (before ++ after)) : Unchanged X registry after :=
  h.sublist (List.sublist_append_right before after)

theorem runs_discover_ok {α : Type} {stage target : String} {exchange : Exchange α} {value : α}
    (h : (discover stage target exchange).Runs trace (.ok value))
    (hunchanged : Unchanged X registry trace) :
    ∃ trace', exchange.Runs trace' (.ok value) ∧ ∀ event ∈ trace', registry.Shows X event := by
  rw [discover, Action.runs_mapErr_ok] at h
  obtain ⟨trace', rfl, hrun⟩ := h.of_embed
  refine ⟨trace', hrun, fun event hevent => ?_⟩
  exact hunchanged event.1 event.2 (List.mem_map.mpr ⟨event, hevent, rfl⟩)

/-! ## Recording blobs -/

/-- Since `before`, exactly the blobs in `R` were added to the plan. -/
structure Adds (R : String → UInt64 → Prop) (before after : DeletionPlan) : Prop where
  tags : after.tags = before.tags
  manifests : after.manifests = before.manifests
  blobs : Records R before.blobs after.blobs
  limit : before.blobs.size ≤ maxDeletionBlobs → after.blobs.size ≤ maxDeletionBlobs
  digests : (∀ digest ∈ before.blobs, isSha256 digest = true) →
    ∀ digest ∈ after.blobs, isSha256 digest = true

namespace Adds

variable {R S : String → UInt64 → Prop} {first middle last : DeletionPlan}

theorem refl (h : ∀ digest size, R digest size → digest ∈ first.blobs) : Adds R first first :=
  ⟨rfl, rfl, Records.refl h, fun h => h, fun h => h⟩

theorem trans (h : Adds R first middle) (h' : Adds S middle last) :
    Adds (fun digest size => R digest size ∨ S digest size) first last where
  tags := h'.tags.trans h.tags
  manifests := h'.manifests.trans h.manifests
  blobs := h.blobs.trans h'.blobs
  limit hlimit := h'.limit (h.limit hlimit)
  digests hdigests := h'.digests (h.digests hdigests)

theorem congr (h : Adds R first last) (hRS : ∀ digest size, R digest size ↔ S digest size) :
    Adds S first last :=
  ⟨h.tags, h.manifests, h.blobs.congr hRS, h.limit, h.digests⟩

end Adds

theorem validDigest_eq {digest : String} : validDigest digest = isSha256 digest := by
  unfold validDigest ContentDigest.parse ensure
  cases isSha256 digest <;> rfl

theorem insertBlob_adds {plan plan' : DeletionPlan} {digest repo : String} {size : UInt64}
    (hdigest : isSha256 digest = true) (h : insertBlob plan digest size repo = .ok plan') :
    Adds (fun blob bytes => digest = blob ∧ size = bytes) plan plan' := by
  simp only [insertBlob, bind_eq_ok, ensure_eq_ok, pure_eq_ok] at h
  obtain ⟨_, hroom, rfl⟩ := h
  refine ⟨rfl, rfl, (Records.orInsert _ _ _).congr fun blob bytes => by
    rw [eq_comm, eq_comm (a := bytes)], ?_, ?_⟩
  · intro hlimit
    by_cases hmem : digest ∈ plan.blobs
    · rw [HashMap.orInsert, if_pos hmem]
      exact hlimit
    · have hlt : plan.blobs.size < maxDeletionBlobs := by
        by_contra hfull
        exact hroom ⟨by omega, hmem⟩
      rw [HashMap.orInsert, if_neg hmem, HashMap.size_insert_of_notMem hmem]
      exact hlt
  · intro hdigests blob hblob
    rcases HashMap.mem_orInsert.mp hblob with rfl | hold
    · exact hdigest
    · exact hdigests blob hold

theorem addBlob_adds {plan plan' : DeletionPlan} {digest target kind repo : String} {size : UInt64}
    (h : addBlob plan digest size target kind repo = .ok plan') :
    Adds (fun blob bytes => digest = blob ∧ size = bytes) plan plan' := by
  simp only [addBlob, bind_eq_ok, ensure_eq_ok, validDigest_eq] at h
  obtain ⟨_, hdigest, hinsert⟩ := h
  exact insertBlob_adds hdigest hinsert

theorem addNarBlobs_adds {plan plan' : DeletionPlan} {shard : ShardDataPayload}
    {target repo : String} (h : addNarBlobs plan shard target repo = .ok plan') :
    Adds (fun blob bytes => ∃ hash entry, shard.entries.lookup hash = some entry ∧
      entry.narDigest.val = blob ∧ entry.narSize = bytes) plan plan' := by
  suffices hfold : ∀ (entries : List IndexEntry) (plan : DeletionPlan),
      foldM (addNarBlob target repo) plan entries = .ok plan' →
      Adds (fun blob bytes => ∃ entry ∈ entries, entry.narDigest.val = blob ∧
        entry.narSize = bytes) plan plan' by
    refine (hfold _ _ h).congr fun blob bytes => ?_
    constructor
    · rintro ⟨entry, hmem, hparts⟩
      obtain ⟨hash, hlookup⟩ := HashMap.mem_values_iff.mp hmem
      exact ⟨hash, entry, hlookup, hparts⟩
    · rintro ⟨hash, entry, hlookup, hparts⟩
      exact ⟨entry, HashMap.mem_values_iff.mpr ⟨hash, hlookup⟩, hparts⟩
  intro entries
  induction entries with
  | nil =>
      intro plan h
      cases h
      exact Adds.refl (by simp)
  | cons entry entries ih =>
      intro plan h
      obtain ⟨next, hnext, hrest⟩ := bind_eq_ok.mp h
      simp only [addNarBlob, bind_eq_ok, ensure_eq_ok, validDigest_eq] at hnext
      obtain ⟨_, hdigest, hinsert⟩ := hnext
      refine ((insertBlob_adds hdigest hinsert).trans (ih next hrest)).congr fun blob bytes => ?_
      simp

/-! ## Layers -/

/-- The NAR blobs of the shards that count as decoded are in the plan. -/
def NarsKnown (X : OciCrates) (client : OciClient) (registry : Registry) (discovery : Discovery) :
    Prop :=
  ∀ digest ∈ discovery.decodedShardBlobs, ∀ blob size, registry.NarOf X client digest blob size →
    blob ∈ discovery.plan.blobs

/-- A part of an iteration that added exactly the blobs in `R` to the plan. -/
structure Collects (X : OciCrates) (client : OciClient) (registry : Registry)
    (R : String → UInt64 → Prop) (before after : Discovery) : Prop where
  adds : Adds R before.plan after.plan
  pending : after.pending = before.pending
  queued : after.queuedManifests = before.queuedManifests
  known : NarsKnown X client registry after

namespace Collects

variable {R S : String → UInt64 → Prop} {first middle last : Discovery}

theorem refl (hknown : NarsKnown X client registry first)
    (h : ∀ digest size, R digest size → digest ∈ first.plan.blobs) :
    Collects X client registry R first first :=
  ⟨Adds.refl h, rfl, rfl, hknown⟩

theorem trans (h : Collects X client registry R first middle)
    (h' : Collects X client registry S middle last) :
    Collects X client registry (fun digest size => R digest size ∨ S digest size) first last :=
  ⟨h.adds.trans h'.adds, h'.pending.trans h.pending, h'.queued.trans h.queued, h'.known⟩

theorem congr (h : Collects X client registry R first last)
    (hRS : ∀ digest size, R digest size ↔ S digest size) : Collects X client registry S first last :=
  ⟨h.adds.congr hRS, h.pending, h.queued, h.known⟩

end Collects

/-- Blobs that are added to the plan and nothing else. -/
theorem collects_of_adds {R : String → UInt64 → Prop} {discovery : Discovery} {plan : DeletionPlan}
    (h : Adds R discovery.plan plan) (hknown : NarsKnown X client registry discovery) :
    Collects X client registry R discovery { discovery with plan := plan } :=
  ⟨h, rfl, rfl, fun digest hdigest blob size hnar =>
    h.blobs.mem (hknown digest hdigest blob size hnar)⟩

/-- A loop adds what its iterations add. -/
theorem collects_foldM {α : Type} {f : Discovery → α → Deletion Discovery}
    {R : α → String → UInt64 → Prop} {items : List α} {start final : Discovery}
    (h : (Action.foldM f start items).Runs trace (.ok final))
    (hknown : NarsKnown X client registry start)
    (hstep : ∀ item ∈ items, ∀ state next t, t.Sublist trace →
      NarsKnown X client registry state → (f state item).Runs t (.ok next) →
      Collects X client registry (R item) state next) :
    Collects X client registry (fun digest size => ∃ item ∈ items, R item digest size) start
      final := by
  refine Action.runs_foldM_ok (I := fun done state => Collects X client registry
    (fun digest size => ∃ item ∈ done, R item digest size) start state) h
    (Collects.refl hknown (by simp)) ?_
  intro done item state next t hdone hstate hsub hrun
  have hmem : item ∈ items := hdone.subset (by simp)
  refine (hstate.trans (hstep item hmem state next t hsub hstate.known hrun)).congr fun digest size => ?_
  simp [or_and_right, exists_or]

theorem narOf_iff {digest blob : String} {size : UInt64} {payload : ShardDataPayload}
    (h : registry.shardAt X client digest = some payload) :
    registry.NarOf X client digest blob size ↔ ∃ hash entry,
      payload.entries.lookup hash = some entry ∧ entry.narDigest.val = blob ∧ entry.narSize = size := by
  constructor
  · rintro ⟨found, hash, entry, hfound, hparts⟩
    rw [h, Option.some.injEq] at hfound
    exact ⟨hash, entry, hfound ▸ hparts⟩
  · rintro ⟨hash, entry, hparts⟩
    exact ⟨payload, hash, entry, h, hparts⟩

theorem decodedAt_eq {α : Type} {decode : Json → Except JsonError α} {digest mediaType : String}
    {blob : Bytes} {decoded : DecodedIndex α} (hblob : registry.blobs digest = some blob)
    (hdecoded : IndexCodec.decodeZstd X decode blob mediaType
      client.limits.maxIndexUncompressedBytes = .ok decoded) :
    registry.decodedAt X client decode digest mediaType = some decoded.value := by
  rw [Registry.decodedAt, hblob, Option.bind_some, hdecoded]
  rfl

theorem collects_discoverShard {system : SystemArch} {rootDigest : String} {shard : ShardDescriptor}
    {discovery next : Discovery}
    (h : (discoverShard X client system rootDigest discovery shard).Runs trace (.ok next))
    (hunchanged : Unchanged X registry trace) (hknown : NarsKnown X client registry discovery) :
    Collects X client registry (registry.ShardRefers X client shard) discovery next := by
  unfold discoverShard at h
  by_cases hcount : shard.entryCount = 0
  · rw [if_pos hcount, Action.runs_pure, Except.ok.injEq] at h
    obtain ⟨_, rfl⟩ := h
    exact Collects.refl hknown fun _ _ hrefers => absurd hcount hrefers.1
  · rw [if_neg hcount, Action.runs_ofExcept_bind_ok] at h
    obtain ⟨plan, hplan, h⟩ := h
    have hadds := addBlob_adds hplan
    by_cases hdecoded : shard.blobDigest ∈ discovery.decodedShardBlobs
    · rw [if_pos hdecoded, Action.runs_pure, Except.ok.injEq] at h
      obtain ⟨_, rfl⟩ := h
      -- the entries were added when the blob was decoded first
      have hold : Collects X client registry (registry.NarOf X client shard.blobDigest) discovery
          discovery := Collects.refl hknown (hknown _ hdecoded)
      refine (hold.trans (collects_of_adds hadds hknown)).congr fun blob size => ?_
      rw [Registry.ShardRefers, or_comm]
      exact ⟨fun hrefers => ⟨hcount, hrefers⟩, And.right⟩
    · rw [if_neg hdecoded] at h
      obtain ⟨before, after, shardData, rfl, hget, h⟩ := Action.runs_bind_ok.mp h
      rw [Action.runs_ofExcept_bind_ok] at h
      obtain ⟨plan', hplan', h⟩ := h
      rw [Action.runs_pure, Except.ok.injEq] at h
      obtain ⟨_, rfl⟩ := h
      obtain ⟨trace', hread, hshows⟩ := runs_discover_ok hget hunchanged.left
      obtain ⟨bytes, decoded, hbytes, hdecode, rfl⟩ :=
        IndexClient.shard_of_getShardData hcount hread hshows
      have hshard : registry.shardAt X client shard.blobDigest = some decoded.value :=
        decodedAt_eq hbytes hdecode
      have hadds' : Adds (registry.NarOf X client shard.blobDigest) plan plan' :=
        (addNarBlobs_adds hplan').congr fun blob size => (narOf_iff hshard).symm
      have hboth := hadds.trans hadds'
      refine ⟨hboth.congr fun blob size => ?_, rfl, rfl, ?_⟩
      · exact ⟨fun hrefers => ⟨hcount, hrefers⟩, And.right⟩
      · intro digest hdigest blob size hnar
        rcases Finset.mem_insert.mp hdigest with rfl | hdigest
        · exact hadds'.blobs.offered blob size hnar
        · exact hboth.blobs.mem (hknown digest hdigest blob size hnar)

theorem parse_eq_none {mediaType : String} (h : CacheLayerMediaType.parse mediaType = none) :
    mediaType ≠ rootIndexV8Zstd ∧ mediaType ≠ shardDataV8Zstd := by
  unfold CacheLayerMediaType.parse at h
  constructor
  · rintro rfl
    simp at h
  · rintro rfl
    rw [if_neg (by decide)] at h
    simp at h

theorem eq_of_parse {mediaType : String} {layerType : CacheLayerMediaType}
    (h : CacheLayerMediaType.parse mediaType = some layerType) :
    mediaType = layerType.asStr := by
  unfold CacheLayerMediaType.parse at h
  split at h
  · cases h
    assumption
  · split at h
    · cases h
      assumption
    · cases h

theorem collects_discoverLayer {digest : String} {manifest : OciImageManifest}
    {layer : OciDescriptor} {discovery next : Discovery}
    (h : (discoverLayer X client digest manifest discovery layer).Runs trace (.ok next))
    (hunchanged : Unchanged X registry trace) (hknown : NarsKnown X client registry discovery) :
    Collects X client registry (registry.LayerRefers X client layer) discovery next := by
  unfold discoverLayer at h
  rw [Action.runs_ofExcept_bind_ok] at h
  obtain ⟨plan, hplan, h⟩ := h
  have hown := collects_of_adds (addBlob_adds hplan) hknown
  cases hparse : CacheLayerMediaType.parse layer.mediaType with
  | none =>
      rw [hparse] at h
      obtain ⟨_, hnext⟩ := h
      obtain ⟨hroot, hshard⟩ := parse_eq_none hparse
      rw [Except.ok.inj hnext]
      refine hown.congr fun blob size => ?_
      simp only [Registry.LayerRefers, hroot, hshard, false_and, or_false]
  | some layerType =>
      rw [hparse] at h
      obtain ⟨before, after, layerBytes, rfl, hget, h⟩ := Action.runs_bind_ok.mp h
      obtain ⟨trace', hread, hshows⟩ := runs_discover_ok hget hunchanged.left
      have hblob := BlobClient.blobs_of_getDescriptor hread hshows
      cases layerType with
      | rootIndexV8Zstd =>
          have hmedia : layer.mediaType = rootIndexV8Zstd := eq_of_parse hparse
          simp only [discoverRootLayer, Action.runs_ofExcept_bind_ok, mapErr_eq_ok] at h
          obtain ⟨decoded, hdecode, _, _, hfold⟩ := h
          have hroot : registry.rootAt X client layer.digest = some decoded.value :=
            decodedAt_eq hblob (hmedia ▸ hdecode)
          have hshards := collects_foldM hfold hown.known fun shard _ state next t hsub hstate hrun =>
            collects_discoverShard hrun (hunchanged.right.sublist hsub) hstate
          refine (hown.trans hshards).congr fun blob size => ?_
          simp only [Registry.LayerRefers, hmedia, hroot, true_and, Option.some.injEq,
            exists_eq_left', show rootIndexV8Zstd ≠ shardDataV8Zstd by decide, false_and, or_false]
      | shardDataV8Zstd =>
          have hmedia : layer.mediaType = shardDataV8Zstd := eq_of_parse hparse
          simp only [Action.runs_ofExcept] at h
          obtain ⟨_, h⟩ := h
          have h := h.symm
          simp only [discoverShardLayer, bind_eq_ok, mapErr_eq_ok, pure_eq_ok] at h
          obtain ⟨decoded, hdecode, _, _, _, _, plan', hplan', rfl⟩ := h
          have hshard : registry.shardAt X client layer.digest = some decoded.value :=
            decodedAt_eq hblob (hmedia ▸ hdecode)
          have hnars : Adds (registry.NarOf X client layer.digest) plan plan' :=
            (addNarBlobs_adds hplan').congr fun blob size => (narOf_iff hshard).symm
          refine (hown.trans (collects_of_adds hnars hown.known)).congr fun blob size => ?_
          simp only [Registry.LayerRefers, hmedia, true_and,
            show shardDataV8Zstd ≠ rootIndexV8Zstd by decide, false_and, false_or]

/-! ## Queueing -/

/-- The digests that the queue holds. -/
def waiting (discovery : Discovery) : List String := discovery.pending.map Prod.fst

/-- What holds of the queue: it holds the queued manifests that are not in the plan yet, each once
and with the text that the registry has for it. -/
structure Queued (registry : Registry) (discovery : Discovery) : Prop where
  nodup : (waiting discovery).Nodup
  fresh : ∀ digest ∈ waiting discovery, digest ∉ discovery.plan.manifests
  mem : ∀ digest, digest ∈ discovery.queuedManifests ↔
    digest ∈ discovery.plan.manifests ∨ digest ∈ waiting discovery
  bodies : ∀ entry ∈ discovery.pending, registry.lookup entry.1 = some (Str.asBytes entry.2)
  count : discovery.plan.manifests.size + discovery.pending.length = discovery.queuedManifests.card
  limit : discovery.queuedManifests.card ≤ maxDeletionManifests

theorem Queued.queue {discovery : Discovery} {digest body : String}
    (h : Queued registry discovery) (hnew : digest ∉ discovery.queuedManifests)
    (hroom : discovery.queuedManifests.card < maxDeletionManifests)
    (hbody : registry.lookup digest = some (Str.asBytes body)) :
    Queued registry (discovery.queue digest body) := by
  rw [h.mem, not_or] at hnew
  have hwaiting : waiting (discovery.queue digest body) = waiting discovery ++ [digest] := by
    simp [waiting, Discovery.queue]
  have hcard : (insert digest discovery.queuedManifests).card = discovery.queuedManifests.card + 1 :=
    Finset.card_insert_of_notMem (by rwa [h.mem, not_or])
  refine ⟨?_, ?_, ?_, ?_, ?_, ?_⟩
  · rw [hwaiting, List.nodup_append_comm, List.singleton_append, List.nodup_cons]
    exact ⟨hnew.2, h.nodup⟩
  · intro other hother
    rw [hwaiting, List.mem_append, List.mem_singleton] at hother
    rcases hother with hother | rfl
    · exact h.fresh other hother
    · exact hnew.1
  · intro other
    change other ∈ insert digest discovery.queuedManifests ↔
      other ∈ discovery.plan.manifests ∨ other ∈ waiting (discovery.queue digest body)
    rw [hwaiting, List.mem_append, List.mem_singleton, ← or_assoc, ← h.mem, or_comm]
    exact Finset.mem_insert
  · intro entry hentry
    rcases List.mem_append.mp hentry with hentry | hentry
    · exact h.bodies entry hentry
    · rw [List.mem_singleton.mp hentry]
      exact hbody
  · have hcount := h.count
    simp only [Discovery.queue, List.length_append, List.length_singleton, hcard]
    omega
  · change (insert digest discovery.queuedManifests).card ≤ maxDeletionManifests
    omega

theorem Queued.congr {discovery next : Discovery} (h : Queued registry discovery)
    (hmanifests : next.plan.manifests = discovery.plan.manifests)
    (hpending : next.pending = discovery.pending)
    (hqueued : next.queuedManifests = discovery.queuedManifests) : Queued registry next := by
  have hwaiting : waiting next = waiting discovery := by rw [waiting, hpending, waiting]
  refine ⟨?_, ?_, ?_, ?_, ?_, ?_⟩
  · rw [hwaiting]
    exact h.nodup
  · rw [hwaiting, hmanifests]
    exact h.fresh
  · rw [hwaiting, hmanifests, hqueued]
    exact h.mem
  · rw [hpending]
    exact h.bodies
  · rw [hmanifests, hpending, hqueued]
    exact h.count
  · rw [hqueued]
    exact h.limit

/-- A part of the discovery that queued the manifests in `C`, unless they were queued before. -/
structure Queues (registry : Registry) (C : String → Prop) (before after : Discovery) : Prop where
  plan : after.plan = before.plan
  decoded : after.decodedShardBlobs = before.decodedShardBlobs
  mem : ∀ digest, digest ∈ after.queuedManifests ↔ digest ∈ before.queuedManifests ∨ C digest
  queued : Queued registry after

namespace Queues

variable {C D : String → Prop} {first middle last : Discovery}

theorem refl (hqueued : Queued registry first) (h : ∀ digest, C digest → digest ∈ first.queuedManifests) :
    Queues registry C first first :=
  ⟨rfl, rfl, fun digest => ⟨Or.inl, fun hor => hor.elim id (h digest)⟩, hqueued⟩

theorem trans (h : Queues registry C first middle) (h' : Queues registry D middle last) :
    Queues registry (fun digest => C digest ∨ D digest) first last :=
  ⟨h'.plan.trans h.plan, h'.decoded.trans h.decoded, fun digest => by
    rw [h'.mem, h.mem, or_assoc], h'.queued⟩

theorem congr (h : Queues registry C first last) (hCD : ∀ digest, C digest ↔ D digest) :
    Queues registry D first last :=
  ⟨h.plan, h.decoded, fun digest => by rw [h.mem, hCD], h.queued⟩

end Queues

theorem queues_queue {discovery : Discovery} {digest body : String}
    (h : Queued registry discovery) (hnew : digest ∉ discovery.queuedManifests)
    (hroom : discovery.queuedManifests.card < maxDeletionManifests)
    (hbody : registry.lookup digest = some (Str.asBytes body)) :
    Queues registry (digest = ·) discovery (discovery.queue digest body) :=
  ⟨rfl, rfl, fun other => by
    rw [or_comm, eq_comm]
    exact Finset.mem_insert, h.queue hnew hroom hbody⟩

/-- A loop queues what its iterations queue. -/
theorem queues_foldM {α : Type} {f : Discovery → α → Deletion Discovery} {C : α → String → Prop}
    {items : List α} {start final : Discovery}
    (h : (Action.foldM f start items).Runs trace (.ok final)) (hqueued : Queued registry start)
    (hstep : ∀ item ∈ items, ∀ state next t, t.Sublist trace → Queued registry state →
      (f state item).Runs t (.ok next) → Queues registry (C item) state next) :
    Queues registry (fun digest => ∃ item ∈ items, C item digest) start final := by
  refine Action.runs_foldM_ok (I := fun done state =>
    Queues registry (fun digest => ∃ item ∈ done, C item digest) start state) h
    (Queues.refl hqueued (by simp)) ?_
  intro done item state next t hdone hstate hsub hrun
  have hmem : item ∈ items := hdone.subset (by simp)
  refine (hstate.trans (hstep item hmem state next t hsub hstate.queued hrun)).congr fun digest => ?_
  simp [or_and_right, exists_or]

theorem queues_queueChild {digest : String} {descriptor : OciDescriptor}
    {discovery next : Discovery}
    (h : (queueChild X client digest discovery descriptor).Runs trace (.ok next))
    (hunchanged : Unchanged X registry trace) (hqueued : Queued registry discovery) :
    Queues registry (descriptor.digest = ·) discovery next := by
  simp only [queueChild, Action.runs_ofExcept_bind_ok] at h
  obtain ⟨_, _, _, _, h⟩ := h
  by_cases hold : descriptor.digest ∈ discovery.queuedManifests
  · rw [if_pos hold, Action.runs_pure, Except.ok.injEq] at h
    obtain ⟨_, rfl⟩ := h
    exact Queues.refl hqueued fun other hother => hother ▸ hold
  · rw [if_neg hold, Action.runs_ofExcept_bind_ok] at h
    obtain ⟨_, hroom, h⟩ := h
    obtain ⟨before, after, found, rfl, hget, h⟩ := Action.runs_bind_ok.mp h
    simp only [Action.runs_ofExcept_bind_ok, okOr_eq_ok, Action.runs_pure, Except.ok.injEq] at h
    obtain ⟨found', rfl, _, rfl⟩ := h
    obtain ⟨trace', hread, hshows⟩ := runs_discover_ok hget hunchanged.left
    have hlookup := (ManifestClient.lookup_of_getWithExpectedSize hread hshows).1
    exact queues_queue hqueued hold (ensure_eq_ok.mp hroom) hlookup

/-! ## The traversal -/

/-- What holds between two iterations. -/
structure Traversal (X : OciCrates) (client : OciClient) (registry : Registry) (tags : List String)
    (discovery : Discovery) : Prop where
  planTags : discovery.plan.tags = tags
  queued : Queued registry discovery
  reached : ∀ digest ∈ discovery.queuedManifests,
    Reaches (registry.childDigests X) (registry.taggedDigests X tags) digest
  seeded : ∀ digest ∈ registry.taggedDigests X tags, digest ∈ discovery.queuedManifests
  closed : ∀ digest ∈ discovery.plan.manifests, ∀ child ∈ registry.childDigests X digest,
    child ∈ discovery.queuedManifests
  bodies : ∀ digest body, discovery.plan.manifests.lookup digest = some body →
    registry.lookup digest = some (Str.asBytes body)
  blobs : Records (fun blob size => ∃ digest ∈ discovery.plan.manifests,
    registry.Refers X client digest blob size) ∅ discovery.plan.blobs
  known : NarsKnown X client registry discovery
  limit : discovery.plan.blobs.size ≤ maxDeletionBlobs
  digests : ∀ digest ∈ discovery.plan.blobs, isSha256 digest = true

theorem manifestAt_eq {digest body : String} {artifact : OciArtifactManifest}
    (hlookup : registry.lookup digest = some (Str.asBytes body))
    (hparse : parseDiscoveredManifest X body digest = .ok artifact) :
    registry.manifestAt X digest = some artifact := by
  have hutf : Str.fromUtf8 (Str.asBytes body) = some body := Str.fromUtf8_eq_some.mpr rfl
  rw [Registry.manifestAt, hlookup, Option.bind_some, hutf, Option.bind_some, hparse]
  rfl

/-- The state in which the manifest that left the queue is read. -/
def taken (discovery : Discovery) (digest body : String) (pending : List (String × String)) :
    Discovery :=
  { discovery with
    plan := { discovery.plan with manifests := discovery.plan.manifests.insert digest body }
    pending := pending }

theorem Queued.taken {discovery : Discovery} {digest body : String}
    {pending : List (String × String)} (h : Queued registry discovery)
    (hpending : discovery.pending = (digest, body) :: pending) :
    Queued registry (taken discovery digest body pending) := by
  have hwaiting : waiting discovery = digest :: pending.map Prod.fst := by
    rw [waiting, hpending, List.map_cons]
  have hnodup := h.nodup
  rw [hwaiting, List.nodup_cons] at hnodup
  have hnew : digest ∉ discovery.plan.manifests := h.fresh digest (by simp [hwaiting])
  refine ⟨hnodup.2, ?_, ?_, ?_, ?_, h.limit⟩
  · intro other hother hmem
    rcases AList.mem_insert _ |>.mp hmem with rfl | hmem
    · exact hnodup.1 hother
    · exact h.fresh other (by simp only [hwaiting, List.mem_cons]; exact Or.inr hother) hmem
  · intro other
    rw [show (DeletionClient.taken discovery digest body pending).queuedManifests =
      discovery.queuedManifests from rfl, h.mem, hwaiting, List.mem_cons]
    change _ ↔ other ∈ discovery.plan.manifests.insert digest body ∨ other ∈ pending.map Prod.fst
    rw [AList.mem_insert]
    tauto
  · intro entry hentry
    exact h.bodies entry (by rw [hpending]; exact List.mem_cons_of_mem _ hentry)
  · have hcount := h.count
    rw [hpending, List.length_cons] at hcount
    change HashMap.size (discovery.plan.manifests.insert digest body) + pending.length =
      discovery.queuedManifests.card
    rw [HashMap.size_insert_of_notMem hnew]
    omega

/-- What reading the manifest with a digest did: its children are queued, and the blobs that it
refers to are in the plan. -/
structure Expands (X : OciCrates) (client : OciClient) (registry : Registry) (digest : String)
    (before after : Discovery) : Prop where
  adds : Adds (registry.Refers X client digest) before.plan after.plan
  mem : ∀ other, other ∈ after.queuedManifests ↔
    other ∈ before.queuedManifests ∨ other ∈ registry.childDigests X digest
  queued : Queued registry after
  known : NarsKnown X client registry after

theorem expands_discoverIndex {digest : String} {index : OciImageIndex} {discovery next : Discovery}
    (hat : registry.manifestAt X digest = some (.index index))
    (hrun : (discoverArtifact X client digest (.index index) discovery).Runs trace (.ok next))
    (hunchanged : Unchanged X registry trace) (hqueued : Queued registry discovery)
    (hknown : NarsKnown X client registry discovery) :
    Expands X client registry digest discovery next := by
  have hqueues := queues_foldM (C := fun descriptor other => descriptor.digest = other) hrun
    hqueued fun descriptor _ state next t hsub hstate hrun =>
      queues_queueChild hrun (hunchanged.sublist hsub) hstate
  refine ⟨?_, ?_, hqueues.queued, ?_⟩
  · rw [hqueues.plan]
    apply Adds.refl
    rintro blob size ⟨manifest, hmanifest, _⟩
    rw [hat] at hmanifest
    cases hmanifest
  · intro other
    simp only [hqueues.mem, Registry.childDigests, hat, List.mem_map]
  · intro shard hshard
    rw [hqueues.decoded] at hshard
    rw [hqueues.plan]
    exact hknown shard hshard

theorem expands_discoverManifest {digest : String} {manifest : OciImageManifest}
    {discovery next : Discovery} (hat : registry.manifestAt X digest = some (.manifest manifest))
    (hrun : (discoverArtifact X client digest (.manifest manifest) discovery).Runs trace (.ok next))
    (hunchanged : Unchanged X registry trace) (hqueued : Queued registry discovery)
    (hknown : NarsKnown X client registry discovery) :
    Expands X client registry digest discovery next := by
  simp only [discoverArtifact, Action.runs_ofExcept_bind_ok] at hrun
  obtain ⟨plan, hplan, hrun⟩ := hrun
  have hconfig := collects_of_adds (addBlob_adds hplan) hknown
  have hcollects := hconfig.trans <| collects_foldM hrun hconfig.known
    fun layer _ state next t hsub hstate hrun =>
      collects_discoverLayer hrun (hunchanged.sublist hsub) hstate
  refine ⟨hcollects.adds.congr fun blob size => ?_, ?_, ?_, hcollects.known⟩
  · simp only [Registry.Refers, hat, Option.some.injEq, OciArtifactManifest.manifest.injEq,
      exists_eq_left']
  · intro other
    simp only [hcollects.queued, Registry.childDigests, hat, List.not_mem_nil, or_false]
  · exact hqueued.congr hcollects.adds.manifests hcollects.pending hcollects.queued

/-- An iteration keeps the invariant and adds one manifest to the plan. -/
theorem Traversal.next {tags : List String} {discovery next : Discovery} {digest body : String}
    {pending : List (String × String)} (h : Traversal X client registry tags discovery)
    (hpending : discovery.pending = (digest, body) :: pending)
    (hrun : (discoverNext X client digest body { discovery with pending := pending }).Runs trace
      (.ok next))
    (hunchanged : Unchanged X registry trace) :
    Traversal X client registry tags next ∧
      next.plan.manifests.size = discovery.plan.manifests.size + 1 := by
  have hwaiting : digest ∈ waiting discovery := by
    rw [waiting, hpending]
    exact List.mem_cons_self
  have hnew := h.queued.fresh digest hwaiting
  have hqueued : digest ∈ discovery.queuedManifests := (h.queued.mem digest).mpr (Or.inr hwaiting)
  have hlookup : registry.lookup digest = some (Str.asBytes body) :=
    h.queued.bodies (digest, body) (by rw [hpending]; exact List.mem_cons_self)
  simp only [discoverNext, hnew, if_false, Action.runs_ofExcept_bind_ok] at hrun
  obtain ⟨_, _, artifact, hparse, hrun⟩ := hrun
  have hat := manifestAt_eq hlookup hparse
  have hexpands : Expands X client registry digest (taken discovery digest body pending) next := by
    cases artifact with
    | index index => exact expands_discoverIndex hat hrun hunchanged (h.queued.taken hpending) h.known
    | manifest manifest =>
        exact expands_discoverManifest hat hrun hunchanged (h.queued.taken hpending) h.known
  have hmanifests : next.plan.manifests = discovery.plan.manifests.insert digest body :=
    hexpands.adds.manifests
  have hmem : ∀ other, other ∈ next.plan.manifests ↔
      other = digest ∨ other ∈ discovery.plan.manifests := by
    intro other
    rw [hmanifests]
    exact AList.mem_insert _
  have hold : ∀ other, other ∈ discovery.queuedManifests → other ∈ next.queuedManifests :=
    fun other hother => (hexpands.mem other).mpr (Or.inl hother)
  refine ⟨⟨?_, hexpands.queued, ?_, fun other hother => hold other (h.seeded other hother), ?_, ?_,
    ?_, hexpands.known, hexpands.adds.limit h.limit, hexpands.adds.digests h.digests⟩, ?_⟩
  · exact hexpands.adds.tags.trans h.planTags
  · intro other hother
    rcases (hexpands.mem other).mp hother with hbefore | hchild
    · exact h.reached other hbefore
    · exact (h.reached digest hqueued).step hchild
  · intro other hother child hchild
    rcases (hmem other).mp hother with rfl | hother
    · exact (hexpands.mem child).mpr (Or.inr hchild)
    · exact hold child (h.closed other hother child hchild)
  · intro other text htext
    rw [hmanifests] at htext
    rcases eq_or_ne other digest with rfl | hne
    · rw [AList.lookup_insert, Option.some.injEq] at htext
      rw [← htext]
      exact hlookup
    · rw [AList.lookup_insert_ne hne] at htext
      exact h.bodies other text htext
  · refine (h.blobs.trans hexpands.adds.blobs).congr fun blob size => ?_
    simp only [hmem, or_and_right, exists_or, exists_eq_left]
    exact or_comm
  · rw [hmanifests]
    exact HashMap.size_insert_of_notMem hnew

/-- A loop that returned has emptied the queue. -/
theorem Traversal.run {tags : List String} {fuel : Nat} {discovery final : Discovery}
    (h : Traversal X client registry tags discovery)
    (hfuel : maxDeletionManifests ≤ fuel + discovery.plan.manifests.size)
    (hrun : (run X client fuel discovery).Runs trace (.ok final))
    (hunchanged : Unchanged X registry trace) :
    Traversal X client registry tags final ∧ final.pending = [] := by
  induction fuel generalizing discovery trace with
  | zero =>
      obtain ⟨_, hfinal⟩ := hrun
      rw [Except.ok.inj hfinal]
      have hcount := h.queued.count
      have hlimit := h.queued.limit
      exact ⟨h, List.length_eq_zero_iff.mp (by omega)⟩
  | succ fuel ih =>
      unfold DeletionClient.run at hrun
      cases hpending : discovery.pending with
      | nil =>
          rw [hpending] at hrun
          obtain ⟨_, hfinal⟩ := hrun
          rw [Except.ok.inj hfinal]
          exact ⟨h, hpending⟩
      | cons entry pending =>
          obtain ⟨digest, body⟩ := entry
          rw [hpending] at hrun
          obtain ⟨before, after, next, rfl, hnext, hrest⟩ := Action.runs_bind_ok.mp hrun
          obtain ⟨hinv, hsize⟩ := h.next hpending hnext hunchanged.left
          exact ih hinv (by omega) hrest hunchanged.right

/-! ## Tags -/

/-- Each page of tags in the trace is a page of the catalog, and one with fewer than 100 tags leaves
none out. -/
def Lists (X : OciCrates) (client : OciClient) (catalog : Catalog String)
    (trace : Trace DeletionRequest Reply) : Prop :=
  ∀ cursor reply page, (DeletionRequest.tags (.getTags cursor), reply) ∈ trace →
    ManifestClient.Carries X client cursor reply page →
    catalog.IsPage TagList.pageSize cursor page (ManifestClient.announcesMore reply) ∧
      (page.length < TagList.pageSize → page = catalog.after cursor)

theorem Lists.sublist {catalog : Catalog String} {trace' : Trace DeletionRequest Reply}
    (h : Lists X client catalog trace) (hsub : trace'.Sublist trace) :
    Lists X client catalog trace' :=
  fun cursor reply page hmem => h cursor reply page (hsub.subset hmem)

theorem sortedTags_items (catalog : Catalog String) : sortedTags catalog.items = catalog.items := by
  have hsorted : ([] ++ catalog.items).Pairwise (· < ·) := catalog.sorted
  exact ManifestClient.Listing.mergeTags_eq hsorted

/-- The plan is what the tags reach in the registry. -/
structure IsExact (X : OciCrates) (client : OciClient) (registry : Registry)
    (plan : DeletionPlan) : Prop where
  manifests : ∀ digest, digest ∈ plan.manifests ↔
    Reaches (registry.childDigests X) (registry.taggedDigests X plan.tags) digest
  bodies : ∀ digest body, plan.manifests.lookup digest = some body →
    registry.lookup digest = some (Str.asBytes body)
  blobs : ∀ blob, blob ∈ plan.blobs ↔
    ∃ digest ∈ plan.manifests, ∃ size, registry.Refers X client digest blob size
  sizes : ∀ blob size, plan.blobs.lookup blob = some size →
    ∃ digest ∈ plan.manifests, registry.Refers X client digest blob size
  digests : ∀ blob ∈ plan.blobs, isSha256 blob = true
  manifestLimit : plan.manifests.size ≤ maxDeletionManifests
  blobLimit : plan.blobs.size ≤ maxDeletionBlobs

/-- The invariant of the traversal, once the queue is empty. -/
theorem Traversal.exact {tags : List String} {discovery : Discovery}
    (h : Traversal X client registry tags discovery) (hpending : discovery.pending = []) :
    IsExact X client registry discovery.plan := by
  have hwaiting : waiting discovery = [] := by rw [waiting, hpending, List.map_nil]
  have hmem : ∀ digest, digest ∈ discovery.queuedManifests ↔ digest ∈ discovery.plan.manifests := by
    intro digest
    rw [h.queued.mem, hwaiting]
    simp
  have hcount := h.queued.count
  have hlimit := h.queued.limit
  refine ⟨?_, h.bodies, ?_, ?_, h.digests, by omega, h.limit⟩
  · intro digest
    rw [h.planTags, ← hmem]
    refine ⟨h.reached digest, fun hreaches => hreaches.mem_of_closed h.seeded ?_⟩
    intro parent hparent child hchild
    exact h.closed parent ((hmem parent).mp hparent) child hchild
  · intro blob
    rw [h.blobs.mem_iff]
    constructor
    · rintro ⟨size, digest, hdigest, hrefers⟩
      exact ⟨digest, hdigest, size, hrefers⟩
    · rintro ⟨digest, hdigest, size, hrefers⟩
      exact ⟨size, digest, hdigest, hrefers⟩
  · intro blob size hlookup
    rcases h.blobs.source blob size hlookup with hempty | hrefers
    · cases hempty
    · exact hrefers

end DeletionClient

end NixCache.Oci
