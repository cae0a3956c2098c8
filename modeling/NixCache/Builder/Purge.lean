import NixCache.Builder.Promote
import NixCache.Core.Purge
/-!
# Purging the published index

`nixcache-builder/src/purge.rs` without `--all`, and the blob deletion it ends with from
`nixcache-oci/src/client/deletion/operations.rs`.  The selector that the command line and the flake
outputs resolve to is an argument, and so is the order in which a set or a map of systems is
iterated.
-/

namespace NixCache.Builder

open NixCache.Lib NixCache.Lib.Result NixCache.Core NixCache.Oci

def cacheIndexTag : String := "cache-index"

/-- The arguments of `run_purge` after the environment was consulted. -/
structure PurgeArgs where
  repo : String
  registry : String
  dryRun : Bool
  deleteBlobs : Bool
  strictMode : Bool
  selector : Except BuilderError CacheSelector
  detected : SystemArch
  clock : Clock
  iterate : List SystemArch → List SystemArch

/-- One architecture with all its entries. -/
structure LoadedArch where
  system : SystemArch
  root : ShardedArchCacheIndexData
  entries : HashMap StoreHash IndexEntry

/-! ## Blob deletion -/

/-- `delete_blob_strict`. -/
def deleteBlob (X : OciCrates) (client : OciClient) (target : PurgedBlob) : Exchange Unit := do
  Action.ofExcept <| ensure client.capabilities.supportsBlobPhysicalDeletion
    (.operationNotSupported "delete_blob" client.kind
      ("Backend '" ++ client.kind.text ++ "' does not support standalone physical OCI blob " ++
        "deletion. Blobs are automatically reclaimed with package/version removal."))
  let digest := target.digest.val
  let fetched ← requestDeleteWithAuthRetry X (.deleteBlob digest) "delete blob"
  let status := fetched.status
  let http := "HTTP " ++ toString status
  if isSuccess status ∨ status = 404 then pure ()
  else if status = 403 then
    Action.ofExcept (.error (.insufficientPermission digest "delete:blob"
      (http ++ " from registry when deleting blob " ++ digest)))
  else if status = 405 then
    Action.ofExcept (.error (.operationNotSupported "delete_blob" client.kind
      ("Registry returned 405 Method Not Allowed for blob deletion " ++ digest)))
  else
    Action.ofExcept (.error (.deletionFailed digest status
      (http ++ " when deleting blob " ++ digest)))

/-- `batch_delete_blobs`: the number of blobs that could not be deleted. -/
def batchDeleteBlobs (X : OciCrates) (client : OciClient) (targets : List PurgedBlob) :
    Exchange Nat := do
  let results ← Action.tryJoinAll (targets.map fun target =>
    Action.attempt (deleteBlob X client target))
  pure (results.countP fun result => !result.isOk)

section

variable (X : OciCrates) (client : OciClient) (args : PurgeArgs)

/-! ## Loading -/

def loadArch (system : SystemArch) : Step (Option LoadedArch) := do
  match ← liftOci (IndexClient.getShardedRoot X client cacheIndexTag system) with
  | none => pure none
  | some (root, _) => do
      let nonEmptyShards := root.shards.filter fun shard =>
        0 < shard.entryCount ∧ ¬ Str.isEmpty shard.blobDigest
      let payloads ← liftOci <| Action.tryJoinAll
        (nonEmptyShards.map fun descriptor => IndexClient.getShardData X client descriptor system)
      let entries := payloads.foldl (fun entries payload => entries.extend payload.entries) ∅
      pure (some ⟨system, root, entries⟩)

/-- The systems to load: those the existing index lists, else all. -/
def purgeTargets (artifact : Option FetchedOciArtifact) : List SystemArch :=
  let systems := (artifact.map fun artifact => artifactSystems args.detected artifact.manifest).getD []
  sortedSystems (if systems.isEmpty then SystemArch.all else systems)

def loadArchs : Step (List LoadedArch) := do
  let artifact ← Action.attempt (ManifestClient.fetchArtifact X client cacheIndexTag)
  let systems := args.iterate (purgeTargets args (artifact.toOption.getD none))
  let loaded ← Action.tryJoinAll (systems.map (loadArch X client))
  pure (loaded.filterMap id)

/-! ## Publishing -/

/-- One iteration of the loop over the shards. -/
def rewriteShard (partitioned : HashMap UInt16 (HashMap StoreHash IndexEntry)) (state : Compaction)
    (shardId : Nat) : Step Compaction :=
  match state.root.shards[shardId]? with
  | none => pure state
  | some descriptor =>
      let kept := (partitioned.lookup (UInt16.ofNat shardId)).getD ∅
      if kept.size = 0 then do
        let empty ← liftResult (ShardDescriptor.empty X.toCrates (UInt16.ofNat shardId))
        pure { state with
          root := { state.root with shards := state.root.shards.set shardId empty } }
      else if descriptor.entryCount.toNat ≠ kept.size then do
        let payload ← liftResult (ShardDataPayload.new (UInt16.ofNat shardId))
        replaceShard X client state shardId descriptor { payload with entries := kept }
      else pure state

/-- The root as it is pushed, once its shards are rewritten. -/
def finishPurgedRoot (system : SystemArch) (updatedRoots : List StoreHash)
    (root : ShardedArchCacheIndexData) : Except CoreError ShardedArchCacheIndexData := do
  let root := { root with gcRoots := updatedRoots }
  let root ← root.recalculateMerkleRoot X.toCrates
  pure { root with
    version := schemaVersionV8
    generated := args.clock.generated system }

/-- The future of one architecture. -/
def publishArch (result : PurgeEvaluationResult) (arch : LoadedArch) : Step Published := do
  let kept := arch.entries.filter fun hash => hash ∉ result.purgedHashes
  let state ← Action.foldM (rewriteShard X client (partitionEntriesByShard kept))
    ⟨arch.root, []⟩ (List.range numShards)
  let root ← liftResult (finishPurgedRoot X args arch.system
    ((result.updatedGcRoots.lookup arch.system).getD []) state.root)
  let subManifestDigest ← liftOci (IndexClient.pushShardedRoot X client
    (args.clock.created arch.system) (cacheIndexTag ++ "-" ++ arch.system.asStr) root)
  pure ⟨arch.system, some arch.root, state.pushed, root,
    subManifestDescriptor arch.system root subManifestDigest⟩

/-- The update of the top-level index. -/
def publishIndex (published : List Published) : Exchange Unit :=
  match client.capabilities.manifestCasSupport with
  | .ifMatch => IndexClient.updateCas X client cacheIndexTag 5 (replaceIndex args.clock published)
  | .unsupported =>
      IndexClient.updateSingleWriter X client cacheIndexTag (replaceIndex args.clock published)

/-- The physical deletion of the purged blobs. -/
def deletePurgedBlobs (result : PurgeEvaluationResult) : Step Unit :=
  if args.deleteBlobs ∧ result.purgedBlobs ≠ [] then
    if ¬ client.capabilities.supportsBlobPhysicalDeletion then
      Action.ofExcept <| ensure (¬ args.strictMode)
        (.oci (.operationNotSupported "delete_blob" client.kind
          ("Backend '" ++ client.kind.text ++ "' does not support standalone OCI blob deletion. " ++
            "Blobs are managed via package versions. To delete unused data on GHCR, use tag " ++
            "deletion or 'purge --all'.")))
    else do
      let failed ← liftOci (batchDeleteBlobs X client result.purgedBlobs)
      Action.ofExcept <| ensure (¬ (args.strictMode ∧ failed ≠ 0))
        (.oci (.deletionVerificationFailed (args.registry ++ "/" ++ args.repo)
          ("blob deletion was partial with " ++ toString failed ++ " failure(s)")))
  else pure ()

/-- What a purge did: what it loaded, what it selected and what it published. -/
structure PurgeReport where
  loaded : List LoadedArch
  purged : List StoreHash
  published : List Published

/-- `run_purge` with a client. -/
def purge : Step PurgeReport := do
  let loaded ← loadArchs X client args
  let allEntries := loaded.foldl (fun entries arch => entries.extend arch.entries) ∅
  let allGcRoots := loaded.foldl (fun roots arch => roots.insert arch.system arch.root.gcRoots)
    (∅ : HashMap SystemArch (List StoreHash))
  if allEntries.size = 0 then pure ⟨loaded, [], []⟩
  else do
    let selector ← Action.ofExcept args.selector
    let result ← liftResult (evaluateCachePurge X.toCrates allEntries allGcRoots selector)
    if result.purgedEntries.size = 0 ∨ args.dryRun then pure ⟨loaded, [], []⟩
    else do
      let published ← Action.tryJoinAll (loaded.map (publishArch X client args result))
      liftOci (publishIndex X client args published)
      deletePurgedBlobs X client args result
      pure ⟨loaded, result.purgedHashes, published⟩

end

/-- `run_purge`. -/
def runPurge (X : OciCrates) (args : PurgeArgs) : Step Unit := do
  let client ← Action.ofExcept <| mapErr .oci
    (OciClient.withTransport X args.registry args.repo {})
  let _ ← purge X client args
  pure ()

end NixCache.Builder
