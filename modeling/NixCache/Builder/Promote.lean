import NixCache.Oci.Index
/-!
# Promoting receipts

`nixcache-builder/src/promote.rs`, from the contents of the receipt files on.  The time, the build
system, `GITHUB_RUN_ID` and `SystemArch::detect_current` come from the environment and are arguments.
The step summary and the log are left out.
-/

namespace NixCache.Builder

open NixCache.Lib NixCache.Lib.Result NixCache.Core NixCache.Oci

/-- `BuilderError`, without the variants that no function modelled here raises. -/
inductive BuilderError where
  | core (error : CoreError)
  | oci (error : OciError)
  | cli (message : String)
  | nix (message : String)
deriving DecidableEq, Repr

/-- A step of the builder. -/
abbrev Step := Action Request Reply BuilderError

/-- `?` on an exchange with the registry. -/
def liftOci {α : Type} (exchange : Exchange α) : Step α := Action.mapErr .oci exchange

/-- `?` on a `Result<_, CoreError>`. -/
def liftResult {α : Type} (result : Except CoreError α) : Step α :=
  Action.ofExcept (mapErr .core result)

/-- The formatted values of `Utc::now` at the places that read it. -/
structure Clock where
  generated : SystemArch → String
  created : SystemArch → String
  published : Nat → String

/-- One architecture that was published: the descriptor of its sub-manifest, which is all the source
keeps, and what was written for it. -/
structure Published where
  system : SystemArch
  baseline : Option ShardedArchCacheIndexData
  pushed : List ShardDataPayload
  root : ShardedArchCacheIndexData
  descriptor : OciDescriptor

/-- The descriptor of a sub-manifest. -/
def subManifestDescriptor (system : SystemArch) (root : ShardedArchCacheIndexData)
    (subManifestDigest : String) : OciDescriptor :=
  ⟨ociImageManifestMediaType, subManifestDigest, 0, some (OciPlatform.fromSystem system),
    some (HashMap.ofList [(systemKey, system.asStr), (merkleRootKey, root.merkleRoot)])⟩

/-- The mutator of the top-level index: it replaces whatever is there. -/
def replaceIndex (clock : Clock) (published : List Published) : Mutator OciImageIndex :=
  fun history _ => .ok (buildImageIndex (clock.published history.length)
    (published.map Published.descriptor) "NixCache Multi-Architecture Global Index")

/-- The systems of a set, in their order. -/
def sortedSystems (systems : List SystemArch) : List SystemArch :=
  SystemArch.all.filter fun system => system ∈ systems

/-- The known systems that an artifact lists; a manifest stands for the system of the machine. -/
def artifactSystems (detected : SystemArch) : OciArtifactManifest → List SystemArch
  | .index index =>
      (index.manifests.filterMap fun descriptor => descriptor.platformSystem).filter
        SystemArch.isKnown
  | .manifest _ => if detected.isKnown then [detected] else []

/-! ## Receipts -/

/-- The data of the receipts by system. -/
structure Incoming where
  entries : HashMap SystemArch (HashMap StoreHash IndexEntry) := ∅
  roots : HashMap SystemArch (List StoreHash) := ∅
  publicKey : String := ""

namespace Incoming

def add (incoming : Incoming) (receipt : BuildReceipt) : Incoming where
  entries := incoming.entries.insert receipt.system
    (((incoming.entries.lookup receipt.system).getD ∅).extend receipt.newEntries)
  roots := incoming.roots.insert receipt.system
    (((incoming.roots.lookup receipt.system).getD []) ++ receipt.activeGcRoots)
  publicKey :=
    if Str.isEmpty incoming.publicKey then receipt.publicKey.getD "" else incoming.publicKey

/-- `incoming_entries_by_sys.remove(&sys).unwrap_or_default()`. -/
def entriesFor (incoming : Incoming) (system : SystemArch) : HashMap StoreHash IndexEntry :=
  (incoming.entries.lookup system).getD ∅

def rootsFor (incoming : Incoming) (system : SystemArch) : List StoreHash :=
  (incoming.roots.lookup system).getD []

def systems (incoming : Incoming) : List SystemArch := incoming.entries.keys ++ incoming.roots.keys

end Incoming

/-- The receipts in the files, in the order of their paths; a file that cannot be read or decoded is
skipped. -/
def loadReceipts (X : OciCrates) (files : List (Option String)) : List BuildReceipt :=
  files.filterMap fun file => do
    let content ← file
    (ManifestClient.parseJson X (BuildReceipt.fromJson X.toCrates) content).toOption

def collectIncoming (receipts : List BuildReceipt) : Incoming := receipts.foldl Incoming.add {}

/-! ## Compaction -/

/-- `Vec::dedup`. -/
def dedupConsecutive {α : Type} [DecidableEq α] : List α → List α
  | [] => []
  | [x] => [x]
  | x :: y :: rest => if x = y then dedupConsecutive (y :: rest) else x :: dedupConsecutive (y :: rest)

/-- `extend`, `sort_unstable` and `dedup` of the GC roots. -/
def mergeGcRoots (existing incoming : List StoreHash) : List StoreHash :=
  dedupConsecutive ((existing ++ incoming).insertionSort (· ≤ ·))

/-- The root under construction, and the payloads that were pushed for it. -/
structure Compaction where
  root : ShardedArchCacheIndexData
  pushed : List ShardDataPayload := []

/-- The descriptor of a shard after its payload was pushed. -/
def pushedDescriptor (descriptor : ShardDescriptor) (blob : String × UInt64 × UInt64)
    (count : Nat) (merkleHash : String) : ShardDescriptor :=
  { descriptor with
    blobDigest := blob.1
    compressedSize := blob.2.1
    uncompressedSize := blob.2.2
    entryCount := UInt64.ofNat count
    merkleHash := merkleHash }

section

variable (X : OciCrates) (client : OciClient)

/-- Push a payload and describe it at its place in the root. -/
def replaceShard (state : Compaction) (shardId : Nat) (descriptor : ShardDescriptor)
    (payload : ShardDataPayload) : Step Compaction := do
  let blob ← liftOci (IndexClient.pushShardData X client payload)
  let merkleHash ← liftResult (payload.computeMerkleHash X.toCrates)
  pure ⟨{ state.root with
      shards := state.root.shards.set shardId
        (pushedDescriptor descriptor blob payload.entries.size merkleHash) },
    state.pushed ++ [payload]⟩

/-- What a shard holds before the incoming entries are added. -/
def baselinePayload (system : SystemArch) (shardId : Nat) (descriptor : ShardDescriptor) :
    Step ShardDataPayload :=
  if 0 < descriptor.entryCount ∧ ¬ Str.isEmpty descriptor.blobDigest then
    liftOci (IndexClient.getShardData X client descriptor system)
  else liftResult (ShardDataPayload.new (UInt16.ofNat shardId))

/-- One iteration of the loop over the shards; a shard without incoming entries is left alone. -/
def compactShard (system : SystemArch)
    (partitioned : HashMap UInt16 (HashMap StoreHash IndexEntry)) (state : Compaction)
    (shardId : Nat) : Step Compaction :=
  match partitioned.lookup (UInt16.ofNat shardId), state.root.shards[shardId]? with
  | some incoming, some descriptor =>
      if incoming.size = 0 then pure state
      else do
        let payload ← baselinePayload X client system shardId descriptor
        replaceShard X client state shardId descriptor
          { payload with entries := payload.entries.extend incoming }
  | _, _ => pure state

/-- The root that a promotion starts from. -/
def startRoot (repo registry now publicKey : String) (system : SystemArch)
    (existing : Option ShardedArchCacheIndexData) : Except CoreError ShardedArchCacheIndexData := do
  let root ← match existing with
    | some root => pure root
    | none => ShardedArchCacheIndexData.new X.toCrates system repo registry now
  let shards ←
    if root.shards.length ≠ numShards then
      collect (fun id => ShardDescriptor.empty X.toCrates (UInt16.ofNat id)) (List.range numShards)
    else pure root.shards
  pure { root with
    shards := shards
    publicKey := if ¬ Str.isEmpty publicKey ∧ Str.isEmpty root.publicKey then publicKey
      else root.publicKey }

end

/-- The arguments of `run_promote`, and what it reads of its environment. -/
structure PromoteArgs where
  files : List (Option String)
  repo : String
  registry : String
  targetTag : String
  detected : SystemArch
  runId : Option UInt64
  clock : Clock

section

variable (X : OciCrates) (client : OciClient) (args : PromoteArgs)

/-- The root as it is pushed, once its shards are compacted. -/
def finishRoot (system : SystemArch) (newRoots : List StoreHash)
    (root : ShardedArchCacheIndexData) : Except CoreError ShardedArchCacheIndexData := do
  let root := { root with gcRoots := mergeGcRoots root.gcRoots newRoots }
  let root ← root.recalculateMerkleRoot X.toCrates
  pure { root with
    version := schemaVersionV8
    generated := args.clock.generated system
    lastPromotedRun := args.runId }

/-- The future of one architecture. -/
def promoteSystem (incoming : Incoming) (system : SystemArch) : Step Published := do
  let existing ← liftOci (IndexClient.getShardedRoot X client args.targetTag system)
  let baseline := existing.map Prod.fst
  let root ← liftResult (startRoot X args.repo args.registry
    (args.clock.generated system) incoming.publicKey system baseline)
  let state ← Action.foldM
    (compactShard X client system (partitionEntriesByShard (incoming.entriesFor system)))
    ⟨root, []⟩ (List.range numShards)
  let root ← liftResult (finishRoot X args system (incoming.rootsFor system) state.root)
  let subManifestDigest ← liftOci (IndexClient.pushShardedRoot X client (args.clock.created system)
    (args.targetTag ++ "-" ++ system.asStr) root)
  pure ⟨system, baseline, state.pushed, root,
    subManifestDescriptor system root subManifestDigest⟩

/-- The systems to publish: those of the receipts and of the existing index, else the system of the
machine. -/
def promoteTargets (incoming : Incoming) (artifact : Option FetchedOciArtifact) :
    List SystemArch :=
  let systems := incoming.systems ++
    (artifact.map fun artifact => artifactSystems args.detected artifact.manifest).getD []
  if systems.isEmpty then
    sortedSystems [if args.detected.isKnown then args.detected else .x86_64Linux]
  else sortedSystems systems

/-- `run_promote` with a client, and what it published. -/
def promote : Step (List Published) := do
  let incoming := collectIncoming (loadReceipts X args.files)
  let artifact ← Action.attempt (ManifestClient.fetchArtifact X client args.targetTag)
  let systems := promoteTargets args incoming (artifact.toOption.getD none)
  let published ← Action.tryJoinAll (systems.map (promoteSystem X client args incoming))
  liftOci (IndexClient.updateSingleWriter X client args.targetTag
    (replaceIndex args.clock published))
  pure published

end

/-- `run_promote`. -/
def runPromote (X : OciCrates) (args : PromoteArgs) : Step Unit := do
  let client ← Action.ofExcept <| mapErr .oci
    (OciClient.withTransport X args.registry args.repo {})
  let _ ← promote X client args
  pure ()

end NixCache.Builder
