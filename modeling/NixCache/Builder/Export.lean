import NixCache.Core.Lookup
import NixCache.Oci.Upload
/-!
# Exporting store paths

`export_single_item_stream` of `nixcache-builder/src/nix/exporter.rs`.  The compressed stream, the
outcomes of the two processes that make it and the time come from outside and are arguments; the
upload is that of the client.
-/

namespace NixCache.Builder

open NixCache.Lib NixCache.Lib.Result NixCache.Core NixCache.Oci

/-- `NixPathInfoItem`, without the registration time, which no function modelled here reads. -/
structure NixPathInfoItem where
  path : String
  narHash : String
  /-- The size of the NAR before compression. -/
  narSize : UInt64
  references : List String
  deriver : Option String
  signatures : List String
  ca : Option String
deriving DecidableEq, Repr

/-- `normalized_references`. -/
def NixPathInfoItem.normalizedReferences (item : NixPathInfoItem) : List String :=
  item.references.map fun reference => (fileName reference).getD reference

/-- The variants of `BuilderError` that an export returns, and the panic of a slice. -/
inductive ExportError where
  | narInfo (invalidStorePath : String)
  | nix (message : String)
  | compression (message : String)
  | join (message : String)
  | core (error : CoreError)
  | oci (error : OciError)
  | panic (reason : SlicePanic)
deriving DecidableEq, Repr

structure ExportedStorePath where
  storeHash : StoreHash
  indexEntry : IndexEntry
  fileSize : UInt64
deriving DecidableEq, Repr

/-- What happens around the upload. -/
structure ExportRun where
  /-- Starting `nix-store --dump` and taking its output. -/
  spawned : Except ExportError Unit
  /-- The compressed stream as it is read. -/
  stream : List BodyItem
  /-- `compress_handle.await`. -/
  compressed : Except ExportError Unit
  /-- `dump_proc.wait()` and the exit status. -/
  dumped : Except ExportError Unit
  /-- `Utc::now()` in seconds. -/
  now : String

/-- The checks of the name: the text of the hash, and the hash. -/
def readFileName (storePath : String) : Except ExportError (String × StoreHash) := do
  let name ← okOr (.narInfo storePath) (fileName storePath)
  ensure (¬ Str.len name < 32) (.narInfo ("Path name too short: " ++ name))
  let hash ← okOr (.panic .notCharBoundary) (slicePrefix name.toList 32)
  let storeHash ← mapErr (fun error => .core (.type error)) (StoreHash.parse (String.ofList hash))
  ensure ((name.toList.drop hash.length).head? = some '-') (.narInfo storePath)
  pure (String.ofList hash, storeHash)

/-- The base name of the deriver. -/
def readDeriver : Option String → Except ExportError (Option String)
  | none => .ok none
  | some deriver => some <$> okOr (.narInfo deriver) (fileName deriver)

/-- What follows the first dash of the name. -/
def readName (storePath : String) : Except ExportError String :=
  okOr (.narInfo storePath)
    (((fileName storePath).bind fun name => Str.splitOnce name '-').map Prod.snd)

/-- The index entry for an upload of `narSize` bytes. -/
def buildEntry (X : Crates) (item : NixPathInfoItem) (hash : String) (digest : ContentDigest)
    (narSize : UInt64) (now : String) (system : SystemArch) (origin : Option OriginMetadata) :
    Except ExportError IndexEntry := do
  let narDigest ← mapErr (fun error => ExportError.core (.type error)) (NarDigest.parse digest.val)
  let deriver ← readDeriver item.deriver
  let narinfoMeta : NarInfoMeta :=
    { storePath := item.path
      narBasename := hash ++ ".nar.zst"
      compression := some "zstd"
      fileHash := some narDigest.val
      fileSize := some narSize
      narHash := item.narHash
      references := item.normalizedReferences
      deriver := deriver
      signatures := item.signatures
      ca := item.ca }
  let name ← readName item.path
  let indexEntry : IndexEntry :=
    { name := name
      system := some system
      narinfoMeta := narinfoMeta
      narDigest := narDigest
      narSize := max narSize item.narSize
      added := now
      origin := origin }
  mapErr .core (indexEntry.validateStructure X)
  pure indexEntry

/-- `export_single_item_stream`. -/
def exportSingleItemStream (X : OciCrates) (client : OciClient) (config : UploadConfig)
    (run : ExportRun) (item : NixPathInfoItem) (system : SystemArch)
    (origin : Option OriginMetadata) :
    Action UploadRequest Reply ExportError ExportedStorePath := do
  let (hash, storeHash) ← Action.ofExcept (readFileName item.path)
  Action.ofExcept run.spawned
  let (digest, narSize) ← Action.mapErr .oci (pushResumable X client config run.stream)
  Action.ofExcept run.compressed
  Action.ofExcept run.dumped
  let indexEntry ← Action.ofExcept
    (buildEntry X.toCrates item hash digest narSize run.now system origin)
  pure ⟨storeHash, indexEntry, narSize⟩

end NixCache.Builder
