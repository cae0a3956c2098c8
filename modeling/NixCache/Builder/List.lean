import NixCache.Core.Filter
/-!
# Listing entries

`nixcache-builder/src/list.rs`: the report of `run_list` from the entries and roots it loaded.  How
`format!` prints a quotient of two `f64` is the argument `fixed2`.
-/

namespace NixCache.Builder

open NixCache.Lib NixCache.Lib.Result NixCache.Core

inductive SortBy where
  | addedDate
  | narSize
  | name
  | storeHash
deriving DecidableEq, Repr

inductive SortOrder where
  | desc
  | asc
deriving DecidableEq, Repr

/-- The options of `ListArgs` that order and cut the list, as they were resolved. -/
structure ListOptions where
  sortBy : SortBy
  sortOrder : SortOrder
  limit : Option Nat
deriving DecidableEq, Repr

structure ArchStat where
  count : Nat
  bytes : UInt64
  rootsCount : Nat
deriving DecidableEq, Repr

structure ListItemDto where
  hash : String
  name : String
  system : String
  storePath : String
  narBasename : String
  narSize : UInt64
  narSizeHuman : String
  added : String
  reason : String
  references : List String
  narDigest : String
deriving DecidableEq, Repr

/-- `CacheListSummaryReport` without the names of the registry, the repository and the tag. -/
structure CacheListSummaryReport where
  totalEntries : Nat
  totalBytes : UInt64
  matchedEntries : Nat
  matchedBytes : UInt64
  archBreakdown : HashMap String ArchStat
  items : List ListItemDto

/-- The text of a size.  `fixed2 bytes unit` is the quotient with two decimals. -/
def formatBytes (fixed2 : UInt64 → UInt64 → String) (bytes : UInt64) : String :=
  let kb : UInt64 := 1024
  let mb := 1024 * kb
  let gb := 1024 * mb
  let tb := 1024 * gb
  if bytes ≥ tb then fixed2 bytes tb ++ " TiB"
  else if bytes ≥ gb then fixed2 bytes gb ++ " GiB"
  else if bytes ≥ mb then fixed2 bytes mb ++ " MiB"
  else if bytes ≥ kb then fixed2 bytes kb ++ " KiB"
  else toString bytes.toNat ++ " B"

/-! ## Architectures -/

/-- `arch_breakdown.entry(sys_name).or_insert(..)`, changed by `change`. -/
def updateStat (stats : HashMap String ArchStat) (sysName : String)
    (change : ArchStat → ArchStat) : HashMap String ArchStat :=
  stats.insert sysName (change ((stats.lookup sysName).getD ⟨0, 0, 0⟩))

/-- The name of an entry's system. -/
def systemName (entry : IndexEntry) : String :=
  (entry.system.map SystemArch.asStr).getD "unknown"

def archBreakdown (entries : HashMap StoreHash IndexEntry)
    (gcRoots : HashMap SystemArch (List StoreHash)) : HashMap String ArchStat :=
  let counted := entries.values.foldl (fun stats entry =>
    updateStat stats (systemName entry) fun stat =>
      { stat with count := stat.count + 1, bytes := stat.bytes + entry.narSize }) ∅
  gcRoots.toList.foldl (fun stats roots =>
    updateStat stats roots.1.asStr fun stat => { stat with rootsCount := roots.2.length }) counted

/-! ## Items -/

/-- `reason_map.get(hash)`, with the text for a hash the map does not have. -/
def itemReason (reasonMap : HashMap StoreHash String) (hash : StoreHash) : String :=
  (reasonMap.lookup hash).getD "Match"

def listItem (fixed2 : UInt64 → UInt64 → String) (reasonMap : HashMap StoreHash String)
    (matched : StoreHash × IndexEntry) : ListItemDto where
  hash := matched.1.val
  name := matched.2.name
  system := systemName matched.2
  storePath := matched.2.narinfoMeta.storePath
  narBasename := matched.2.narinfoMeta.narBasename
  narSize := matched.2.narSize
  narSizeHuman := formatBytes fixed2 matched.2.narSize
  added := matched.2.added
  reason := itemReason reasonMap matched.1
  references := matched.2.narinfoMeta.references
  narDigest := matched.2.narDigest.val

/-- The closure given to `sort_by`. -/
def compareItems (options : ListOptions) (a b : ListItemDto) : Ordering :=
  let ord :=
    match options.sortBy with
    | .addedDate => compare a.added b.added
    | .narSize => compare a.narSize b.narSize
    | .name => compare a.name b.name
    | .storeHash => compare a.hash b.hash
  match options.sortOrder with
  | .asc => ord
  | .desc => ord.swap

/-- `slice::sort_by`, which is stable. -/
def sortItems (options : ListOptions) (items : List ListItemDto) : List ListItemDto :=
  items.mergeSort fun a b => (compareItems options a b).isLE

/-- The items of the matched entries, in the order in which their map is iterated. -/
def listItems (fixed2 : UInt64 → UInt64 → String) (options : ListOptions)
    (matchedEntries : HashMap StoreHash IndexEntry) (reasonMap : HashMap StoreHash String) :
    List ListItemDto :=
  sortItems options (matchedEntries.toList.map (listItem fixed2 reasonMap))

/-- `displayed_items`. -/
def displayedItems (options : ListOptions) (items : List ListItemDto) : List ListItemDto :=
  match options.limit with
  | some n => items.take n
  | none => items

/-- The report and the displayed items of a query's result. -/
def listReport (fixed2 : UInt64 → UInt64 → String) (options : ListOptions)
    (allEntries : HashMap StoreHash IndexEntry) (allGcRoots : HashMap SystemArch (List StoreHash))
    (queryRes : CacheQueryResult) : CacheListSummaryReport × List ListItemDto :=
  let items := listItems fixed2 options queryRes.matchedEntries queryRes.reasonMap
  let report := {
    totalEntries := allEntries.size
    totalBytes := narBytes allEntries
    matchedEntries := queryRes.matchedEntries.size
    matchedBytes := queryRes.matchedBytes
    archBreakdown := archBreakdown allEntries allGcRoots
    items := items }
  (report, displayedItems options items)

/-- `run_list` after the entries and roots of all architectures were loaded. -/
def runList (X : Crates) (fixed2 : UInt64 → UInt64 → String) (options : ListOptions)
    (allEntries : HashMap StoreHash IndexEntry) (allGcRoots : HashMap SystemArch (List StoreHash))
    (selector : CacheSelector) : Except CoreError (CacheListSummaryReport × List ListItemDto) := do
  let queryRes ← evaluateCacheQuery X allEntries allGcRoots selector
  pure (listReport fixed2 options allEntries allGcRoots queryRes)

end NixCache.Builder
