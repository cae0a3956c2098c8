import NixCache.Core.Types
import NixCache.Lib.HashMap
import NixCache.Lib.Worklist
import Mathlib.Data.Finset.Basic
import Mathlib.Data.List.Sort
/-!
# Selecting cache entries

`nixcache-core/src/filter.rs`: the predicates, the glob matcher and the query engine.  A
`HashMap` or `HashSet` iterates in the order of its list, so a result about every map is a result
about every iteration order.  Instants are nanoseconds, as `Crates.parseFromRfc3339` gives them.
-/

namespace NixCache.Core

open NixCache.Lib NixCache.Lib.Result NixCache.Lib.Worklist

inductive CascadeMode where
  | exact
  | dependents
  | transitive
  | fullTree
deriving DecidableEq, Repr

inductive TimeFilter where
  | before (instant : Int)
  | after (instant : Int)
  | between (start stop : Int)
deriving DecidableEq, Repr

def TimeFilter.matches : TimeFilter → Int → Bool
  | before instant, added => added < instant
  | after instant, added => added > instant
  | between start stop, added => added ≥ start ∧ added ≤ stop

inductive SizeFilter where
  | minBytes (min : UInt64)
  | maxBytes (max : UInt64)
  | range (min max : UInt64)
deriving DecidableEq, Repr

def SizeFilter.matches : SizeFilter → UInt64 → Bool
  | minBytes min, size => size ≥ min
  | maxBytes max, size => size ≤ max
  | range min max, size => size ≥ min ∧ size ≤ max

/-! ## Glob patterns -/

/-- The main loop of `wildcard_match`: the pattern index at the end of the text, or `none` where
the source returns `false`.  An iteration moves the pattern index forward or moves `matchIdx`
forward, so `wildcardFuel` iterations are enough. -/
def wildcardLoop (p t : List UInt8) :
    Nat → (pIdx tIdx : Nat) → (starIdx : Option Nat) → (matchIdx : Nat) → Option Nat
  | 0, pIdx, _, _, _ => some pIdx
  | fuel + 1, pIdx, tIdx, starIdx, matchIdx =>
      if t.length ≤ tIdx then some pIdx
      else if pIdx < p.length ∧ (p.getD pIdx 0 = '?'.toUInt8 ∨ p.getD pIdx 0 = t.getD tIdx 0) then
        wildcardLoop p t fuel (pIdx + 1) (tIdx + 1) starIdx matchIdx
      else if pIdx < p.length ∧ p.getD pIdx 0 = '*'.toUInt8 then
        wildcardLoop p t fuel (pIdx + 1) tIdx (some pIdx) tIdx
      else
        match starIdx with
        | some star => wildcardLoop p t fuel (star + 1) (matchIdx + 1) starIdx (matchIdx + 1)
        | none => none

def wildcardFuel (p t : List UInt8) : Nat := (p.length + 2) * (t.length + 2)

def wildcardMatch (pattern text : String) : Bool :=
  let p := Str.asBytes pattern
  let t := Str.asBytes text
  match wildcardLoop p t (wildcardFuel p t) 0 0 none 0 with
  | some pIdx => ((p.drop pIdx).dropWhile (· = '*'.toUInt8)).isEmpty
  | none => false

def matchesPattern (pattern text : String) : Bool :=
  if Str.containsChar pattern '*' ∨ Str.containsChar pattern '?' then wildcardMatch pattern text
  else Str.containsStr text pattern

/-! ## Predicates -/

structure FilterPredicates where
  storeHashes : Finset StoreHash := ∅
  patterns : List String := []
  systems : Finset SystemArch := ∅
  timeFilter : Option TimeFilter := none
  sizeFilter : Option SizeFilter := none
  originJobs : Finset String := ∅
  originRuns : Finset UInt64 := ∅
deriving DecidableEq

/-- The architecture check that `All` and `Filtered` share: an empty set lets everything pass. -/
def systemAllowed (systems : Finset SystemArch) (system : Option SystemArch) : Bool :=
  systems = ∅ ∨ ∃ s ∈ system, s ∈ systems

namespace FilterPredicates

def hasItemFilters (predicates : FilterPredicates) : Bool :=
  predicates.storeHashes ≠ ∅ ∨ predicates.patterns ≠ [] ∨ predicates.timeFilter.isSome ∨
    predicates.sizeFilter.isSome ∨ predicates.originJobs ≠ ∅ ∨ predicates.originRuns ≠ ∅

def hashMatches (predicates : FilterPredicates) (hash : StoreHash) : Bool :=
  hash ∈ predicates.storeHashes

def patternMatches (predicates : FilterPredicates) (entry : IndexEntry) : Bool :=
  predicates.patterns.any fun pat =>
    matchesPattern pat entry.name || matchesPattern pat entry.narinfoMeta.storePath ||
      matchesPattern pat entry.narinfoMeta.narBasename

def timeMatches (X : Crates) (predicates : FilterPredicates) (entry : IndexEntry) : Bool :=
  match predicates.timeFilter, X.parseFromRfc3339 entry.added with
  | some filter, some added => filter.matches added
  | _, _ => false

def sizeMatches (predicates : FilterPredicates) (entry : IndexEntry) : Bool :=
  predicates.sizeFilter.any fun filter => filter.matches entry.narSize

def jobMatches (predicates : FilterPredicates) (entry : IndexEntry) : Bool :=
  entry.origin.any fun origin => origin.jobId.any fun jobId => jobId ∈ predicates.originJobs

def runMatches (predicates : FilterPredicates) (entry : IndexEntry) : Bool :=
  entry.origin.any fun origin => origin.runId.any fun runId => runId ∈ predicates.originRuns

/-- The reasons an entry matches for, in the order the source pushes them. -/
def reasons (X : Crates) (predicates : FilterPredicates) (hash : StoreHash) (entry : IndexEntry) :
    List String :=
  (if predicates.hashMatches hash then ["Explicit Hash Match"] else []) ++
  (if predicates.patternMatches entry then ["Pattern Match"] else []) ++
  (if predicates.timeMatches X entry then ["Time Range Match"] else []) ++
  (if predicates.sizeMatches entry then ["Size Threshold Match"] else []) ++
  (if predicates.jobMatches entry then ["Origin Job Match"] else []) ++
  (if predicates.runMatches entry then ["Origin Run Match"] else [])

def evaluateEntry (X : Crates) (predicates : FilterPredicates) (hash : StoreHash)
    (entry : IndexEntry) : Option (List String) :=
  if ¬ systemAllowed predicates.systems entry.system then none
  else if ¬ predicates.hasItemFilters then some ["System Architecture Match"]
  else
    match predicates.reasons X hash entry with
    | [] => none
    | reason :: rest => some (reason :: rest)

end FilterPredicates

/-! ## Selectors -/

inductive SelectionScope where
  | all (systems : Finset SystemArch)
  | filtered (predicates : FilterPredicates)
  | none
deriving DecidableEq

structure CacheSelector where
  scope : SelectionScope
  cascadeMode : CascadeMode
  protectGcRoots : Bool
deriving DecidableEq

namespace CacheSelector

def all (systems : Finset SystemArch) : CacheSelector := ⟨.all systems, .exact, false⟩

def filtered (predicates : FilterPredicates) : CacheSelector := ⟨.filtered predicates, .exact, false⟩

def withCascade (selector : CacheSelector) (cascadeMode : CascadeMode) : CacheSelector :=
  { selector with cascadeMode := cascadeMode }

def withProtectGcRoots (selector : CacheSelector) (protect : Bool) : CacheSelector :=
  { selector with protectGcRoots := protect }

def targetSystems (selector : CacheSelector) : Option (Finset SystemArch) :=
  match selector.scope with
  | .all systems => if systems = ∅ then none else some systems
  | .filtered predicates => if predicates.systems = ∅ then none else some predicates.systems
  | .none => none

/-- The roots of the systems the selector is about. -/
def activeGcRoots (selector : CacheSelector) (gcRoots : HashMap SystemArch (List StoreHash)) :
    HashMap SystemArch (List StoreHash) :=
  gcRoots.filter fun sys => selector.targetSystems.all fun systems => sys ∈ systems

/-- Why the scope matches an entry, before protection and cascades. -/
def scopeReason (X : Crates) (selector : CacheSelector) (hash : StoreHash) (entry : IndexEntry) :
    Option String :=
  match selector.scope with
  | .all systems =>
      if ¬ systemAllowed systems entry.system then none
      else if selector.protectGcRoots then some "Select All (Unreachable Roots)"
      else some "Select All"
  | .filtered predicates =>
      (predicates.evaluateEntry X hash entry).map fun reasons => String.intercalate ", " reasons
  | .none => none

end CacheSelector

/-! ## The query engine -/

/-- One iteration of the graph loop: an entry and the hashes it references. -/
def entryReferences (entry : StoreHash × IndexEntry) :
    Except CoreError (StoreHash × List StoreHash) := do
  let deps ← liftType entry.2.narinfoMeta.referenceHashes
  pure (entry.1, deps)

def graphPairs (entries : HashMap StoreHash IndexEntry) :
    Except CoreError (List (StoreHash × List StoreHash)) :=
  collect entryReferences entries.toList

/-- `reverse_graph.entry(dep).or_default().push(hash)`. -/
def pushDependent (graph : HashMap StoreHash (List StoreHash)) (hash dep : StoreHash) :
    HashMap StoreHash (List StoreHash) :=
  graph.insert dep ((graph.lookup dep).getD [] ++ [hash])

def reverseGraph (pairs : List (StoreHash × List StoreHash)) :
    HashMap StoreHash (List StoreHash) :=
  pairs.foldl (fun graph pair => pair.2.foldl (fun graph dep => pushDependent graph pair.1 dep) graph)
    ∅

/-- `graph.get(hash)`, with no neighbours for a hash the graph does not have. -/
def neighbours (graph : HashMap StoreHash (List StoreHash)) (hash : StoreHash) : List StoreHash :=
  (graph.lookup hash).getD []

def protectedReachable (forward : HashMap StoreHash (List StoreHash))
    (gcRoots : HashMap SystemArch (List StoreHash)) (selector : CacheSelector) : List StoreHash :=
  if selector.protectGcRoots then
    let roots := (selector.activeGcRoots gcRoots).values.flatten
    markOnPop (neighbours forward) (popFuel (neighbours forward) forward.keys roots) roots []
  else []

def initialMatches (X : Crates) (entries : HashMap StoreHash IndexEntry)
    (selector : CacheSelector) (protect : List StoreHash) : List (StoreHash × String) :=
  entries.toList.filterMap fun entry =>
    if selector.protectGcRoots ∧ entry.1 ∈ protect then none
    else (selector.scopeReason X entry.1 entry.2).map fun reason => (entry.1, reason)

/-- The two ways a cascade reaches an entry, with the text it records. -/
inductive CascadeStep where
  | dependent
  | transitive
deriving DecidableEq, Repr

def CascadeStep.reason : CascadeStep → StoreHash → String
  | dependent, curr => "Cascade dependent of " ++ curr.val
  | transitive, curr => "Cascade transitive dependency of " ++ curr.val

def cascadeEdges (forward reverse : HashMap StoreHash (List StoreHash)) :
    CascadeMode → StoreHash → List (CascadeStep × StoreHash)
  | .exact, _ => []
  | .dependents, curr => (neighbours reverse curr).map fun dep => (.dependent, dep)
  | .transitive, curr => (neighbours forward curr).map fun dep => (.transitive, dep)
  | .fullTree, curr =>
      ((neighbours reverse curr).map fun dep => (.dependent, dep)) ++
        (neighbours forward curr).map fun dep => (.transitive, dep)

def cascade (forward reverse : HashMap StoreHash (List StoreHash)) (selector : CacheSelector)
    (protect initial : List StoreHash) : Frontier StoreHash CascadeStep :=
  let edges := cascadeEdges forward reverse selector.cascadeMode
  let blocked := fun dep => selector.protectGcRoots && decide (dep ∈ protect)
  markOnPush edges blocked (pushFuel edges (forward.keys ++ reverse.keys) initial) (.start initial)

structure CacheQueryResult where
  matchedEntries : HashMap StoreHash IndexEntry
  unmatchedEntries : HashMap StoreHash IndexEntry
  initialMatchedHashes : List StoreHash
  finalMatchedHashes : List StoreHash
  reasonMap : HashMap StoreHash String
  matchedBytes : UInt64
  unmatchedBytes : UInt64
  activeGcRoots : HashMap SystemArch (List StoreHash)

def narBytes (entries : HashMap StoreHash IndexEntry) : UInt64 :=
  entries.values.foldl (fun total entry => total + entry.narSize) 0

def sortHashes (hashes : List StoreHash) : List StoreHash := hashes.insertionSort (· ≤ ·)

def evaluateCacheQuery (X : Crates) (entries : HashMap StoreHash IndexEntry)
    (gcRoots : HashMap SystemArch (List StoreHash)) (selector : CacheSelector) :
    Except CoreError CacheQueryResult := do
  let pairs ← graphPairs entries
  let forward := HashMap.ofList pairs
  let reverse := reverseGraph pairs
  let protect := protectedReachable forward gcRoots selector
  let initial := initialMatches X entries selector protect
  let reached := cascade forward reverse selector protect (initial.map Prod.fst)
  let reasonMap := reached.log.foldl (fun m found => m.insert found.1 (found.2.1.reason found.2.2))
    (HashMap.ofList initial)
  let matched := entries.filter (· ∈ reached.seen)
  let unmatched := entries.filter (· ∉ reached.seen)
  pure {
    matchedEntries := matched
    unmatchedEntries := unmatched
    initialMatchedHashes := sortHashes (initial.map Prod.fst)
    finalMatchedHashes := sortHashes matched.keys
    reasonMap := reasonMap
    matchedBytes := narBytes matched
    unmatchedBytes := narBytes unmatched
    activeGcRoots := selector.activeGcRoots gcRoots }

end NixCache.Core
