import NixCache.Cli.Env
import NixCache.Core.Filter
import NixCache.Core.Lookup
import NixCache.Lib.Number
/-!
# Selector arguments

`nixcache-cli/src/args/selector.rs`: the size and time texts, the resolvers of the arguments and
the selector they make.  Where the source would panic the model fails with a `Panic`.
-/

namespace NixCache.Core.FilterPredicates

/-- `is_empty`. -/
def isEmpty (predicates : FilterPredicates) : Bool :=
  predicates.systems = ∅ ∧ ¬ predicates.hasItemFilters

end NixCache.Core.FilterPredicates

namespace NixCache.Cli

open NixCache.Lib NixCache.Lib.Result NixCache.Core
open NixCache.Core.SystemArch (ofStr)

/-! ## The process -/

inductive Panic where
  /-- A slice that is not at the boundary of a character. -/
  | notCharBoundary
  /-- `attempt to multiply with overflow`. -/
  | arithmeticOverflow
  /-- `TimeDelta::days` and its siblings out of bounds. -/
  | durationOutOfBounds
  /-- ``DateTime - TimeDelta`` overflowed. -/
  | dateTimeOverflow
deriving DecidableEq, Repr

/-- `CliError`, the variant that the selector arguments raise. -/
inductive CliError where
  | invalidStoreHash (value : String) (source : TypeError)
deriving DecidableEq, Repr

inductive Failure where
  | panic (reason : Panic)
  | error (error : CliError)
deriving DecidableEq, Repr

/-- The two arguments that are resolved against the clock. -/
inductive TimeArg where
  | olderThan
  | newerThan
deriving DecidableEq, Repr

/-- What the program takes from its surroundings: third-party crates, the Unicode tables of the
standard library, the build profile, the environment and the clock. -/
structure Host where
  crates : Crates
  /-- `char::is_alphabetic`. -/
  isAlphabetic : Char → Bool
  /-- `str::to_lowercase`. -/
  toLowercase : String → String
  /-- Whether integer overflow panics, as in a debug build, or wraps. -/
  overflowChecks : Bool
  env : Environment
  /-- `Utc::now()`, read once for each time argument. -/
  now : TimeArg → Int
  /-- `DateTime::<Utc>::MIN_UTC`, in nanoseconds. -/
  minUtc : Int
  /-- `DateTime::<Utc>::MAX_UTC`, in nanoseconds. -/
  maxUtc : Int

/-! ## Sizes -/

/-- `a * b` over `u64`. -/
def mulU64 (overflowChecks : Bool) (a b : UInt64) : Except Panic UInt64 :=
  if overflowChecks ∧ 2 ^ 64 ≤ a.toNat * b.toNat then .error .arithmeticOverflow else .ok (a * b)

/-- `base * 1024 * …`, with `count` factors. -/
def mulKibi (overflowChecks : Bool) (base : UInt64) : (count : Nat) → Except Panic UInt64
  | 0 => .ok base
  | count + 1 => do
      let value ← mulKibi overflowChecks base count
      mulU64 overflowChecks value 1024

/-- `char::to_ascii_uppercase`. -/
def upperAscii (c : Char) : Char :=
  if 'a'.toNat ≤ c.toNat ∧ c.toNat ≤ 'z'.toNat then Char.ofNat (c.toNat - 32) else c

/-- `&s[..s.len() - 1]`. -/
def sliceInit (s : String) : Except Panic String :=
  match slicePrefix s.toList (Str.len s - 1) with
  | some init => .ok (String.ofList init)
  | none => .error .notCharBoundary

/-- `num_part` and `unit`. -/
def splitUnit (host : Host) (trimmed : String) : Except Panic (String × Option Char) :=
  match trimmed.toList.getLast? with
  | none => .ok (trimmed, none)
  | some last =>
      if host.isAlphabetic last then do
        let numPart ← sliceInit trimmed
        pure (numPart, some (upperAscii last))
      else .ok (trimmed, none)

/-- The factors of 1024 of a unit. -/
def unitFactors : Option Char → Option Nat
  | some 'B' => some 0
  | some 'K' => some 1
  | some 'M' => some 2
  | some 'G' => some 3
  | some 'T' => some 4
  | none => some 0
  | some _ => none

def parseSizeStr (host : Host) (s : String) : Except Panic (Option UInt64) := do
  let trimmed := Str.trim s
  if Str.isEmpty trimmed then pure none
  else
    let (numPart, unit) ← splitUnit host trimmed
    match Str.parseU64 (Str.trim numPart) with
    | .error _ => pure none
    | .ok base =>
        match unitFactors unit with
        | some count => some <$> mulKibi host.overflowChecks base count
        | none => pure none

/-! ## Instants -/

/-- `i64::MAX / 1000`: the seconds of the longest `TimeDelta` of whole seconds. -/
def maxDurationSeconds : Int := 9223372036854775

/-- `Duration::days`, `hours`, `minutes` and `seconds`, in nanoseconds. -/
def duration (secondsPerUnit value : Int) : Except Panic Int :=
  let seconds := value * secondsPerUnit
  if -maxDurationSeconds ≤ seconds ∧ seconds ≤ maxDurationSeconds then
    .ok (seconds * 1000000000)
  else .error .durationOutOfBounds

/-- `Utc::now() - d`. -/
def nowMinus (host : Host) (arg : TimeArg) (nanoseconds : Int) : Except Panic Int :=
  let instant := host.now arg - nanoseconds
  if host.minUtc ≤ instant ∧ instant ≤ host.maxUtc then .ok instant else .error .dateTimeOverflow

/-- The seconds of a unit of time. -/
def unitSeconds (unit : String) : Option Int :=
  if unit = "d" then some 86400
  else if unit = "h" then some 3600
  else if unit = "m" then some 60
  else if unit = "s" then some 1
  else none

/-- `s.split_at(s.len() - 1)`. -/
def splitLast (s : String) : Except Panic (String × String) := do
  let init ← sliceInit s
  pure (init, String.ofList (s.toList.drop init.toList.length))

def parseDurationOrDatetime (host : Host) (arg : TimeArg) (s : String) :
    Except Panic (Option Int) := do
  let trimmed := Str.trim s
  if Str.isEmpty trimmed then pure none
  else
    match host.crates.parseFromRfc3339 trimmed with
    | some instant => pure (some instant)
    | none => do
        let (numStr, unit) ← splitLast trimmed
        match Str.parseI64 (Str.trim numStr) with
        | .error _ => pure none
        | .ok value =>
            match unitSeconds (Str.toAsciiLowercase unit) with
            | some seconds => do
                let d ← duration seconds value
                some <$> nowMinus host arg d
            | none => pure none

/-! ## Arguments -/

/-- `CacheSelectorArgs`, without the flake path and its attributes, which no selector uses. -/
structure CacheSelectorArgs where
  all : Bool := false
  hashes : Option String := none
  patterns : List String := []
  system : List String := []
  olderThan : Option String := none
  newerThan : Option String := none
  minSize : Option String := none
  maxSize : Option String := none
  originJob : List String := []
  originRun : List UInt64 := []
  cascade : Option String := none
  protectGcRoots : Bool := false
deriving DecidableEq, Repr

inductive DefaultScopePolicy where
  | selectAll
  | requireExplicit
deriving DecidableEq, Repr

/-- `s.split([',', ' '])`. -/
def splitList (s : String) : List String :=
  (s.toList.splitOnP fun c => c = ',' || c = ' ').map String.ofList

/-- The items of a list, trimmed, without the empty ones. -/
def listItems (s : String) : List String :=
  ((splitList s).map Str.trim).filter fun item => ¬ Str.isEmpty item

/-- An argument that is not blank, or else the variable. -/
def resolveText (host : Host) (arg : Option String) (key : String) : Option String :=
  (arg.bind Env.nonEmptyStr) <|> Env.get host.env key

/-- The value of a text that is given. -/
def resolveWith {α : Type} (parse : String → Except Panic (Option α)) :
    Option String → Except Panic (Option α)
  | some text => parse text
  | none => .ok none

namespace CacheSelectorArgs

variable (host : Host) (args : CacheSelectorArgs)

def resolveAll : Bool :=
  if args.all then true
  else
    ((Env.getBool host.toLowercase host.env "NIXCACHE_FILTER_ALL") <|>
      Env.getBool host.toLowercase host.env "NIXCACHE_PURGE_ALL").getD false

def resolveHashes : Except CliError (List StoreHash) :=
  let text := ((args.hashes.bind Env.nonEmptyStr) <|>
    Env.getFirst host.env ["NIXCACHE_FILTER_HASHES", "NIXCACHE_PURGE_HASHES"]).getD ""
  collect (fun value => mapErr (.invalidStoreHash value) (StoreHash.parse value)) (listItems text)

def resolvePatterns : List String :=
  if args.patterns ≠ [] then args.patterns
  else
    match Env.getFirst host.env ["NIXCACHE_FILTER_PATTERNS", "NIXCACHE_PURGE_PATTERNS"] with
    | some text => listItems text
    | none => []

def resolveSystems : List SystemArch :=
  if args.system ≠ [] then args.system.map ofStr
  else
    match Env.get host.env "NIXCACHE_SYSTEM" with
    | some text => (listItems text).map ofStr
    | none => []

/-- The text that `resolve_older_than` reads. -/
def olderThanText : Option String := resolveText host args.olderThan "NIXCACHE_OLDER_THAN"

def newerThanText : Option String := resolveText host args.newerThan "NIXCACHE_NEWER_THAN"

def minSizeText : Option String := resolveText host args.minSize "NIXCACHE_MIN_SIZE"

def maxSizeText : Option String := resolveText host args.maxSize "NIXCACHE_MAX_SIZE"

def resolveOlderThan : Except Panic (Option Int) :=
  resolveWith (parseDurationOrDatetime host .olderThan) (args.olderThanText host)

def resolveNewerThan : Except Panic (Option Int) :=
  resolveWith (parseDurationOrDatetime host .newerThan) (args.newerThanText host)

def resolveTimeFilter : Except Panic (Option TimeFilter) := do
  let older ← args.resolveOlderThan host
  let newer ← args.resolveNewerThan host
  match older, newer with
  | some o, some n => pure (some (if n ≤ o then .between n o else .between o n))
  | some o, none => pure (some (.before o))
  | none, some n => pure (some (.after n))
  | none, none => pure none

def resolveMinSize : Except Panic (Option UInt64) :=
  resolveWith (parseSizeStr host) (args.minSizeText host)

def resolveMaxSize : Except Panic (Option UInt64) :=
  resolveWith (parseSizeStr host) (args.maxSizeText host)

def resolveSizeFilter : Except Panic (Option SizeFilter) := do
  let min ← args.resolveMinSize host
  let max ← args.resolveMaxSize host
  match min, max with
  | some mi, some ma => pure (some (.range mi ma))
  | some mi, none => pure (some (.minBytes mi))
  | none, some ma => pure (some (.maxBytes ma))
  | none, none => pure none

def resolveCascade (defaultMode : CascadeMode) : CascadeMode :=
  match (resolveText host args.cascade "NIXCACHE_CASCADE").map Str.toAsciiLowercase with
  | some mode =>
      if mode ∈ ["exact", "none"] then .exact
      else if mode ∈ ["dependents", "dependent", "downstream"] then .dependents
      else if mode ∈ ["transitive", "forward", "dependencies"] then .transitive
      else if mode ∈ ["full", "full-tree", "all"] then .fullTree
      else defaultMode
  | none => defaultMode

def resolveProtectGcRoots : Bool :=
  if args.protectGcRoots then true
  else (Env.getBool host.toLowercase host.env "NIXCACHE_PROTECT_GC_ROOTS").getD false

def resolveOriginJobs : List String :=
  if args.originJob ≠ [] then args.originJob
  else
    match Env.get host.env "NIXCACHE_ORIGIN_JOB" with
    | some text => listItems text
    | none => []

/-- The run of one item of `NIXCACHE_ORIGIN_RUN`; other texts are passed over. -/
def parseRun (item : String) : Option UInt64 := (Str.parseU64 (Str.trim item)).toOption

def resolveOriginRuns : List UInt64 :=
  if args.originRun ≠ [] then args.originRun
  else
    match Env.get host.env "NIXCACHE_ORIGIN_RUN" with
    | some text => (splitList text).filterMap parseRun
    | none => []

def resolvePredicates (extraHashes : List StoreHash) : Except Failure FilterPredicates := do
  let hashes ← mapErr .error (args.resolveHashes host)
  let timeFilter ← mapErr .panic (args.resolveTimeFilter host)
  let sizeFilter ← mapErr .panic (args.resolveSizeFilter host)
  pure {
    storeHashes := (hashes ++ extraHashes).toFinset
    patterns := args.resolvePatterns host
    systems := (args.resolveSystems host).toFinset
    timeFilter := timeFilter
    sizeFilter := sizeFilter
    originJobs := (args.resolveOriginJobs host).toFinset
    originRuns := (args.resolveOriginRuns host).toFinset }

def toSelectorWithPolicy (extraHashes : List StoreHash) (defaultCascade : CascadeMode)
    (policy : DefaultScopePolicy) : Except Failure CacheSelector := do
  let isAll := args.resolveAll host
  let predicates ← args.resolvePredicates host extraHashes
  let scope : SelectionScope :=
    if isAll then .all predicates.systems
    else if predicates.isEmpty then
      match policy with
      | .selectAll => .all predicates.systems
      | .requireExplicit => .none
    else .filtered predicates
  pure {
    scope := scope
    cascadeMode := args.resolveCascade host defaultCascade
    protectGcRoots := args.resolveProtectGcRoots host }

def toListSelector (extraHashes : List StoreHash) : Except Failure CacheSelector :=
  args.toSelectorWithPolicy host extraHashes .exact .selectAll

def toPurgeSelector (extraHashes : List StoreHash) : Except Failure CacheSelector :=
  args.toSelectorWithPolicy host extraHashes .dependents .requireExplicit

end CacheSelectorArgs

end NixCache.Cli
