import NixCache.Cli.Selector
import NixCache.Core.Proofs.Matching
import NixCache.Lib.Lines
import Mathlib.Logic.Function.Basic
/-!
# What the selector arguments read

An invocation is what the program is called with.  Its texts are read one by one into a selection,
and the selector depends on nothing else; changing one text changes one field of it.
-/

namespace NixCache.Cli

open NixCache.Lib NixCache.Lib.Result NixCache.Core

/-! ## Bounds -/

/-- The four texts that bound the time and the size of an entry. -/
inductive Bound where
  | olderThan
  | newerThan
  | minSize
  | maxSize
deriving DecidableEq, Repr

namespace Bound

def key : Bound → String
  | olderThan => "NIXCACHE_OLDER_THAN"
  | newerThan => "NIXCACHE_NEWER_THAN"
  | minSize => "NIXCACHE_MIN_SIZE"
  | maxSize => "NIXCACHE_MAX_SIZE"

def arg (args : CacheSelectorArgs) : Bound → Option String
  | olderThan => args.olderThan
  | newerThan => args.newerThan
  | minSize => args.minSize
  | maxSize => args.maxSize

def setArg (args : CacheSelectorArgs) (text : Option String) : Bound → CacheSelectorArgs
  | olderThan => { args with olderThan := text }
  | newerThan => { args with newerThan := text }
  | minSize => { args with minSize := text }
  | maxSize => { args with maxSize := text }

/-- An instant or a number of bytes. -/
abbrev Value : Bound → Type
  | olderThan | newerThan => Int
  | minSize | maxSize => UInt64

/-- The parser of a bound's text. -/
def parse (host : Host) : (bound : Bound) → String → Except Panic (Option bound.Value)
  | olderThan => parseDurationOrDatetime host .olderThan
  | newerThan => parseDurationOrDatetime host .newerThan
  | minSize | maxSize => parseSizeStr host

end Bound

/-- The variables of the settings that are neither bounds nor runs. -/
def settingKeys : List String :=
  ["NIXCACHE_FILTER_ALL", "NIXCACHE_PURGE_ALL", "NIXCACHE_FILTER_HASHES", "NIXCACHE_PURGE_HASHES",
    "NIXCACHE_FILTER_PATTERNS", "NIXCACHE_PURGE_PATTERNS", "NIXCACHE_SYSTEM",
    "NIXCACHE_PROTECT_GC_ROOTS", "NIXCACHE_ORIGIN_JOB"]

theorem Bound.key_injective : Function.Injective Bound.key := by
  intro a b h
  revert h
  cases a <;> cases b <;> decide

theorem Bound.key_notMem (bound : Bound) : bound.key ∉ settingKeys := by
  cases bound <;> decide

/-- The parsers read no variables. -/
theorem parseSizeStr_env (host : Host) (env : Environment) :
    parseSizeStr { host with env := env } = parseSizeStr host := by
  funext s
  simp only [parseSizeStr, splitUnit]

theorem parseDurationOrDatetime_env (host : Host) (env : Environment) (arg : TimeArg) :
    parseDurationOrDatetime { host with env := env } arg = parseDurationOrDatetime host arg := by
  funext s
  simp only [parseDurationOrDatetime, nowMinus]

theorem Bound.parse_env (host : Host) (env : Environment) (bound : Bound) :
    bound.parse { host with env := env } = bound.parse host := by
  cases bound
  · exact parseDurationOrDatetime_env host env .olderThan
  · exact parseDurationOrDatetime_env host env .newerThan
  · exact parseSizeStr_env host env
  · exact parseSizeStr_env host env

/-! ## Selections -/

/-- The range of the time, in either order of its ends. -/
def timeFilterOf : (older newer : Option Int) → Option TimeFilter
  | some o, some n => some (if n ≤ o then .between n o else .between o n)
  | some o, none => some (.before o)
  | none, some n => some (.after n)
  | none, none => none

def sizeFilterOf : (min max : Option UInt64) → Option SizeFilter
  | some mi, some ma => some (.range mi ma)
  | some mi, none => some (.minBytes mi)
  | none, some ma => some (.maxBytes ma)
  | none, none => none

/-- What the texts of an invocation say. -/
structure Selection where
  hashes : List StoreHash
  patterns : List String
  systems : List SystemArch
  bound : (bound : Bound) → Option bound.Value
  jobs : List String
  runs : List UInt64

namespace Selection

def timeFilter (sel : Selection) : Option TimeFilter :=
  timeFilterOf (sel.bound .olderThan) (sel.bound .newerThan)

def sizeFilter (sel : Selection) : Option SizeFilter :=
  sizeFilterOf (sel.bound .minSize) (sel.bound .maxSize)

def predicates (sel : Selection) : FilterPredicates where
  storeHashes := sel.hashes.toFinset
  patterns := sel.patterns
  systems := sel.systems.toFinset
  timeFilter := sel.timeFilter
  sizeFilter := sel.sizeFilter
  originJobs := sel.jobs.toFinset
  originRuns := sel.runs.toFinset

def scope (isAll : Bool) (policy : DefaultScopePolicy) (sel : Selection) : SelectionScope :=
  if isAll then .all sel.predicates.systems
  else if sel.predicates.isEmpty then
    match policy with
    | .selectAll => .all sel.predicates.systems
    | .requireExplicit => .none
  else .filtered sel.predicates

def setBound (sel : Selection) (bound : Bound) (value : Option bound.Value) : Selection :=
  { sel with bound := Function.update sel.bound bound value }

@[simp] theorem setBound_same (sel : Selection) (bound : Bound) (value : Option bound.Value) :
    (sel.setBound bound value).bound bound = value := Function.update_self ..

theorem setBound_of_ne {sel : Selection} {bound other : Bound} (h : other ≠ bound)
    (value : Option bound.Value) : (sel.setBound bound value).bound other = sel.bound other :=
  Function.update_of_ne h ..

end Selection

/-! ## Invocations -/

/-- What the program is called with: its surroundings, its arguments and the hashes of a flake. -/
structure Invocation where
  host : Host
  args : CacheSelectorArgs
  extraHashes : List StoreHash

namespace Invocation

variable (inv : Invocation)

/-- The text given for a bound. -/
def text (bound : Bound) : Option String := resolveText inv.host (bound.arg inv.args) bound.key

def readBound (bound : Bound) : Except Panic (Option bound.Value) :=
  resolveWith (bound.parse inv.host) (inv.text bound)

def read : Except Failure Selection := do
  let hashes ← mapErr .error (inv.args.resolveHashes inv.host)
  let older ← mapErr .panic (inv.readBound .olderThan)
  let newer ← mapErr .panic (inv.readBound .newerThan)
  let min ← mapErr .panic (inv.readBound .minSize)
  let max ← mapErr .panic (inv.readBound .maxSize)
  pure {
    hashes := hashes ++ inv.extraHashes
    patterns := inv.args.resolvePatterns inv.host
    systems := inv.args.resolveSystems inv.host
    bound := fun
      | .olderThan => older
      | .newerThan => newer
      | .minSize => min
      | .maxSize => max
    jobs := inv.args.resolveOriginJobs inv.host
    runs := inv.args.resolveOriginRuns inv.host }

/-- The selector for what is read. -/
def selectorOf (defaultCascade : CascadeMode) (policy : DefaultScopePolicy) (sel : Selection) :
    CacheSelector where
  scope := sel.scope (inv.args.resolveAll inv.host) policy
  cascadeMode := inv.args.resolveCascade inv.host defaultCascade
  protectGcRoots := inv.args.resolveProtectGcRoots inv.host

theorem resolveTimeFilter_eq : inv.args.resolveTimeFilter inv.host = (do
    let older ← inv.readBound .olderThan
    let newer ← inv.readBound .newerThan
    pure (timeFilterOf older newer)) := by
  have holder : inv.args.resolveOlderThan inv.host = inv.readBound .olderThan := rfl
  have hnewer : inv.args.resolveNewerThan inv.host = inv.readBound .newerThan := rfl
  rw [CacheSelectorArgs.resolveTimeFilter, holder, hnewer]
  refine bind_congr fun older => bind_congr fun newer => ?_
  cases older <;> cases newer <;> rfl

theorem resolveSizeFilter_eq : inv.args.resolveSizeFilter inv.host = (do
    let min ← inv.readBound .minSize
    let max ← inv.readBound .maxSize
    pure (sizeFilterOf min max)) := by
  have hmin : inv.args.resolveMinSize inv.host = inv.readBound .minSize := rfl
  have hmax : inv.args.resolveMaxSize inv.host = inv.readBound .maxSize := rfl
  rw [CacheSelectorArgs.resolveSizeFilter, hmin, hmax]
  refine bind_congr fun min => bind_congr fun max => ?_
  cases min <;> cases max <;> rfl

theorem resolvePredicates_eq :
    inv.args.resolvePredicates inv.host inv.extraHashes = Selection.predicates <$> inv.read := by
  rw [CacheSelectorArgs.resolvePredicates, read, inv.resolveTimeFilter_eq, inv.resolveSizeFilter_eq]
  cases inv.args.resolveHashes inv.host with
  | error e => rfl
  | ok hashes =>
      cases inv.readBound .olderThan with
      | error e => rfl
      | ok older =>
          cases inv.readBound .newerThan with
          | error e => rfl
          | ok newer =>
              cases inv.readBound .minSize with
              | error e => rfl
              | ok min => cases inv.readBound .maxSize <;> rfl

theorem toSelectorWithPolicy_eq (defaultCascade : CascadeMode) (policy : DefaultScopePolicy) :
    inv.args.toSelectorWithPolicy inv.host inv.extraHashes defaultCascade policy =
      inv.selectorOf defaultCascade policy <$> inv.read := by
  rw [CacheSelectorArgs.toSelectorWithPolicy, inv.resolvePredicates_eq]
  cases inv.read with
  | error failure => rfl
  | ok sel => rfl

/-- `sel` is what each resolver returns. -/
structure Reads (sel : Selection) : Prop where
  hashes : ∃ hashes, inv.args.resolveHashes inv.host = .ok hashes ∧
    sel.hashes = hashes ++ inv.extraHashes
  patterns : sel.patterns = inv.args.resolvePatterns inv.host
  systems : sel.systems = inv.args.resolveSystems inv.host
  bound : ∀ bound, inv.readBound bound = .ok (sel.bound bound)
  jobs : sel.jobs = inv.args.resolveOriginJobs inv.host
  runs : sel.runs = inv.args.resolveOriginRuns inv.host

variable {inv : Invocation} {sel : Selection}

theorem read_eq_ok : inv.read = .ok sel ↔ inv.Reads sel := by
  simp only [read, bind_eq_ok, mapErr_eq_ok, pure_eq_ok]
  constructor
  · rintro ⟨hashes, hhashes, older, holder, newer, hnewer, min, hmin, max, hmax, rfl⟩
    refine ⟨⟨hashes, hhashes, rfl⟩, rfl, rfl, ?_, rfl, rfl⟩
    rintro (_ | _ | _ | _)
    · exact holder
    · exact hnewer
    · exact hmin
    · exact hmax
  · rintro ⟨⟨hashes, hhashes, hsel⟩, hpatterns, hsystems, hbound, hjobs, hruns⟩
    refine ⟨hashes, hhashes, _, hbound .olderThan, _, hbound .newerThan, _, hbound .minSize, _,
      hbound .maxSize, ?_⟩
    cases sel
    simp only at hsel hpatterns hsystems hjobs hruns
    subst hsel hpatterns hsystems hjobs hruns
    congr
    funext bound
    cases bound <;> rfl

/-! ## Changing one text -/

def setArg (inv : Invocation) (bound : Bound) (text : Option String) : Invocation :=
  { inv with args := bound.setArg inv.args text }

def setVar (inv : Invocation) (key : String) (value : Option String) : Invocation :=
  { inv with host := { inv.host with env := Function.update inv.host.env key value } }

@[simp] theorem setVar_args (key : String) (value : Option String) :
    (inv.setVar key value).args = inv.args := rfl

@[simp] theorem setVar_toLowercase (key : String) (value : Option String) :
    (inv.setVar key value).host.toLowercase = inv.host.toLowercase := rfl

/-- Two invocations that may differ in their bounds and runs only. -/
structure SameSettings (inv inv' : Invocation) : Prop where
  extraHashes : inv'.extraHashes = inv.extraHashes
  crates : inv'.host.crates = inv.host.crates
  parse : ∀ bound : Bound, bound.parse inv'.host = bound.parse inv.host
  all : inv'.args.resolveAll inv'.host = inv.args.resolveAll inv.host
  hashes : inv'.args.resolveHashes inv'.host = inv.args.resolveHashes inv.host
  patterns : inv'.args.resolvePatterns inv'.host = inv.args.resolvePatterns inv.host
  systems : inv'.args.resolveSystems inv'.host = inv.args.resolveSystems inv.host
  protectGcRoots : inv'.args.resolveProtectGcRoots inv'.host =
    inv.args.resolveProtectGcRoots inv.host
  jobs : inv'.args.resolveOriginJobs inv'.host = inv.args.resolveOriginJobs inv.host

theorem SameSettings.trans {inv inv' inv'' : Invocation} (h : SameSettings inv inv')
    (h' : SameSettings inv' inv'') : SameSettings inv inv'' where
  extraHashes := h'.extraHashes.trans h.extraHashes
  crates := h'.crates.trans h.crates
  parse bound := (h'.parse bound).trans (h.parse bound)
  all := h'.all.trans h.all
  hashes := h'.hashes.trans h.hashes
  patterns := h'.patterns.trans h.patterns
  systems := h'.systems.trans h.systems
  protectGcRoots := h'.protectGcRoots.trans h.protectGcRoots
  jobs := h'.jobs.trans h.jobs

theorem get_setVar_of_ne {key key' : String} (h : key' ≠ key) (value : Option String) :
    Env.get (inv.setVar key value).host.env key' = Env.get inv.host.env key' := by
  simp only [Env.get, setVar, Function.update_of_ne h]

theorem getBool_congr {toLowercase : String → String} {env env' : Environment} {key : String}
    (h : Env.get env' key = Env.get env key) :
    Env.getBool toLowercase env' key = Env.getBool toLowercase env key := by
  rw [Env.getBool, Env.getBool, h]

theorem sameSettings_setVar {key : String} (hkey : key ∉ settingKeys) (value : Option String) :
    SameSettings inv (inv.setVar key value) := by
  have hget : ∀ key' ∈ settingKeys,
      Env.get (inv.setVar key value).host.env key' = Env.get inv.host.env key' :=
    fun key' hkey' => get_setVar_of_ne (fun heq : key' = key => hkey (heq ▸ hkey')) value
  simp only [settingKeys, List.forall_mem_cons, List.not_mem_nil, false_implies, implies_true,
    and_true] at hget
  obtain ⟨hfilterAll, hpurgeAll, hfilterHashes, hpurgeHashes, hfilterPatterns, hpurgePatterns,
    hsystem, hprotect, hjob⟩ := hget
  refine ⟨rfl, rfl, fun bound => bound.parse_env _ _, ?_, ?_, ?_, ?_, ?_, ?_⟩
  · simp only [CacheSelectorArgs.resolveAll, setVar_args, setVar_toLowercase,
      getBool_congr hfilterAll, getBool_congr hpurgeAll]
  · simp only [CacheSelectorArgs.resolveHashes, Env.getFirst, List.findSome?_cons,
      List.findSome?_nil, setVar_args, hfilterHashes, hpurgeHashes]
  · simp only [CacheSelectorArgs.resolvePatterns, Env.getFirst, List.findSome?_cons,
      List.findSome?_nil, setVar_args, hfilterPatterns, hpurgePatterns]
  · simp only [CacheSelectorArgs.resolveSystems, setVar_args, hsystem]
  · simp only [CacheSelectorArgs.resolveProtectGcRoots, setVar_args, setVar_toLowercase,
      getBool_congr hprotect]
  · simp only [CacheSelectorArgs.resolveOriginJobs, setVar_args, hjob]

theorem sameSettings_setArg (bound : Bound) (text : Option String) :
    SameSettings inv (inv.setArg bound text) := by
  cases bound <;> exact ⟨rfl, rfl, fun _ => rfl, rfl, rfl, rfl, rfl, rfl, rfl⟩

/-- Only the text of the bound changes when its argument does. -/
theorem text_setArg_of_ne {bound other : Bound} (h : other ≠ bound) (text : Option String) :
    (inv.setArg bound text).text other = inv.text other := by
  cases bound <;> cases other <;> first | exact absurd rfl h | rfl

theorem text_setVar_of_ne {key : String} {bound : Bound} (h : bound.key ≠ key)
    (value : Option String) : (inv.setVar key value).text bound = inv.text bound := by
  simp only [text, resolveText, get_setVar_of_ne h, setVar_args]

/-- The bound's text is set where it stands: to the argument when that is given, and else to the
variable. -/
def replaceText (inv : Invocation) (bound : Bound) (text : String) : Invocation :=
  if ((bound.arg inv.args).bind Env.nonEmptyStr).isSome then inv.setArg bound (some text)
  else inv.setVar bound.key (some text)

/-- Neither the argument nor the variable of the bound is given. -/
def dropText (inv : Invocation) (bound : Bound) : Invocation :=
  (inv.setArg bound none).setVar bound.key none

/-- Two invocations that may differ in the text of one bound only. -/
structure SameBut (bound : Bound) (inv inv' : Invocation) : Prop
    extends SameSettings inv inv' where
  runs : inv'.args.resolveOriginRuns inv'.host = inv.args.resolveOriginRuns inv.host
  text : ∀ other ≠ bound, inv'.text other = inv.text other

theorem sameBut_setArg (bound : Bound) (text : Option String) :
    SameBut bound inv (inv.setArg bound text) where
  toSameSettings := sameSettings_setArg bound text
  runs := by cases bound <;> rfl
  text _ h := text_setArg_of_ne h text

theorem sameBut_setVar (bound : Bound) (value : Option String) :
    SameBut bound inv (inv.setVar bound.key value) where
  toSameSettings := sameSettings_setVar bound.key_notMem value
  runs := by
    have hget : Env.get (inv.setVar bound.key value).host.env "NIXCACHE_ORIGIN_RUN" =
        Env.get inv.host.env "NIXCACHE_ORIGIN_RUN" :=
      get_setVar_of_ne (by cases bound <;> decide) value
    simp only [CacheSelectorArgs.resolveOriginRuns, setVar_args, hget]
  text _ h := text_setVar_of_ne (fun heq => h (Bound.key_injective heq)) value

theorem sameBut_replaceText (bound : Bound) (text : String) :
    SameBut bound inv (inv.replaceText bound text) := by
  unfold replaceText
  split
  · exact sameBut_setArg bound _
  · exact sameBut_setVar bound _

theorem sameBut_dropText (bound : Bound) : SameBut bound inv (inv.dropText bound) := by
  have harg : SameBut bound inv (inv.setArg bound none) := sameBut_setArg bound none
  have hvar : SameBut bound (inv.setArg bound none) (inv.dropText bound) := sameBut_setVar bound none
  exact {
    toSameSettings := harg.toSameSettings.trans hvar.toSameSettings
    runs := hvar.runs.trans harg.runs
    text := fun other h => (hvar.text other h).trans (harg.text other h) }

/-- The other bounds are read as before. -/
theorem SameBut.readBound_of_ne {bound other : Bound} {inv' : Invocation}
    (h : SameBut bound inv inv') (hne : other ≠ bound) :
    inv'.readBound other = inv.readBound other := by
  rw [readBound, readBound, h.parse other, h.text other hne]

/-- Reading differs in the value of the bound. -/
theorem SameBut.read {bound : Bound} {inv' : Invocation} (h : SameBut bound inv inv')
    {value : Option bound.Value} (hvalue : inv'.readBound bound = .ok value)
    (hread : inv.read = .ok sel) : inv'.read = .ok (sel.setBound bound value) := by
  rw [read_eq_ok] at hread ⊢
  obtain ⟨hashes, hhashes, hsel⟩ := hread.hashes
  refine ⟨⟨hashes, by rw [h.hashes, hhashes], by rw [h.extraHashes]; exact hsel⟩,
    by rw [h.patterns]; exact hread.patterns, by rw [h.systems]; exact hread.systems, ?_,
    by rw [h.jobs]; exact hread.jobs, by rw [h.runs]; exact hread.runs⟩
  intro other
  by_cases hother : other = bound
  · subst hother
    rw [hvalue, Selection.setBound_same]
  · rw [h.readBound_of_ne hother, hread.bound other, Selection.setBound_of_ne hother]

@[simp] theorem text_dropText (bound : Bound) : (inv.dropText bound).text bound = none := by
  have harg : bound.arg (inv.dropText bound).args = none := by cases bound <;> rfl
  have hvar : Env.get (inv.dropText bound).host.env bound.key = none := by
    simp [dropText, setVar, Env.get]
  rw [text, resolveText, harg, hvar]
  rfl

/-- The text that is read where another stood. -/
theorem text_replaceText {bound : Bound} {text old : String} (hold : inv.text bound = some old)
    (htext : Str.isEmpty (Str.trim text) = false) :
    (inv.replaceText bound text).text bound = some (Str.trim text) := by
  have hnonEmpty : Env.nonEmptyStr text = some (Str.trim text) := by simp [Env.nonEmptyStr, htext]
  unfold replaceText
  split
  · have harg : bound.arg (inv.setArg bound (some text)).args = some text := by cases bound <;> rfl
    rw [Invocation.text, resolveText, harg, Option.bind_some, hnonEmpty]
    rfl
  · rename_i hnone
    have harg : (bound.arg inv.args).bind Env.nonEmptyStr = none := by simpa using hnone
    have hvar : Env.get (inv.setVar bound.key (some text)).host.env bound.key =
        some (Str.trim text) := by
      simp [setVar, Env.get, hnonEmpty]
    rw [Invocation.text, resolveText, setVar_args, harg, hvar]
    rfl

end Invocation

/-! ## Comparing selections -/

namespace Selection

variable {X : Crates} {sel sel' : Selection} {hash : StoreHash} {entry : IndexEntry}

/-- Entry by entry, `sel'` matches all that `sel` matches. -/
def MatchedBy (X : Crates) (sel sel' : Selection) : Prop :=
  ∀ hash entry, sel.predicates.Matches X hash entry → sel'.predicates.Matches X hash entry

/-- A scope other than `None` matches what the predicates match, and everything in its systems when
all is selected. -/
theorem scopeReason_isSome {isAll : Bool} {policy : DefaultScopePolicy} {selector : CacheSelector}
    (hscope : selector.scope = sel.scope isAll policy) (hsome : selector.scope ≠ .none) :
    (selector.scopeReason X hash entry).isSome ↔
      systemAllowed sel.predicates.systems entry.system = true ∧
        (isAll = true ∨ sel.predicates.Matches X hash entry) := by
  have hall : selector.scope = .all sel.predicates.systems →
      ((selector.scopeReason X hash entry).isSome ↔
        systemAllowed sel.predicates.systems entry.system = true) := by
    intro h
    rw [CacheSelector.scopeReason, h]
    cases hsystem : systemAllowed sel.predicates.systems entry.system with
    | false => simp [hsystem]
    | true => cases selector.protectGcRoots <;> simp [hsystem]
  unfold scope at hscope
  split_ifs at hscope with hisAll hempty
  · rw [hall hscope]
    simp [hisAll]
  · cases policy with
    | requireExplicit => exact absurd hscope hsome
    | selectAll =>
        -- without any predicate everything matches
        have hitems : sel.predicates.hasItemFilters = false := by
          simpa [FilterPredicates.isEmpty] using (decide_eq_true_eq.mp hempty).2
        rw [hall hscope, FilterPredicates.matches_iff, hitems]
        simp +contextual
  · rw [CacheSelector.scopeReason, hscope, Option.isSome_map]
    simp only [hisAll, Bool.false_eq_true, false_or]
    constructor
    · intro hmatches
      exact ⟨(FilterPredicates.matches_iff.mp hmatches).1, hmatches⟩
    · exact And.right

theorem targetSystems_eq {isAll : Bool} {policy : DefaultScopePolicy} {selector : CacheSelector}
    (hscope : selector.scope = sel.scope isAll policy) (hsome : selector.scope ≠ .none) :
    selector.targetSystems =
      if sel.predicates.systems = ∅ then none else some sel.predicates.systems := by
  unfold scope at hscope
  split_ifs at hscope with hisAll hempty
  · rw [CacheSelector.targetSystems, hscope]
  · cases policy with
    | requireExplicit => exact absurd hscope hsome
    | selectAll => rw [CacheSelector.targetSystems, hscope]
  · rw [CacheSelector.targetSystems, hscope]

end Selection

/-- The empty selection is covered by every other. -/
theorem covers_of_scope_none {X : Crates} {narrow wide : CacheSelector}
    (h : narrow.scope = .none) : Covers X narrow wide := by
  intro entries gcRoots result result' hresult _ hash hmem
  obtain ⟨entry, -, -, hscope⟩ := (mem_initialMatchedHashes hresult).mp hmem
  rw [CacheSelector.scopeReason, h] at hscope
  cases hscope

/-- The selectors of two invocations in the same settings are compared entry by entry, unless
everything is selected. -/
theorem Invocation.SameSettings.covers_iff {inv inv' : Invocation} (h : SameSettings inv inv')
    {sel sel' : Selection} (hsystems : sel'.systems = sel.systems) (X : Crates)
    (defaultCascade : CascadeMode) (policy : DefaultScopePolicy)
    (hsome : (inv.selectorOf defaultCascade policy sel).scope ≠ .none)
    (hsome' : (inv'.selectorOf defaultCascade policy sel').scope ≠ .none) :
    Covers X (inv.selectorOf defaultCascade policy sel)
        (inv'.selectorOf defaultCascade policy sel') ↔
      inv.args.resolveAll inv.host = true ∨ sel.MatchedBy X sel' := by
  have hpredicates : sel'.predicates.systems = sel.predicates.systems := by
    rw [Selection.predicates, Selection.predicates, hsystems]
  rw [NixCache.Core.covers_iff]
  · simp only [Selection.scopeReason_isSome rfl hsome, Selection.scopeReason_isSome rfl hsome',
      hpredicates, h.all]
    cases inv.args.resolveAll inv.host with
    | true => simp
    | false =>
        simp only [Bool.false_eq_true, false_or, Selection.MatchedBy]
        constructor
        · intro hcovers hash entry hmatches
          exact (hcovers hash entry ⟨(FilterPredicates.matches_iff.mp hmatches).1, hmatches⟩).2
        · rintro hmatched hash entry ⟨hsystem, hmatches⟩
          exact ⟨hsystem, hmatched hash entry hmatches⟩
  · exact h.protectGcRoots
  · rw [Selection.targetSystems_eq rfl hsome', Selection.targetSystems_eq rfl hsome, hpredicates]

end NixCache.Cli
