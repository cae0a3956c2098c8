import NixCache.Core.Proofs.FreshRoot
import NixCache.Lib.Alone
import NixCache.Proxy.Server
/-!
# What each handler does alone

One specification for each handler of the proxy that no other call disturbs: the state it leaves and
its result, from the answers of the OCI client and of the backup file.
-/

namespace NixCache.Proxy

open NixCache.Lib NixCache.Lib.Result NixCache.Core NixCache.Oci
open Program (Trace Follows)
open NixCache.Lib.Action (Takes takes_ask takes_bind takes_pure takes_pure_bind)

variable {index : CacheIndex} {before after : Shared} {trace : Trace Operation Answer}

/-! ## Operations -/

/-- An operation on the shared state is answered in one way. -/
theorem step_of_apply {operation : Operation} {answer found : Answer} {middle : Shared}
    (happly : before.apply operation = some (answer, middle))
    (h : Step index before (operation, found) after) : found = answer ∧ after = middle := by
  cases h with
  | apply h =>
      rw [happly] at h
      cases h
      exact ⟨rfl, rfl⟩
  | utcNow text => simp [Shared.apply] at happly
  | findShardNar h => simp [Shared.apply] at happly
  | getShardedRoot h => simp [Shared.apply] at happly
  | getShardData h => simp [Shared.apply] at happly
  | readBackup bytes => simp [Shared.apply] at happly

/-- An operation on the shared state, and what comes after it. -/
theorem takes_ask_bind {α β : Type} {operation : Operation} {read : Answer → Option α}
    {next : α → Handler β} {answer : Answer} {value : α} {middle : Shared}
    {result : Except Panic β} (happly : before.apply operation = some (answer, middle))
    (hread : read answer = some value) :
    Takes (Step index) (ask operation read >>= next) before trace result after ↔
      ∃ rest, trace = (operation, answer) :: rest ∧
        Takes (Step index) (next value) middle rest result after := by
  have hok : okOr Panic.wrongAnswer (read answer) = .ok value := okOr_eq_ok.mpr hread
  constructor
  · intro h
    rcases takes_bind.mp h with ⟨front, back, found, state, rfl, hfirst, hnext⟩ |
      ⟨error, _, hfirst⟩
    · obtain ⟨answer', rfl, hresult, hstep⟩ := takes_ask.mp hfirst
      obtain ⟨rfl, rfl⟩ := step_of_apply happly hstep
      rw [hok] at hresult
      cases hresult
      exact ⟨back, rfl, hnext⟩
    · obtain ⟨answer', _, hresult, hstep⟩ := takes_ask.mp hfirst
      obtain ⟨rfl, rfl⟩ := step_of_apply happly hstep
      rw [hok] at hresult
      cases hresult
  · rintro ⟨rest, rfl, hnext⟩
    have hask : Takes (Step index) (ask operation read) before [(operation, answer)] (.ok value)
        middle :=
      takes_ask.mpr ⟨answer, rfl, hok.symm, .apply happly⟩
    exact hask.bind hnext

theorem takes_perform_bind {β : Type} {operation : Operation} {next : Unit → Handler β}
    {middle : Shared} {result : Except Panic β}
    (happly : before.apply operation = some (.done, middle)) :
    Takes (Step index) (perform operation >>= next) before trace result after ↔
      ∃ rest, trace = (operation, .done) :: rest ∧
        Takes (Step index) (next ()) middle rest result after :=
  takes_ask_bind happly rfl

/-- An operation on the shared state, as the last one. -/
theorem takes_ask_apply {α : Type} {operation : Operation} {read : Answer → Option α}
    {answer : Answer} {value : α} {middle : Shared} {result : Except Panic α}
    (happly : before.apply operation = some (answer, middle)) (hread : read answer = some value) :
    Takes (Step index) (ask operation read) before trace result after ↔
      trace = [(operation, answer)] ∧ result = .ok value ∧ after = middle := by
  have hok : okOr Panic.wrongAnswer (read answer) = .ok value := okOr_eq_ok.mpr hread
  constructor
  · intro h
    obtain ⟨found, rfl, rfl, hstep⟩ := takes_ask.mp h
    obtain ⟨rfl, rfl⟩ := step_of_apply happly hstep
    exact ⟨rfl, hok, rfl⟩
  · rintro ⟨rfl, rfl, rfl⟩
    exact takes_ask.mpr ⟨answer, rfl, hok.symm, .apply happly⟩

/-- A question to the world outside, which leaves the state as it is. -/
theorem takes_askOutside_bind {α β : Type} {operation : Operation} {read : Answer → Option α}
    {next : α → Handler β} {result : Except Panic β}
    (hanswers : ∀ answer after, Step index before (operation, answer) after →
      after = before ∧ ∃ value, read answer = some value)
    (h : Takes (Step index) (ask operation read >>= next) before trace result after) :
    ∃ answer value rest, trace = (operation, answer) :: rest ∧ read answer = some value ∧
      Step index before (operation, answer) before ∧
      Takes (Step index) (next value) before rest result after := by
  rcases takes_bind.mp h with ⟨front, back, value, middle, rfl, hask, hrest⟩ | ⟨_, _, hask⟩
  · obtain ⟨answer, rfl, hread, hstep⟩ := takes_ask.mp hask
    obtain ⟨rfl, _⟩ := hanswers answer middle hstep
    exact ⟨answer, value, back, rfl, okOr_eq_ok.mp hread.symm, hstep, hrest⟩
  · obtain ⟨answer, _, hread, hstep⟩ := takes_ask.mp hask
    obtain ⟨_, value, hvalue⟩ := hanswers answer _ hstep
    rw [okOr_eq_ok.mpr hvalue] at hread
    cases hread

theorem takes_getShardedRoot_bind {β : Type}
    {next : Except OciError (Option (ShardedArchCacheIndexData × String)) → Handler β}
    {result : Except Panic β}
    (h : Takes (Step index) (ask .getShardedRoot Answer.asRoot >>= next) before trace result after) :
    ∃ answer rest, trace = (.getShardedRoot, .root answer) :: rest ∧
      (∃ exchange : Trace Request Reply, (IndexClient.getShardedRoot index.crates index.client
        index.config.baselineTag index.config.targetSystem).Runs exchange answer) ∧
      Takes (Step index) (next answer) before rest result after := by
  obtain ⟨answer, value, rest, rfl, hread, hstep, hrest⟩ := takes_askOutside_bind (by
    intro answer after hstep
    cases hstep with
    | apply happly => simp [Shared.apply] at happly
    | getShardedRoot hruns => exact ⟨rfl, _, rfl⟩) h
  cases hstep with
  | apply happly => simp [Shared.apply] at happly
  | getShardedRoot hruns =>
      cases hread
      exact ⟨_, rest, rfl, ⟨_, hruns⟩, hrest⟩

theorem takes_getShardDataOf_bind {β : Type} {descriptor : ShardDescriptor}
    {next : Except OciError ShardDataPayload → Handler β} {result : Except Panic β}
    (h : Takes (Step index) (ask (.getShardData descriptor) Answer.asPayload >>= next) before trace
      result after) :
    ∃ answer rest, trace = (.getShardData descriptor, .payload answer) :: rest ∧
      (∃ exchange : Trace Request Reply, (IndexClient.getShardData index.crates index.client
        descriptor index.config.targetSystem).Runs exchange answer) ∧
      Takes (Step index) (next answer) before rest result after := by
  obtain ⟨answer, value, rest, rfl, hread, hstep, hrest⟩ := takes_askOutside_bind (by
    intro answer after hstep
    cases hstep with
    | apply happly => simp [Shared.apply] at happly
    | getShardData hruns => exact ⟨rfl, _, rfl⟩) h
  cases hstep with
  | apply happly => simp [Shared.apply] at happly
  | getShardData hruns =>
      cases hread
      exact ⟨_, rest, rfl, ⟨_, hruns⟩, hrest⟩

theorem takes_readBackup_bind {β : Type} {next : Option Bytes → Handler β}
    {result : Except Panic β}
    (h : Takes (Step index) (ask .readBackup Answer.asBackup >>= next) before trace result after) :
    ∃ bytes rest, trace = (.readBackup, .backup bytes) :: rest ∧
      Takes (Step index) (next bytes) before rest result after := by
  obtain ⟨answer, value, rest, rfl, hread, hstep, hrest⟩ := takes_askOutside_bind (by
    intro answer after hstep
    cases hstep with
    | apply happly => simp [Shared.apply] at happly
    | readBackup bytes => exact ⟨rfl, _, rfl⟩) h
  cases hstep with
  | apply happly => simp [Shared.apply] at happly
  | readBackup bytes =>
      cases hread
      exact ⟨_, rest, rfl, hrest⟩

theorem takes_utcNow_bind {β : Type} {next : String → Handler β} {result : Except Panic β}
    (h : Takes (Step index) (ask .utcNow Answer.asUtc >>= next) before trace result after) :
    ∃ text rest, trace = (.utcNow, .utc text) :: rest ∧
      Takes (Step index) (next text) before rest result after := by
  obtain ⟨answer, value, rest, rfl, hread, hstep, hrest⟩ := takes_askOutside_bind (by
    intro answer after hstep
    cases hstep with
    | apply happly => simp [Shared.apply] at happly
    | utcNow text => exact ⟨rfl, _, rfl⟩) h
  cases hstep with
  | apply happly => simp [Shared.apply] at happly
  | utcNow text =>
      cases hread
      exact ⟨_, rest, rfl, hrest⟩

/-- Operations on all items of a list. -/
theorem takes_upsertAll {α : Type} {operation : α → Operation} {items : List α}
    {effect : Shared → α → Shared} {result : Except Panic Unit}
    (happly : ∀ shared item, shared.apply (operation item) = some (.done, effect shared item)) :
    Takes (Step index) (CacheIndex.upsertAll operation items) before trace result after ↔
      trace = items.map (fun item => (operation item, .done)) ∧ result = .ok () ∧
        after = items.foldl effect before := by
  induction items generalizing before trace with
  | nil => exact takes_pure
  | cons item items ih =>
      rw [CacheIndex.upsertAll, takes_perform_bind (happly before item)]
      constructor
      · rintro ⟨rest, rfl, hrest⟩
        obtain ⟨rfl, rfl, rfl⟩ := ih.mp hrest
        exact ⟨rfl, rfl, rfl⟩
      · rintro ⟨rfl, rfl, rfl⟩
        exact ⟨_, rfl, ih.mpr ⟨rfl, rfl, rfl⟩⟩

/-! ## Choices -/

section

variable {α β : Type} {value : α} {result : Except Panic β}

theorem takes_orElse_some_bind {next : Handler (Option α)} {rest : Option α → Handler β} :
    Takes (Step index) (orElse (some value) next >>= rest) before trace result after ↔
      Takes (Step index) (rest (some value)) before trace result after :=
  Iff.rfl

theorem takes_orElse_none_bind {next : Handler (Option α)} {rest : Option α → Handler β} :
    Takes (Step index) (orElse none next >>= rest) before trace result after ↔
      Takes (Step index) (next >>= rest) before trace result after :=
  Iff.rfl

theorem takes_getOrElse_some_bind {next : Handler α} {rest : α → Handler β} :
    Takes (Step index) (getOrElse (some value) next >>= rest) before trace result after ↔
      Takes (Step index) (rest value) before trace result after :=
  Iff.rfl

theorem takes_getOrElse_none_bind {next : Handler α} {rest : α → Handler β} :
    Takes (Step index) (getOrElse none next >>= rest) before trace result after ↔
      Takes (Step index) (next >>= rest) before trace result after :=
  Iff.rfl

end

/-! ## Registrations -/

/-- The state after a registration. -/
def Shared.register (shared : Shared) (entries : HashMap StoreHash IndexEntry) : Shared :=
  { shared with
    hotEntries := fun hash => (entries.lookup hash).or (shared.hotEntries hash)
    hotNarLookup := fun name =>
      ((buildNarLookupMap entries).lookup name).or (shared.hotNarLookup name)
    hotCount := shared.hotCount + entries.size }

theorem foldl_upsertHot (shared : Shared) (pairs : List (StoreHash × IndexEntry)) :
    pairs.foldl (fun (s : Shared) pair =>
        { s with hotEntries := Function.update s.hotEntries pair.1 (some pair.2) }) shared =
      { shared with
        hotEntries := pairs.foldl
          (fun (g : StoreHash → Option IndexEntry) pair =>
            Function.update g pair.1 (some pair.2))
          shared.hotEntries } := by
  induction pairs generalizing shared with
  | nil => rfl
  | cons pair pairs ih =>
      rw [List.foldl_cons, ih]
      rfl

theorem foldl_upsertHotNar (shared : Shared) (pairs : List (String × NarDigest)) :
    pairs.foldl (fun (s : Shared) pair =>
        { s with hotNarLookup := Function.update s.hotNarLookup pair.1 (some pair.2) }) shared =
      { shared with
        hotNarLookup := pairs.foldl
          (fun (g : String → Option NarDigest) pair => Function.update g pair.1 (some pair.2))
          shared.hotNarLookup } := by
  induction pairs generalizing shared with
  | nil => rfl
  | cons pair pairs ih =>
      rw [List.foldl_cons, ih]
      rfl

namespace CacheIndex

theorem takes_registerHotEntries {entries : HashMap StoreHash IndexEntry}
    {result : Except Panic Unit}
    (h : Takes (Step index) (registerHotEntries entries) before trace result after) :
    result = .ok () ∧ after = before.register entries := by
  unfold registerHotEntries at h
  rcases takes_bind.mp h with ⟨front, back, _, middle, rfl, hhot, hrest⟩ | ⟨_, _, hhot⟩
  · obtain ⟨-, -, rfl⟩ := (takes_upsertAll fun _ _ => rfl).mp hhot
    rcases takes_bind.mp hrest with ⟨front', back', _, middle', rfl, hnar, hcount⟩ | ⟨_, _, hnar⟩
    · obtain ⟨-, -, rfl⟩ := (takes_upsertAll fun _ _ => rfl).mp hnar
      obtain ⟨-, rfl, rfl⟩ := (takes_ask_apply (by rfl) (by rfl)).mp hcount
      refine ⟨rfl, ?_⟩
      rw [foldl_upsertHotNar, foldl_upsertHot, HashMap.foldl_update, HashMap.foldl_update]
      rfl
    · obtain ⟨-, herror, -⟩ := (takes_upsertAll fun _ _ => rfl).mp hnar
      cases herror
  · obtain ⟨-, herror, -⟩ := (takes_upsertAll fun _ _ => rfl).mp hhot
    cases herror

/-! ## Counts -/

theorem takes_getEntryCounts {result : Except Panic StatusEntryCounts}
    (h : Takes (Step index) index.getEntryCounts before trace result after) :
    after = before ∧
      ∃ baselineCount, result = .ok ⟨before.hotCount, baselineCount,
          if 0 < baselineCount then before.hotCount + baselineCount else before.hotCount⟩ ∧
        baselineCount = (((before.baselineCache index.cacheKey).or
          (before.baselineCache index.config.baselineTag)).map
            fun entry => entry.baseline.totalEntries).getD 0 := by
  unfold getEntryCounts at h
  obtain ⟨_, rfl, hkeyed⟩ := (takes_ask_bind (by rfl) (by rfl)).mp h
  obtain ⟨_, rfl, hentry⟩ := (takes_ask_bind (by rfl) (by rfl)).mp hkeyed
  cases hcached : before.baselineCache index.cacheKey with
  | some entry =>
      rw [hcached, takes_orElse_some_bind] at hentry
      obtain ⟨rfl, rfl, rfl⟩ := takes_pure.mp hentry
      exact ⟨rfl, _, rfl, rfl⟩
  | none =>
      rw [hcached, takes_orElse_none_bind] at hentry
      obtain ⟨_, rfl, hcounts⟩ := (takes_ask_bind (by rfl) (by rfl)).mp hentry
      obtain ⟨rfl, rfl, rfl⟩ := takes_pure.mp hcounts
      exact ⟨rfl, _, rfl, rfl⟩

/-! ## Baselines -/

/-- The root in an answer of the registry. -/
def fetchedRoot : Except OciError (Option (ShardedArchCacheIndexData × String)) →
    Option ShardedArchCacheIndexData
  | .ok (some (root, _)) => some root
  | _ => none

/-- The status after an answer of the registry. -/
def statusAfter {α : Type} : Except OciError α → RemoteStatus
  | .ok _ => { connected := true }
  | .error error => { connected := false, error := some error }

/-- The shards that `dropChanged` removes. -/
def changedShards (index : CacheIndex) (old : Option CachedBaselineEntry)
    (root : ShardedArchCacheIndexData) : List UInt16 :=
  match old with
  | none => []
  | some entry =>
      if entry.baseline.merkleRoot ≠ root.merkleRoot then
        (diffShardDescriptors index.crates.toCrates entry.baseline.shards root.shards).toOption.getD []
      else []

/-- What a refresh is told: by the registry, then by the backup file and the clock. -/
structure Refresh where
  answer : Except OciError (Option (ShardedArchCacheIndexData × String))
  backup : Option Bytes := none
  utc : String := ""

namespace Refresh

/-- The root that the refresh arrives at. -/
def root (index : CacheIndex) (refresh : Refresh) : ShardedArchCacheIndexData :=
  ((fetchedRoot refresh.answer).or (refresh.backup.bind index.readBackup)).getD
    (freshRoot index.crates.toCrates index.config.targetSystem index.config.repo
      index.config.registry refresh.utc)

/-- The shards that the refresh removes from the cache. -/
def dropped (index : CacheIndex) (shared : Shared) (refresh : Refresh) : List UInt16 :=
  ((fetchedRoot refresh.answer).map
    (index.changedShards (shared.baselineCache index.cacheKey))).getD []

/-- The trace holds what the refresh is told. -/
structure IsIn (index : CacheIndex) (trace : Trace Operation Answer) (refresh : Refresh) : Prop where
  asked : (.getShardedRoot, .root refresh.answer) ∈ trace
  answered : ∃ exchange : Trace Request Reply,
    (IndexClient.getShardedRoot index.crates index.client index.config.baselineTag
      index.config.targetSystem).Runs exchange refresh.answer
  read : fetchedRoot refresh.answer = none → (.readBackup, .backup refresh.backup) ∈ trace

theorem IsIn.mono {index : CacheIndex} {trace whole : Trace Operation Answer} {refresh : Refresh}
    (h : refresh.IsIn index trace) (hsubset : trace ⊆ whole) : refresh.IsIn index whole where
  asked := hsubset h.asked
  answered := h.answered
  read hnone := hsubset (h.read hnone)

end Refresh

end CacheIndex

namespace Shared

def dropShards (shared : Shared) (shardIds : List UInt16) : Shared :=
  { shared with
    shardCache := fun shardId => if shardId ∈ shardIds then none else shared.shardCache shardId }

/-- The state after a refresh. -/
def refreshed (index : CacheIndex) (shared : Shared) (refresh : CacheIndex.Refresh) : Shared :=
  { shared.dropShards (refresh.dropped index shared) with
    remoteStatus := CacheIndex.statusAfter refresh.answer
    baselineCache := Function.update shared.baselineCache index.cacheKey
      (some ⟨refresh.root index, shared.now + index.config.baselineTtl⟩) }

theorem foldl_removeShard (shared : Shared) (shardIds : List UInt16) :
    shardIds.foldl (fun (s : Shared) shardId =>
        { s with shardCache := Function.update s.shardCache shardId none }) shared =
      shared.dropShards shardIds := by
  induction shardIds generalizing shared with
  | nil => simp [dropShards]
  | cons shardId shardIds ih =>
      rw [List.foldl_cons, ih]
      unfold dropShards
      congr 1
      funext other
      by_cases hother : other = shardId
      · simp [hother]
      · simp [hother]

end Shared

namespace CacheIndex

theorem takes_dropChanged {old : Option CachedBaselineEntry} {root : ShardedArchCacheIndexData}
    {result : Except Panic Unit}
    (h : Takes (Step index) (index.dropChanged old root) before trace result after) :
    result = .ok () ∧ after = before.dropShards (index.changedShards old root) := by
  have hnone : before = before.dropShards [] := by simp [Shared.dropShards]
  cases old with
  | none =>
      obtain ⟨_, rfl, rfl⟩ := takes_pure.mp h
      exact ⟨rfl, hnone⟩
  | some entry =>
      unfold dropChanged at h
      unfold changedShards
      dsimp only at h ⊢
      split at h
      · rename_i hchanged
        obtain ⟨_, rfl, rfl⟩ := (takes_upsertAll fun _ _ => by rfl).mp h
        rw [if_pos hchanged, Shared.foldl_removeShard]
        exact ⟨rfl, rfl⟩
      · rename_i hchanged
        obtain ⟨_, rfl, rfl⟩ := takes_pure.mp h
        rw [if_neg hchanged]
        exact ⟨rfl, hnone⟩

theorem takes_writeBackup {root : ShardedArchCacheIndexData} {result : Except Panic Unit}
    (h : Takes (Step index) (index.writeBackup root) before trace result after) :
    result = .ok () ∧ after = before := by
  unfold writeBackup at h
  split at h
  · obtain ⟨_, rfl, rfl⟩ := (takes_ask_apply (by rfl) (by rfl)).mp h
    exact ⟨rfl, rfl⟩
  · obtain ⟨_, rfl, rfl⟩ := takes_pure.mp h
    exact ⟨rfl, rfl⟩

theorem takes_fetchBaseline {result : Except Panic (Option ShardedArchCacheIndexData)}
    (h : Takes (Step index) index.fetchBaseline before trace result after) :
    ∃ answer, (.getShardedRoot, .root answer) ∈ trace ∧
      (∃ exchange : Trace Request Reply, (IndexClient.getShardedRoot index.crates index.client
        index.config.baselineTag index.config.targetSystem).Runs exchange answer) ∧
      result = .ok (fetchedRoot answer) ∧
      after = { before.dropShards (Refresh.dropped index before ⟨answer, none, ""⟩) with
        remoteStatus := statusAfter answer } := by
  unfold fetchBaseline at h
  obtain ⟨answer, rest, rfl, hexchange, hrest⟩ := takes_getShardedRoot_bind h
  refine ⟨answer, by simp, hexchange, ?_⟩
  have hnone : before.dropShards [] = before := by simp [Shared.dropShards]
  match answer, hrest with
  | .ok (some (root, digest)), hrest =>
      obtain ⟨_, rfl, hread⟩ := (takes_perform_bind (by rfl)).mp hrest
      obtain ⟨_, rfl, hdrop⟩ := (takes_ask_bind (by rfl) (by rfl)).mp hread
      rcases takes_bind.mp hdrop with ⟨_, _, _, _, rfl, hdropped, hwrite⟩ | ⟨_, _, hdropped⟩
      · obtain ⟨_, rfl⟩ := takes_dropChanged hdropped
        rcases takes_bind.mp hwrite with ⟨_, _, _, _, rfl, hwritten, hpure⟩ | ⟨_, _, hwritten⟩
        · obtain ⟨_, rfl⟩ := takes_writeBackup hwritten
          obtain ⟨_, rfl, rfl⟩ := takes_pure.mp hpure
          exact ⟨rfl, rfl⟩
        · cases (takes_writeBackup hwritten).1
      · cases (takes_dropChanged hdropped).1
  | .ok none, hrest =>
      obtain ⟨_, rfl, hpure⟩ := (takes_perform_bind (by rfl)).mp hrest
      obtain ⟨_, rfl, rfl⟩ := takes_pure.mp hpure
      have hdropped : Refresh.dropped index before ⟨.ok none, none, ""⟩ = [] := rfl
      rw [hdropped, hnone]
      exact ⟨rfl, rfl⟩
  | .error error, hrest =>
      obtain ⟨_, rfl, hpure⟩ := (takes_perform_bind (by rfl)).mp hrest
      obtain ⟨_, rfl, rfl⟩ := takes_pure.mp hpure
      have hdropped : Refresh.dropped index before ⟨.error error, none, ""⟩ = [] := rfl
      rw [hdropped, hnone]
      exact ⟨rfl, rfl⟩

theorem takes_emptyBaseline_bind {β : Type} {next : ShardedArchCacheIndexData → Handler β}
    {result : Except Panic β}
    (h : Takes (Step index) (index.emptyBaseline >>= next) before trace result after) :
    ∃ text rest, trace = (.utcNow, .utc text) :: rest ∧
      Takes (Step index) (next (freshRoot index.crates.toCrates index.config.targetSystem
        index.config.repo index.config.registry text)) before rest result after := by
  have hnew := fun text => new_eq_ok index.crates.toCrates index.config.targetSystem
    index.config.repo index.config.registry text
  unfold emptyBaseline at h
  rcases takes_bind.mp h with ⟨_, back, root, middle, rfl, hempty, hrest⟩ | ⟨_, _, hempty⟩
  · obtain ⟨text, _, rfl, hexpect⟩ := takes_utcNow_bind hempty
    rw [hnew text] at hexpect
    obtain ⟨rfl, hroot, rfl⟩ := takes_pure.mp hexpect
    cases hroot
    exact ⟨text, back, rfl, hrest⟩
  · obtain ⟨text, _, _, hexpect⟩ := takes_utcNow_bind hempty
    rw [hnew text] at hexpect
    obtain ⟨_, hroot, _⟩ := takes_pure.mp hexpect
    cases hroot

theorem takes_backupBaseline_bind {β : Type}
    {next : Option ShardedArchCacheIndexData → Handler β} {result : Except Panic β}
    (h : Takes (Step index) (index.backupBaseline >>= next) before trace result after) :
    ∃ bytes rest, trace = (.readBackup, .backup bytes) :: rest ∧
      Takes (Step index) (next (bytes.bind index.readBackup)) before rest result after := by
  unfold backupBaseline at h
  rcases takes_bind.mp h with ⟨_, back, found, middle, rfl, hbackup, hrest⟩ | ⟨_, _, hbackup⟩
  · obtain ⟨bytes, _, rfl, hpure⟩ := takes_readBackup_bind hbackup
    obtain ⟨rfl, hfound, rfl⟩ := takes_pure.mp hpure
    cases hfound
    exact ⟨bytes, back, rfl, hrest⟩
  · obtain ⟨bytes, _, _, hpure⟩ := takes_readBackup_bind hbackup
    obtain ⟨_, hfound, _⟩ := takes_pure.mp hpure
    cases hfound

/-- A refresh arrives at a root, whatever it is told. -/
theorem takes_refreshBaseline {result : Except Panic ShardedArchCacheIndexData}
    (h : Takes (Step index) index.refreshBaseline before trace result after) :
    ∃ refresh : Refresh, refresh.IsIn index trace ∧ result = .ok (refresh.root index) ∧
      after = before.refreshed index refresh := by
  unfold refreshBaseline at h
  rcases takes_bind.mp h with ⟨front, back, found, middle, rfl, hfetch, hrest⟩ | ⟨_, _, hfetch⟩
  · obtain ⟨answer, hasked, hanswered, hfound, hmiddle⟩ := takes_fetchBaseline hfetch
    cases hfound
    have hstored : ∀ (root : ShardedArchCacheIndexData) (rest : Trace Operation Answer),
        Takes (Step index) (do
          let now ← ask .now Answer.asInstant
          perform (.upsertBaseline index.cacheKey ⟨root, now + index.config.baselineTtl⟩)
          pure root) middle rest result after →
        result = .ok root ∧ after = { middle with
          baselineCache := Function.update middle.baselineCache index.cacheKey
            (some ⟨root, middle.now + index.config.baselineTtl⟩) } := by
      intro root rest hstore
      obtain ⟨_, rfl, hupsert⟩ := (takes_ask_bind (by rfl) (by rfl)).mp hstore
      obtain ⟨_, rfl, hpure⟩ := (takes_perform_bind (by rfl)).mp hupsert
      obtain ⟨_, rfl, rfl⟩ := takes_pure.mp hpure
      exact ⟨rfl, rfl⟩
    cases hroot : fetchedRoot answer with
    | some root =>
        rw [hroot, takes_orElse_some_bind, takes_getOrElse_some_bind] at hrest
        obtain ⟨rfl, rfl⟩ := hstored root back hrest
        refine ⟨⟨answer, none, ""⟩, ⟨by simp [hasked], hanswered, ?_⟩, ?_, ?_⟩
        · simp [hroot]
        · simp [Refresh.root, hroot]
        · simp only [hmiddle, Shared.refreshed, Refresh.root, hroot]
          rfl
    | none =>
        rw [hroot, takes_orElse_none_bind] at hrest
        obtain ⟨bytes, rest, rfl, hbackup⟩ := takes_backupBaseline_bind hrest
        cases hread : bytes.bind index.readBackup with
        | some root =>
            rw [hread, takes_getOrElse_some_bind] at hbackup
            obtain ⟨rfl, rfl⟩ := hstored root rest hbackup
            refine ⟨⟨answer, bytes, ""⟩, ⟨by simp [hasked], hanswered, by simp⟩, ?_, ?_⟩
            · simp [Refresh.root, hroot, hread]
            · simp only [hmiddle, Shared.refreshed, Refresh.root, hroot, hread]
              rfl
        | none =>
            rw [hread, takes_getOrElse_none_bind] at hbackup
            obtain ⟨text, rest', rfl, hempty⟩ := takes_emptyBaseline_bind hbackup
            obtain ⟨rfl, rfl⟩ := hstored _ rest' hempty
            refine ⟨⟨answer, bytes, text⟩, ⟨by simp [hasked], hanswered, by simp⟩, ?_, ?_⟩
            · simp [Refresh.root, hroot, hread]
            · simp only [hmiddle, Shared.refreshed, Refresh.root, hroot, hread]
              rfl
  · obtain ⟨_, _, _, hresult, _⟩ := takes_fetchBaseline hfetch
    cases hresult

theorem takes_cachedBaseline_bind {β : Type} {entry : CachedBaselineEntry}
    {next : Option ShardedArchCacheIndexData → Handler β} {result : Except Panic β}
    (h : Takes (Step index) (cachedBaseline (some entry) >>= next) before trace result after) :
    ∃ rest, trace = (.now, .instant before.now) :: rest ∧
      Takes (Step index) (next (if before.now < entry.expiresAt then some entry.baseline else none))
        before rest result after := by
  unfold cachedBaseline at h
  rcases takes_bind.mp h with ⟨_, back, found, middle, rfl, hcached, hrest⟩ | ⟨_, _, hcached⟩
  · obtain ⟨_, rfl, hpure⟩ := (takes_ask_bind (by rfl) (by rfl)).mp hcached
    obtain ⟨rfl, hfound, rfl⟩ := takes_pure.mp hpure
    cases hfound
    exact ⟨back, rfl, hrest⟩
  · obtain ⟨_, _, hpure⟩ := (takes_ask_bind (by rfl) (by rfl)).mp hcached
    obtain ⟨_, hfound, _⟩ := takes_pure.mp hpure
    cases hfound

/-- The baseline is used while it has not expired, and then fetched again. -/
theorem takes_getBaselineData {result : Except Panic ShardedArchCacheIndexData}
    (h : Takes (Step index) index.getBaselineData before trace result after) :
    (∃ entry, before.baselineCache index.cacheKey = some entry ∧ before.now < entry.expiresAt ∧
        result = .ok entry.baseline ∧ after = before) ∨
      ∃ refresh : Refresh, refresh.IsIn index trace ∧
        (∀ entry, before.baselineCache index.cacheKey = some entry → entry.expiresAt ≤ before.now) ∧
        result = .ok (refresh.root index) ∧ after = before.refreshed index refresh := by
  unfold getBaselineData at h
  obtain ⟨rest, rfl, hcached⟩ := (takes_ask_bind (by rfl) (by rfl)).mp h
  cases hentry : before.baselineCache index.cacheKey with
  | none =>
      rw [hentry] at hcached
      obtain ⟨refresh, hin, hresult, hafter⟩ := takes_refreshBaseline hcached
      exact Or.inr ⟨refresh, hin.mono (by simp), by simp, hresult, hafter⟩
  | some entry =>
      rw [hentry] at hcached
      obtain ⟨rest', rfl, hfound⟩ := takes_cachedBaseline_bind hcached
      by_cases hfresh : before.now < entry.expiresAt
      · rw [if_pos hfresh] at hfound
        obtain ⟨_, rfl, rfl⟩ := takes_pure.mp hfound
        exact Or.inl ⟨entry, rfl, hfresh, rfl, rfl⟩
      · rw [if_neg hfresh] at hfound
        obtain ⟨refresh, hin, hresult, hafter⟩ := takes_refreshBaseline hfound
        refine Or.inr ⟨refresh, hin.mono (by simp), ?_, hresult, hafter⟩
        intro other hother
        cases hother
        omega

/-! ## Shards -/

/-- A cached shard that is used for the descriptor. -/
def IsUsable (descriptor : ShardDescriptor) (now : Nat) (entry : ShardCacheEntry) : Prop :=
  entry.blobDigest = descriptor.blobDigest ∧ now < entry.expiresAt

end CacheIndex

/-- The state after an answer to the request for a shard. -/
def Shared.loaded (index : CacheIndex) (shared : Shared) (descriptor : ShardDescriptor)
    (answer : Except OciError ShardDataPayload) : Shared :=
  { shared with
    remoteStatus := CacheIndex.statusAfter answer
    shardCache :=
      match answer with
      | .ok payload =>
          Function.update shared.shardCache descriptor.shardId
            (some ⟨payload, buildNarLookupMap payload.entries, descriptor.blobDigest,
              shared.now + index.config.baselineTtl⟩)
      | .error _ => shared.shardCache }

namespace CacheIndex

theorem takes_cachedPayload_bind {β : Type} {descriptor : ShardDescriptor}
    {entry : Option ShardCacheEntry} {next : Option ShardDataPayload → Handler β}
    {result : Except Panic β}
    (h : Takes (Step index) (cachedPayload descriptor entry >>= next) before trace result after) :
    ∃ found rest, rest ⊆ trace ∧ Takes (Step index) (next found) before rest result after ∧
      ∀ payload, found = some payload ↔
        ∃ cached, entry = some cached ∧ IsUsable descriptor before.now cached ∧
          cached.payload = payload := by
  cases entry with
  | none => exact ⟨none, trace, by simp, h, by simp⟩
  | some cached =>
      unfold cachedPayload at h
      dsimp only at h
      split at h
      · rename_i hdigest
        rcases takes_bind.mp h with ⟨_, back, found, middle, rfl, hcached, hrest⟩ | ⟨_, _, hcached⟩
        · obtain ⟨_, rfl, hpure⟩ := (takes_ask_bind (by rfl) (by rfl)).mp hcached
          obtain ⟨rfl, hfound, rfl⟩ := takes_pure.mp hpure
          cases hfound
          refine ⟨_, back, by simp, hrest, ?_⟩
          intro payload
          simp only [Option.some.injEq, exists_eq_left', IsUsable, hdigest, true_and]
          split <;> simp_all
        · obtain ⟨_, _, hpure⟩ := (takes_ask_bind (by rfl) (by rfl)).mp hcached
          obtain ⟨_, hfound, _⟩ := takes_pure.mp hpure
          cases hfound
      · rename_i hdigest
        exact ⟨none, trace, by simp, h, by simp [IsUsable, hdigest]⟩

theorem takes_fetchShardData {descriptor : ShardDescriptor}
    {result : Except Panic (Option ShardDataPayload)}
    (h : Takes (Step index) (index.fetchShardData descriptor) before trace result after) :
    ∃ answer, (.getShardData descriptor, .payload answer) ∈ trace ∧
      (∃ exchange : Trace Request Reply, (IndexClient.getShardData index.crates index.client
        descriptor index.config.targetSystem).Runs exchange answer) ∧
      result = .ok answer.toOption ∧ after = before.loaded index descriptor answer := by
  unfold fetchShardData at h
  obtain ⟨answer, rest, rfl, hexchange, hrest⟩ := takes_getShardDataOf_bind h
  refine ⟨answer, by simp, hexchange, ?_⟩
  cases answer with
  | ok payload =>
      obtain ⟨_, rfl, hnow⟩ := (takes_perform_bind (by rfl)).mp hrest
      obtain ⟨_, rfl, hupsert⟩ := (takes_ask_bind (by rfl) (by rfl)).mp hnow
      obtain ⟨_, rfl, hpure⟩ := (takes_perform_bind (by rfl)).mp hupsert
      obtain ⟨_, rfl, rfl⟩ := takes_pure.mp hpure
      exact ⟨rfl, rfl⟩
  | error error =>
      obtain ⟨_, rfl, hpure⟩ := (takes_perform_bind (by rfl)).mp hrest
      obtain ⟨_, rfl, rfl⟩ := takes_pure.mp hpure
      exact ⟨rfl, rfl⟩

/-- A shard is used while it has not expired, and then requested again. -/
theorem takes_getShardData {descriptor : ShardDescriptor}
    {result : Except Panic (Option ShardDataPayload)}
    (h : Takes (Step index) (index.getShardData descriptor) before trace result after) :
    (∃ entry, before.shardCache descriptor.shardId = some entry ∧
        IsUsable descriptor before.now entry ∧ result = .ok (some entry.payload) ∧ after = before) ∨
      (∀ entry, before.shardCache descriptor.shardId = some entry →
          ¬ IsUsable descriptor before.now entry) ∧
        ((Str.isEmpty descriptor.blobDigest = true ∧ result = .ok none ∧ after = before) ∨
          (Str.isEmpty descriptor.blobDigest = false ∧
            ∃ answer, (.getShardData descriptor, .payload answer) ∈ trace ∧
              (∃ exchange : Trace Request Reply, (IndexClient.getShardData index.crates index.client
                descriptor index.config.targetSystem).Runs exchange answer) ∧
              result = .ok answer.toOption ∧ after = before.loaded index descriptor answer)) := by
  unfold getShardData at h
  obtain ⟨_, rfl, hcached⟩ := (takes_ask_bind (by rfl) (by rfl)).mp h
  obtain ⟨found, rest, hsubset, hfound, hiff⟩ := takes_cachedPayload_bind hcached
  cases found with
  | some payload =>
      obtain ⟨entry, hentry, husable, rfl⟩ := (hiff payload).mp rfl
      obtain ⟨_, rfl, rfl⟩ := takes_pure.mp hfound
      exact Or.inl ⟨entry, hentry, husable, rfl, rfl⟩
  | none =>
      have hunusable : ∀ entry, before.shardCache descriptor.shardId = some entry →
          ¬ IsUsable descriptor before.now entry := by
        intro entry hentry husable
        have h := (hiff entry.payload).mpr ⟨entry, hentry, husable, rfl⟩
        cases h
      refine Or.inr ⟨hunusable, ?_⟩
      change Takes (Step index) (if Str.isEmpty descriptor.blobDigest then pure none
        else index.fetchShardData descriptor) _ _ _ _ at hfound
      split at hfound
      · rename_i hempty
        obtain ⟨_, rfl, rfl⟩ := takes_pure.mp hfound
        exact Or.inl ⟨hempty, rfl, rfl⟩
      · rename_i hempty
        obtain ⟨answer, hmem, hexchange, hresult, hafter⟩ := takes_fetchShardData hfound
        exact Or.inr ⟨by simpa using hempty, answer, List.mem_cons_of_mem _ (hsubset hmem),
          hexchange, hresult, hafter⟩

/-! ## Lookups -/

/-- The answer for a hash from the shard that a root names for it. -/
theorem takes_lookupBaseline {hash : StoreHash} {root : ShardedArchCacheIndexData}
    {result : Except Panic (Option IndexEntry)}
    (h : Takes (Step index) (index.lookupBaseline hash root) before trace result after) :
    (result = .ok none ∧ after = before) ∨
      ∃ descriptor payload, root.findShardById hash.shardId = some descriptor ∧
        descriptor.isEmpty = false ∧ Str.isEmpty descriptor.blobDigest = false ∧
        Takes (Step index) (index.getShardData descriptor) before trace (.ok payload) after ∧
        result = .ok (payload.bind fun payload => payload.entries.lookup hash) := by
  unfold lookupBaseline at h
  split at h
  · obtain ⟨_, rfl, rfl⟩ := takes_pure.mp h
    exact Or.inl ⟨rfl, rfl⟩
  · rename_i descriptor hdescriptor
    split at h
    · obtain ⟨_, rfl, rfl⟩ := takes_pure.mp h
      exact Or.inl ⟨rfl, rfl⟩
    · rename_i hempty
      obtain ⟨hfilled, hblob⟩ := not_or.mp hempty
      rcases takes_bind.mp h with ⟨front, _, payload, _, rfl, hget, hpure⟩ | ⟨_, rfl, hget⟩
      · obtain ⟨rfl, rfl, rfl⟩ := takes_pure.mp hpure
        rw [List.append_nil]
        exact Or.inr ⟨descriptor, payload, hdescriptor, by simpa using hfilled,
          by simpa using hblob, hget, rfl⟩
      · rcases takes_getShardData hget with
          ⟨_, _, _, hresult, _⟩ | ⟨_, ⟨_, hresult, _⟩ | ⟨_, _, _, _, hresult, _⟩⟩
        all_goals cases hresult

/-- A lookup answers from the hot registry, or from the baseline that it obtains. -/
theorem takes_lookupFrom {storeHash : String}
    {result : Except Panic (Option ShardedArchCacheIndexData × Option IndexEntry)}
    (h : Takes (Step index) (index.lookupFrom storeHash) before trace result after) :
    (result = .ok (none, none) ∧ after = before ∧ ∀ hash, StoreHash.parse storeHash ≠ .ok hash) ∨
      ∃ hash, StoreHash.parse storeHash = .ok hash ∧
        ((∃ entry, before.hotEntries hash = some entry ∧ result = .ok (none, some entry) ∧
            after = before) ∨
          (before.hotEntries hash = none ∧
            ∃ front back root middle entry, trace = (.readHot hash, .hot none) :: (front ++ back) ∧
              Takes (Step index) index.getBaselineData before front (.ok root) middle ∧
              Takes (Step index) (index.lookupBaseline hash root) middle back (.ok entry) after ∧
              result = .ok (some root, entry))) := by
  unfold lookupFrom at h
  split at h
  · rename_i error herror
    obtain ⟨_, rfl, rfl⟩ := takes_pure.mp h
    exact Or.inl ⟨rfl, rfl, fun hash hhash => by rw [herror] at hhash; cases hhash⟩
  · rename_i hash hparse
    refine Or.inr ⟨hash, hparse, ?_⟩
    obtain ⟨rest, rfl, hread⟩ := (takes_ask_bind (by rfl) (by rfl)).mp h
    cases hhot : before.hotEntries hash with
    | some entry =>
        rw [hhot] at hread
        obtain ⟨_, rfl, rfl⟩ := takes_pure.mp hread
        exact Or.inl ⟨entry, rfl, rfl, rfl⟩
    | none =>
        rw [hhot] at hread
        refine Or.inr ⟨rfl, ?_⟩
        rcases takes_bind.mp hread with ⟨front, _, root, middle, rfl, hroot, hlookup⟩ |
          ⟨_, rfl, hroot⟩
        · rcases takes_bind.mp hlookup with ⟨back, _, entry, _, rfl, hentry, hpure⟩ |
            ⟨_, rfl, hentry⟩
          · obtain ⟨rfl, rfl, rfl⟩ := takes_pure.mp hpure
            exact ⟨front, back, root, middle, entry, by simp, hroot, hentry, rfl⟩
          · rcases takes_lookupBaseline hentry with ⟨hresult, _⟩ | ⟨_, _, _, _, _, _, hresult⟩
            all_goals cases hresult
        · rcases takes_getBaselineData hroot with ⟨_, _, _, hresult, _⟩ | ⟨_, _, _, hresult, _⟩
          all_goals cases hresult

theorem takes_lookup {storeHash : String} {result : Except Panic (Option IndexEntry)}
    (h : Takes (Step index) (index.lookup storeHash) before trace result after) :
    ∃ root entry, Takes (Step index) (index.lookupFrom storeHash) before trace (.ok (root, entry))
      after ∧ result = .ok entry := by
  unfold lookup at h
  rcases takes_bind.mp h with ⟨front, _, ⟨root, entry⟩, _, rfl, hfrom, hpure⟩ | ⟨_, rfl, hfrom⟩
  · obtain ⟨rfl, rfl, rfl⟩ := takes_pure.mp hpure
    rw [List.append_nil]
    exact ⟨root, entry, hfrom, rfl⟩
  · rcases takes_lookupFrom hfrom with
      ⟨hresult, _⟩ | ⟨_, _, ⟨_, _, hresult, _⟩ | ⟨_, _, _, _, _, _, _, _, _, hresult⟩⟩
    all_goals cases hresult

theorem takes_findShardNar {name : String} {result : Except Panic (Option NarDigest)}
    (h : Takes (Step index) (ask (.findShardNar name) Answer.asNar) before trace result after) :
    ∃ digest, IsFoundIn before.shardCache name digest ∧ result = .ok digest ∧ after = before := by
  obtain ⟨answer, rfl, rfl, hstep⟩ := takes_ask.mp h
  cases hstep with
  | apply happly => simp [Shared.apply] at happly
  | findShardNar hfound => exact ⟨_, hfound, rfl, rfl⟩

/-- What the part of `findNarDigest` after the hot registry does. -/
inductive SeeksNar (index : CacheIndex) (name : String) (before : Shared)
    (trace : Trace Operation Answer) : Except Panic (Option NarDigest) → Shared → Prop where
  /-- The name has a character across the end of a store hash. -/
  | panics {panic : SlicePanic} (h : extractStoreHash name = .error panic) :
      SeeksNar index name before trace (.error (.slice panic)) before
  /-- The name starts with the store hash of an entry. -/
  | byHash {hash : StoreHash} {front : Trace Operation Answer} {root : Option ShardedArchCacheIndexData}
      {entry : IndexEntry} {after : Shared} (h : extractStoreHash name = .ok (some hash))
      (hsubset : front ⊆ trace)
      (hlookup : Takes (Step index) (index.lookupFrom hash.val) before front
        (.ok (root, some entry)) after) :
      SeeksNar index name before trace (.ok (some entry.narDigest)) after
  /-- It starts with another store hash. -/
  | afterHash {hash : StoreHash} {front : Trace Operation Answer}
      {root : Option ShardedArchCacheIndexData} {digest : Option NarDigest} {after : Shared}
      (h : extractStoreHash name = .ok (some hash)) (hsubset : front ⊆ trace)
      (hlookup : Takes (Step index) (index.lookupFrom hash.val) before front (.ok (root, none)) after)
      (hfound : IsFoundIn after.shardCache (extractNarBasename name) digest) :
      SeeksNar index name before trace (.ok digest) after
  | inShards {digest : Option NarDigest} (h : extractStoreHash name = .ok none)
      (hfound : IsFoundIn before.shardCache (extractNarBasename name) digest) :
      SeeksNar index name before trace (.ok digest) before

/-- What `find_nar_digest` does after the lookup of the hash in the name. -/
def digestOrSeek (normalized : String) : Option IndexEntry → Handler (Option NarDigest)
  | some entry => pure (some entry.narDigest)
  | none => ask (.findShardNar normalized) Answer.asNar

/-- A name is looked for in the hot registry, then by the hash it starts with, then in the shards. -/
theorem takes_findNarDigest {name : String} {result : Except Panic (Option NarDigest)}
    (h : Takes (Step index) (index.findNarDigest name) before trace result after) :
    (∃ digest, before.hotNarLookup (extractNarBasename name) = some digest ∧
        result = .ok (some digest) ∧ after = before) ∨
      (before.hotNarLookup (extractNarBasename name) = none ∧
        SeeksNar index name before trace result after) := by
  unfold findNarDigest at h
  obtain ⟨rest, rfl, hread⟩ := (takes_ask_bind (by rfl) (by rfl)).mp h
  cases hhot : before.hotNarLookup (extractNarBasename name) with
  | some digest =>
      rw [hhot] at hread
      obtain ⟨_, rfl, rfl⟩ := takes_pure.mp hread
      exact Or.inl ⟨digest, rfl, rfl, rfl⟩
  | none =>
      rw [hhot] at hread
      refine Or.inr ⟨rfl, ?_⟩
      unfold lookupNarHash at hread
      cases hextract : extractStoreHash name with
      | error panic =>
          rw [hextract] at hread
          rcases takes_bind.mp hread with ⟨_, _, _, _, rfl, hlookup, _⟩ | ⟨error, rfl, hlookup⟩
          · rcases takes_bind.mp hlookup with ⟨_, _, _, _, rfl, hhash, _⟩ | ⟨_, herror, _⟩
            · cases (Action.takes_ofExcept.mp hhash).2.1
            · cases herror
          · rcases takes_bind.mp hlookup with ⟨_, _, _, _, rfl, hhash, _⟩ | ⟨_, herror, hhash⟩
            · cases (Action.takes_ofExcept.mp hhash).2.1
            · obtain ⟨rfl, hpanic, rfl⟩ := Action.takes_ofExcept.mp hhash
              cases herror
              cases hpanic
              exact .panics hextract
      | ok hash =>
          rw [hextract] at hread
          cases hash with
          | none =>
              have hshards : Takes (Step index) (ask (.findShardNar (extractNarBasename name))
                  Answer.asNar) before rest result after := hread
              obtain ⟨digest, hfound, rfl, rfl⟩ := takes_findShardNar hshards
              exact .inShards hextract hfound
          | some hash =>
              have hlookup : Takes (Step index)
                  (index.lookup hash.val >>= digestOrSeek (extractNarBasename name))
                  before rest result after := hread
              rcases takes_bind.mp hlookup with ⟨front, _, entry, _, rfl, hfirst, hlast⟩ |
                ⟨_, _, hfirst⟩
              · obtain ⟨root, entry', hfrom, hentry⟩ := takes_lookup hfirst
                cases hentry
                cases entry with
                | some entry =>
                    obtain ⟨_, rfl, rfl⟩ := takes_pure.mp hlast
                    exact .byHash hextract (by simp) hfrom
                | none =>
                    obtain ⟨digest, hfound, rfl, rfl⟩ := takes_findShardNar hlast
                    exact .afterHash hextract (by simp) hfrom hfound
              · obtain ⟨_, _, _, hresult⟩ := takes_lookup hfirst
                cases hresult

end CacheIndex

/-! ## Forced refreshes -/

/-- The state without baselines and shards. -/
def Shared.emptied (index : CacheIndex) (shared : Shared) : Shared :=
  { shared with
    baselineCache := Function.update
      (Function.update shared.baselineCache index.cacheKey none) index.config.baselineTag none
    shardCache := fun _ => none }

namespace CacheIndex

theorem baselineTag_ne_cacheKey (index : CacheIndex) : index.cacheKey ≠ index.config.baselineTag := by
  intro h
  have hlength := congrArg String.length h
  simp only [cacheKey, String.length_append] at hlength
  have hdash : "-".length = 1 := rfl
  omega

theorem takes_refreshErrors {root : ShardedArchCacheIndexData} {result : Except Panic (List OciError)}
    (h : Takes (Step index) (refreshErrors root) before trace result after) :
    ∃ errors, result = .ok errors ∧ after = before := by
  unfold refreshErrors at h
  split at h
  · obtain ⟨_, rfl, hpure⟩ := (takes_ask_bind (by rfl) (by rfl)).mp h
    obtain ⟨_, rfl, rfl⟩ := takes_pure.mp hpure
    exact ⟨_, rfl, rfl⟩
  · obtain ⟨_, rfl, rfl⟩ := takes_pure.mp h
    exact ⟨_, rfl, rfl⟩

/-- A forced refresh is a refresh of the state without baselines and shards. -/
theorem takes_forceRefresh {result : Except Panic (Except (List OciError) Nat)}
    (h : Takes (Step index) index.forceRefresh before trace result after) :
    ∃ refresh : Refresh, refresh.IsIn index trace ∧
      after = (before.emptied index).refreshed index refresh := by
  unfold forceRefresh at h
  obtain ⟨rest, rfl, hkey⟩ := (takes_perform_bind (by rfl)).mp h
  obtain ⟨rest, rfl, htag⟩ := (takes_perform_bind (by rfl)).mp hkey
  obtain ⟨rest, rfl, hclear⟩ := (takes_perform_bind (by rfl)).mp htag
  rcases takes_bind.mp hclear with ⟨front, back, root, middle, rfl, hroot, hrest⟩ | ⟨_, _, hroot⟩
  · have hmiddle : ∃ refresh : Refresh, refresh.IsIn index front ∧
        middle = (before.emptied index).refreshed index refresh := by
      rcases takes_getBaselineData hroot with ⟨entry, hentry, _⟩ | ⟨refresh, hin, _, _, hmiddle⟩
      · change Function.update (Function.update before.baselineCache index.cacheKey none)
          index.config.baselineTag none index.cacheKey = some entry at hentry
        rw [Function.update_of_ne (baselineTag_ne_cacheKey index), Function.update_self] at hentry
        cases hentry
      · exact ⟨refresh, hin, hmiddle⟩
    obtain ⟨refresh, hin, rfl⟩ := hmiddle
    refine ⟨refresh, hin.mono fun event hevent => by simp [hevent], ?_⟩
    rcases takes_bind.mp hrest with ⟨_, _, errors, _, rfl, herrors, hcounts⟩ | ⟨_, _, herrors⟩
    · obtain ⟨_, _, rfl⟩ := takes_refreshErrors herrors
      rcases takes_bind.mp hcounts with ⟨_, _, counts, _, rfl, hcounted, hpure⟩ | ⟨_, _, hcounted⟩
      · obtain ⟨rfl, _⟩ := takes_getEntryCounts hcounted
        exact (takes_pure.mp hpure).2.2
      · exact (takes_getEntryCounts hcounted).1
    · exact (takes_refreshErrors herrors).choose_spec.2
  · rcases takes_getBaselineData hroot with ⟨_, _, _, hresult, _⟩ | ⟨_, _, _, hresult, _⟩
    all_goals cases hresult

end CacheIndex

end NixCache.Proxy
