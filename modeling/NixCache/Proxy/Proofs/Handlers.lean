import NixCache.Oci.Proofs.ShardBlob
import NixCache.Proxy.Server
/-!
# What the handlers write

A handler writes to the shard cache only what the OCI client has just returned to it, and to the hot
registry only what a registration holds.  So every cached shard is one that the client has verified
for the digest beside it, in every execution.
-/

namespace NixCache.Proxy

open NixCache.Lib NixCache.Lib.Result NixCache.Core NixCache.Oci
open Program (Trace)
open NixCache.Lib.Action (Runs Meets Only)

/-! ## Answers -/

namespace Answer

variable {answer : Answer}

theorem asPayload_eq_some {result : Except OciError ShardDataPayload} :
    answer.asPayload = some result ↔ answer = .payload result := by
  cases answer <;> simp [asPayload]

theorem asShard_eq_some {entry : Option ShardCacheEntry} :
    answer.asShard = some entry ↔ answer = .shard entry := by
  cases answer <;> simp [asShard]

theorem asHot_eq_some {entry : Option IndexEntry} :
    answer.asHot = some entry ↔ answer = .hot entry := by
  cases answer <;> simp [asHot]

theorem asRoot_eq_some
    {result : Except OciError (Option (ShardedArchCacheIndexData × String))} :
    answer.asRoot = some result ↔ answer = .root result := by
  cases answer <;> simp [asRoot]

theorem asBaseline_eq_some {entry : Option CachedBaselineEntry} :
    answer.asBaseline = some entry ↔ answer = .baseline entry := by
  cases answer <;> simp [asBaseline]

theorem asBackup_eq_some {bytes : Option Bytes} :
    answer.asBackup = some bytes ↔ answer = .backup bytes := by
  cases answer <;> simp [asBackup]

end Answer

/-! ## Justified operations -/

/-- The entry caches an answer of the OCI client for a descriptor with a blob. -/
def IsFetched (past : Trace Operation Answer) (shardId : UInt16) (entry : ShardCacheEntry) : Prop :=
  ∃ descriptor : ShardDescriptor, Str.isEmpty descriptor.blobDigest = false ∧
    (.getShardData descriptor, .payload (.ok entry.payload)) ∈ past ∧
    shardId = descriptor.shardId ∧ entry.blobDigest = descriptor.blobDigest

/-- What a handler may do after its operations so far, when it registers only entries in `A`. -/
def Justified (A : StoreHash → IndexEntry → Prop) (past : Trace Operation Answer) :
    Operation → Prop
  | .upsertShard shardId entry => IsFetched past shardId entry
  | .upsertHot hash entry => A hash entry
  | _ => True

/-- An operation that writes neither to the shard cache nor to the hot registry. -/
def IsQuiet : Operation → Prop
  | .upsertShard _ _ | .upsertHot _ _ => False
  | _ => True

theorem justified_of_isQuiet {A : StoreHash → IndexEntry → Prop} {operation : Operation}
    (h : IsQuiet operation) (past : Trace Operation Answer) : Justified A past operation := by
  cases operation
  case upsertShard shardId entry => exact h.elim
  case upsertHot hash entry => exact h.elim
  all_goals trivial

theorem only_ask {α : Type} {Q : Operation → Prop} {operation : Operation}
    {read : Answer → Option α} (h : Q operation) : Only Q (ask operation read) :=
  Action.only_bind (Action.only_request.mpr h) fun _ => Action.only_ofExcept _

theorem only_perform {Q : Operation → Prop} {operation : Operation} (h : Q operation) :
    Only Q (perform operation) :=
  only_ask h

/-- A handler with quiet operations only. -/
theorem meets_of_isQuiet {α : Type} {A : StoreHash → IndexEntry → Prop}
    {past : Trace Operation Answer} {handler : Handler α} (h : Only IsQuiet handler) :
    Meets (Justified A) past handler fun _ _ => True :=
  Action.meets_of_only h (fun _ hquiet _ => justified_of_isQuiet hquiet _) fun _ _ _ => trivial

/-- A quiet operation, and what comes after it. -/
theorem meets_ask_bind {α β : Type} {A : StoreHash → IndexEntry → Prop}
    {past : Trace Operation Answer} {operation : Operation} {read : Answer → Option α}
    {next : α → Handler β} (h : IsQuiet operation)
    (hnext : ∀ past value, Meets (Justified A) past (next value) fun _ _ => True) :
    Meets (Justified A) past (ask operation read >>= next) fun _ _ => True :=
  Action.Meets.seq (meets_of_isQuiet (only_ask h)) hnext

namespace CacheIndex

variable {index : CacheIndex}

theorem only_upsertAll {α : Type} {Q : Operation → Prop} {operation : α → Operation}
    {items : List α} (h : ∀ item ∈ items, Q (operation item)) :
    Only Q (upsertAll operation items) := by
  induction items with
  | nil => exact Action.only_pure ()
  | cons item items ih =>
      rw [List.forall_mem_cons] at h
      exact Action.only_bind (only_perform h.1) fun _ => ih h.2

/-! ## Baselines -/

theorem only_getOrElse {α : Type} {Q : Operation → Prop} {found : Option α} {next : Handler α}
    (h : Only Q next) : Only Q (getOrElse found next) := by
  cases found with
  | some value => exact Action.only_pure value
  | none => exact h

theorem only_orElse {α : Type} {Q : Operation → Prop} {found : Option α}
    {next : Handler (Option α)} (h : Only Q next) : Only Q (orElse found next) := by
  cases found with
  | some value => exact Action.only_pure (some value)
  | none => exact h

theorem only_dropChanged {Q : Operation → Prop} {old : Option CachedBaselineEntry}
    {root : ShardedArchCacheIndexData} (h : ∀ shardId, Q (.removeShard shardId)) :
    Only Q (index.dropChanged old root) := by
  unfold dropChanged
  split
  · exact Action.only_pure ()
  · split
    · exact only_upsertAll fun _ _ => h _
    · exact Action.only_pure ()

theorem only_writeBackup {Q : Operation → Prop} {root : ShardedArchCacheIndexData}
    (h : ∀ bytes, Q (.writeBackup bytes)) : Only Q (index.writeBackup root) := by
  unfold writeBackup
  split
  · exact only_perform (h _)
  · exact Action.only_pure ()

theorem isQuiet_fetchBaseline : Only IsQuiet index.fetchBaseline := by
  unfold fetchBaseline
  apply Action.only_bind (only_ask trivial)
  intro answer
  split
  · apply Action.only_bind (only_perform trivial)
    intro _
    apply Action.only_bind (only_ask trivial)
    intro old
    apply Action.only_bind (only_dropChanged fun _ => trivial)
    intro _
    apply Action.only_bind (only_writeBackup fun _ => trivial)
    intro _
    exact Action.only_pure _
  · exact Action.only_bind (only_perform trivial) fun _ => Action.only_pure _
  · exact Action.only_bind (only_perform trivial) fun _ => Action.only_pure _

theorem isQuiet_refreshBaseline : Only IsQuiet index.refreshBaseline := by
  unfold refreshBaseline
  apply Action.only_bind isQuiet_fetchBaseline
  intro fetched
  apply Action.only_bind
  · exact only_orElse (Action.only_bind (only_ask trivial) fun _ => Action.only_pure _)
  intro found
  apply Action.only_bind
  · exact only_getOrElse (Action.only_bind (only_ask trivial) fun _ => Action.only_ofExcept _)
  intro root
  apply Action.only_bind (only_ask trivial)
  intro now
  exact Action.only_bind (only_perform trivial) fun _ => Action.only_pure _

theorem only_cachedBaseline {Q : Operation → Prop} {entry : Option CachedBaselineEntry}
    (h : Q .now) : Only Q (cachedBaseline entry) := by
  cases entry with
  | none => exact Action.only_pure _
  | some entry => exact Action.only_bind (only_ask h) fun _ => Action.only_pure _

theorem isQuiet_getBaselineData : Only IsQuiet index.getBaselineData := by
  unfold getBaselineData
  apply Action.only_bind (only_ask trivial)
  intro entry
  apply Action.only_bind (only_cachedBaseline trivial)
  intro cached
  exact only_getOrElse isQuiet_refreshBaseline

theorem only_getEntryCounts {Q : Operation → Prop} (hcount : Q .loadHotCount)
    (hbaseline : ∀ key, Q (.readBaseline key)) : Only Q index.getEntryCounts := by
  unfold getEntryCounts
  apply Action.only_bind (only_ask hcount)
  intro hotCount
  apply Action.only_bind (only_ask (hbaseline _))
  intro keyed
  apply Action.only_bind (only_orElse (only_ask (hbaseline _)))
  intro entry
  exact Action.only_pure _

theorem only_refreshErrors {Q : Operation → Prop} {root : ShardedArchCacheIndexData}
    (h : Q .loadRemoteStatus) : Only Q (refreshErrors root) := by
  unfold refreshErrors
  split
  · exact Action.only_bind (only_ask h) fun _ => Action.only_pure _
  · exact Action.only_pure _

theorem isQuiet_forceRefresh : Only IsQuiet index.forceRefresh := by
  unfold forceRefresh
  apply Action.only_bind (only_perform trivial)
  intro _
  apply Action.only_bind (only_perform trivial)
  intro _
  apply Action.only_bind (only_perform trivial)
  intro _
  apply Action.only_bind isQuiet_getBaselineData
  intro root
  apply Action.only_bind (only_refreshErrors trivial)
  intro errors
  exact Action.only_bind (only_getEntryCounts trivial fun _ => trivial) fun _ => Action.only_pure _

/-! ## Shards and lookups -/

variable {A : StoreHash → IndexEntry → Prop} {past : Trace Operation Answer}

theorem only_cachedPayload {Q : Operation → Prop} {descriptor : ShardDescriptor}
    {entry : Option ShardCacheEntry} (h : Q .now) : Only Q (cachedPayload descriptor entry) := by
  unfold cachedPayload
  split
  · exact Action.only_pure _
  · split
    · exact Action.only_bind (only_ask h) fun _ => Action.only_pure _
    · exact Action.only_pure _

theorem meets_orElse {α : Type} {found : Option α} {next : Handler (Option α)}
    (h : Meets (Justified A) past next fun _ _ => True) :
    Meets (Justified A) past (orElse found next) fun _ _ => True := by
  cases found with
  | some value => exact Action.meets_pure trivial
  | none => exact h

/-- The entry that is cached holds the answer to the request before it. -/
theorem meets_fetchShardData {descriptor : ShardDescriptor}
    (hblob : Str.isEmpty descriptor.blobDigest = false) :
    Meets (Justified A) past (index.fetchShardData descriptor) fun _ _ => True := by
  unfold fetchShardData
  apply Action.Meets.ask_bind trivial
  · intro answer result hresult
    cases result with
    | error error =>
        exact meets_of_isQuiet (Action.only_bind (only_perform trivial) fun _ => Action.only_pure _)
    | ok payload =>
        rw [Answer.asPayload_eq_some.mp hresult]
        apply Action.Meets.ask_bind trivial
        · intro _ _ _
          apply Action.Meets.ask_bind trivial
          · intro _ now _
            apply Action.Meets.ask_bind
            · exact ⟨descriptor, hblob, by simp, rfl, rfl⟩
            · intro _ _ _
              exact Action.meets_pure trivial
            · exact fun _ => trivial
          · exact fun _ => trivial
        · exact fun _ => trivial
  · exact fun _ => trivial

theorem meets_getShardData {descriptor : ShardDescriptor} :
    Meets (Justified A) past (index.getShardData descriptor) fun _ _ => True := by
  unfold getShardData
  refine meets_ask_bind (by trivial) ?_
  intro _ entry
  apply Action.Meets.seq (meets_of_isQuiet (only_cachedPayload trivial))
  intro _ cached
  apply meets_orElse
  split
  · exact Action.meets_pure trivial
  · rename_i hblob
    exact meets_fetchShardData (by simpa using hblob)

theorem meets_lookupBaseline {hash : StoreHash} {root : ShardedArchCacheIndexData} :
    Meets (Justified A) past (index.lookupBaseline hash root) fun _ _ => True := by
  unfold lookupBaseline
  split
  · exact Action.meets_pure trivial
  · split
    · exact Action.meets_pure trivial
    · exact Action.Meets.seq meets_getShardData fun _ _ => Action.meets_pure trivial

theorem meets_lookupFrom {storeHash : String} :
    Meets (Justified A) past (index.lookupFrom storeHash) fun _ _ => True := by
  unfold lookupFrom
  split
  · exact Action.meets_pure trivial
  · refine meets_ask_bind (by trivial) ?_
    intro _ entry
    cases entry with
    | some entry => exact Action.meets_pure trivial
    | none =>
        apply Action.Meets.seq (meets_of_isQuiet isQuiet_getBaselineData)
        intro _ root
        exact Action.Meets.seq meets_lookupBaseline fun _ _ => Action.meets_pure trivial

theorem meets_findNarDigest {narBasename : String} :
    Meets (Justified A) past (index.findNarDigest narBasename) fun _ _ => True := by
  unfold findNarDigest
  refine meets_ask_bind (by trivial) ?_
  intro _ digest
  cases digest with
  | some digest => exact Action.meets_pure trivial
  | none =>
      apply Action.Meets.seq
      · unfold lookupNarHash
        apply Action.Meets.seq (Action.meets_ofExcept trivial)
        intro _ hash
        cases hash with
        | none => exact Action.meets_pure trivial
        | some hash =>
            exact Action.Meets.seq meets_lookupFrom fun _ _ => Action.meets_pure trivial
      · intro _ entry
        cases entry with
        | some entry => exact Action.meets_pure trivial
        | none => exact meets_of_isQuiet (only_ask trivial)

/-! ## Registrations -/

theorem meets_registerHotEntries {entries : HashMap StoreHash IndexEntry}
    (h : ∀ hash entry, entries.lookup hash = some entry → A hash entry) :
    Meets (Justified A) past (registerHotEntries entries) fun _ _ => True := by
  have hentries : Only (fun operation => ∀ past, Justified A past operation) (upsertAll
      (fun pair : StoreHash × IndexEntry => .upsertHot pair.1 pair.2) entries.toList) :=
    only_upsertAll fun pair hpair _ => h pair.1 pair.2 (HashMap.mem_toList_iff.mp hpair)
  unfold registerHotEntries
  apply Action.Meets.seq
  · exact Action.meets_of_only hentries (fun _ hall _ => hall _) fun _ _ _ => trivial
  · intro _ _
    refine Action.Meets.seq (meets_of_isQuiet (only_upsertAll fun _ _ => ?_)) ?_
    · trivial
    · intro _ _
      exact meets_of_isQuiet (only_perform trivial)

end CacheIndex

/-- The entries that a registration with this body puts into the hot registry are in `A`. -/
def RegistersOnly (X : Crates) (A : StoreHash → IndexEntry → Prop) (body : Json) : Prop :=
  ∀ payload, RegisterPayload.fromJson X body = .ok payload →
    ∀ hash entry, payload.entries.lookup hash = some entry → A hash entry

theorem Call.meets_handler {index : CacheIndex} {A : StoreHash → IndexEntry → Prop} {call : Call}
    (h : ∀ body, call = .registerSession body → RegistersOnly index.crates.toCrates A body) :
    Meets (Justified A) [] (call.handler index) fun _ _ => True := by
  cases call with
  | registerSession body =>
      apply Action.Meets.seq ?_ fun _ _ => Action.meets_pure trivial
      unfold handleRegisterSession
      split
      · exact Action.meets_pure trivial
      · rename_i payload hpayload
        exact Action.Meets.seq (CacheIndex.meets_registerHotEntries (h body rfl payload hpayload))
          fun _ _ => Action.meets_pure trivial
  | lookup storeHash =>
      exact Action.Meets.seq CacheIndex.meets_lookupFrom fun _ _ => Action.meets_pure trivial
  | findNarDigest narBasename =>
      exact Action.Meets.seq CacheIndex.meets_findNarDigest fun _ _ => Action.meets_pure trivial
  | getBaselineData =>
      exact meets_of_isQuiet
        (Action.only_bind CacheIndex.isQuiet_getBaselineData fun _ => Action.only_pure _)
  | getShardData descriptor =>
      exact Action.Meets.seq CacheIndex.meets_getShardData fun _ _ => Action.meets_pure trivial
  | getEntryCounts =>
      exact meets_of_isQuiet
        (Action.only_bind (CacheIndex.only_getEntryCounts trivial fun _ => trivial)
          fun _ => Action.only_pure _)
  | forceRefresh =>
      exact meets_of_isQuiet
        (Action.only_bind CacheIndex.isQuiet_forceRefresh fun _ => Action.only_pure _)

end NixCache.Proxy
