import NixCache.Proxy.Proofs.Handlers
/-!
# Answers from the tiers

In every execution a cached shard is what the OCI client has verified for the digest beside it, and
the hot registry holds only what was registered.  Since a cached shard is used only for a descriptor
with its digest, a lookup answers from the blob that its own baseline names.
-/

namespace NixCache.Proxy

open NixCache.Lib NixCache.Lib.Result NixCache.Core NixCache.Oci
open Program (Trace)
open NixCache.Lib.Action (Runs Meets)

variable {index : CacheIndex} {A : StoreHash → IndexEntry → Prop}

/-! ## The invariant -/

/-- What the client has verified of the payload that it returned for a digest. -/
structure IsVerified (index : CacheIndex) (blobDigest : String) (payload : ShardDataPayload) :
    Prop where
  blob : IsBlobContent index.crates blobDigest payload
  valid : payload.IsValid index.crates.toCrates

theorem isVerified_of_getShardData {descriptor : ShardDescriptor} {payload : ShardDataPayload}
    {trace : Trace Request Reply} (hblob : Str.isEmpty descriptor.blobDigest = false)
    (h : (IndexClient.getShardData index.crates index.client descriptor
      index.config.targetSystem).Runs trace (.ok payload)) :
    IsVerified index descriptor.blobDigest payload :=
  ⟨IndexClient.isBlobContent_of_getShardData hblob h, (IndexClient.isShardOf_of_getShardData h).valid⟩

/-- The state of a proxy whose registrations are in `A`. -/
structure Sound (index : CacheIndex) (A : StoreHash → IndexEntry → Prop) (shared : Shared) :
    Prop where
  hot : ∀ hash entry, shared.hotEntries hash = some entry → A hash entry
  shards : ∀ shardId entry, shared.shardCache shardId = some entry →
    IsVerified index entry.blobDigest entry.payload

theorem sound_start (index : CacheIndex) (A : StoreHash → IndexEntry → Prop) (now : Nat) :
    Sound index A (.start now) where
  hot _ _ h := by cases h
  shards _ _ h := by cases h

/-- An answer that tells only what is so. -/
def IsTrue (index : CacheIndex) (A : StoreHash → IndexEntry → Prop) : Operation × Answer → Prop
  | (.readHot hash, .hot (some entry)) => A hash entry
  | (.readShard _, .shard (some entry)) => IsVerified index entry.blobDigest entry.payload
  | (.getShardData descriptor, .payload (.ok payload)) =>
      Str.isEmpty descriptor.blobDigest = false → IsVerified index descriptor.blobDigest payload
  | _ => True

namespace Sound

variable {shared shared' : Shared}

theorem of_eq (h : Sound index A shared) (hhot : shared'.hotEntries = shared.hotEntries)
    (hshards : shared'.shardCache = shared.shardCache) : Sound index A shared' where
  hot := by rw [hhot]; exact h.hot
  shards := by rw [hshards]; exact h.shards

theorem upsertHot (h : Sound index A shared) {hash : StoreHash} {entry : IndexEntry}
    (hentry : A hash entry) :
    Sound index A { shared with hotEntries := Function.update shared.hotEntries hash (some entry) } where
  hot other found hfound := by
    change Function.update shared.hotEntries hash (some entry) other = some found at hfound
    by_cases hother : other = hash
    · rw [hother, Function.update_self] at hfound
      cases hfound
      rw [hother]
      exact hentry
    · rw [Function.update_of_ne hother] at hfound
      exact h.hot other found hfound
  shards := h.shards

theorem setShard (h : Sound index A shared) {shardId : UInt16} {entry : Option ShardCacheEntry}
    (hentry : ∀ cached ∈ entry, IsVerified index cached.blobDigest cached.payload) :
    Sound index A { shared with shardCache := Function.update shared.shardCache shardId entry } where
  hot := h.hot
  shards other found hfound := by
    change Function.update shared.shardCache shardId entry other = some found at hfound
    by_cases hother : other = shardId
    · rw [hother, Function.update_self] at hfound
      exact hentry found hfound
    · rw [Function.update_of_ne hother] at hfound
      exact h.shards other found hfound

/-- An operation on the shared state answers what is so and keeps it so, when what it writes to the
two maps is so. -/
theorem apply {operation : Operation} {answer : Answer} (h : Sound index A shared)
    (hhot : ∀ hash entry, operation = .upsertHot hash entry → A hash entry)
    (hshard : ∀ shardId entry, operation = .upsertShard shardId entry →
      IsVerified index entry.blobDigest entry.payload)
    (happly : shared.apply operation = some (answer, shared')) :
    IsTrue index A (operation, answer) ∧ Sound index A shared' := by
  cases operation <;> simp only [Shared.apply, Option.some.injEq, Prod.mk.injEq, reduceCtorEq]
    at happly
  all_goals obtain ⟨rfl, rfl⟩ := happly
  case readHot hash =>
    refine ⟨?_, h⟩
    cases hentry : shared.hotEntries hash with
    | none => trivial
    | some entry => exact h.hot hash entry hentry
  case readShard shardId =>
    refine ⟨?_, h⟩
    cases hentry : shared.shardCache shardId with
    | none => trivial
    | some entry => exact h.shards shardId entry hentry
  case upsertHot hash entry => exact ⟨trivial, h.upsertHot (hhot hash entry rfl)⟩
  case upsertShard shardId entry =>
    refine ⟨trivial, h.setShard ?_⟩
    intro cached hcached
    cases hcached
    exact hshard shardId entry rfl
  case removeShard shardId => exact ⟨trivial, h.setShard (by simp)⟩
  case evictShard shardId => exact ⟨trivial, h.setShard (by simp)⟩
  case clearShards => exact ⟨trivial, h.hot, by simp⟩
  all_goals exact ⟨trivial, h.of_eq rfl rfl⟩

theorem step {event : Operation × Answer} (h : Sound index A shared)
    (hhot : ∀ hash entry, event.1 = .upsertHot hash entry → A hash entry)
    (hshard : ∀ shardId entry, event.1 = .upsertShard shardId entry →
      IsVerified index entry.blobDigest entry.payload)
    (hstep : Step index shared event shared') : IsTrue index A event ∧ Sound index A shared' := by
  cases hstep with
  | apply happly => exact h.apply hhot hshard happly
  | utcNow text => exact ⟨trivial, h⟩
  | findShardNar hfound => exact ⟨trivial, h⟩
  | getShardedRoot hruns => exact ⟨trivial, h⟩
  | @getShardData descriptor trace result hruns =>
      refine ⟨?_, h⟩
      cases result with
      | error error => trivial
      | ok payload => exact fun hblob => isVerified_of_getShardData hblob hruns
  | readBackup bytes => exact ⟨trivial, h⟩

end Sound

/-- In every execution all answers tell what is so. -/
theorem isTrue_of_serves {τ : Type} [DecidableEq τ] {calls : τ → Call} {now : Nat}
    {events : List (Option τ × (Operation × Answer))} {last : Shared}
    (h : Serves index calls (.start now) events last)
    (hcalls : ∀ task body, calls task = .registerSession body →
      RegistersOnly index.crates.toCrates A body) :
    ∀ event ∈ events, IsTrue index A event.2 := by
  have hinvariant : (∀ event ∈ events, IsTrue index A event.2) ∧ Sound index A last := by
    apply h.invariant (fun task => Call.meets_handler (A := A) (hcalls task))
      (sound_start index A now)
    · intro past shared event shared' hpast hjustified hsound hstep
      apply hsound.step
      · intro hash entry hevent
        rw [hevent] at hjustified
        exact hjustified
      · intro shardId entry hevent
        rw [hevent] at hjustified
        obtain ⟨descriptor, hblob, hmem, -, hdigest⟩ := hjustified
        rw [hdigest]
        exact hpast _ hmem hblob
      · exact hstep
    · intro shared event shared' houtside hsound hstep
      apply hsound.step
      · intro hash entry hevent
        rw [hevent] at houtside
        exact houtside.elim
      · intro shardId entry hevent
        rw [hevent] at houtside
        exact houtside.elim
      · exact hstep
  exact hinvariant.1

/-! ## What a lookup answers -/

namespace CacheIndex

variable {trace : Trace Operation Answer}

theorem runs_ask_ok {α : Type} {operation : Operation} {read : Answer → Option α} {value : α} :
    (ask operation read).Runs trace (.ok value) ↔
      ∃ answer, trace = [(operation, answer)] ∧ read answer = some value :=
  Action.runs_ask_ok

theorem cachedPayload_eq_some {descriptor : ShardDescriptor} {cached : Option ShardCacheEntry}
    {payload : ShardDataPayload}
    (hruns : (cachedPayload descriptor cached).Runs trace (.ok (some payload))) :
    ∃ entry, cached = some entry ∧ entry.blobDigest = descriptor.blobDigest ∧
      entry.payload = payload := by
  cases cached with
  | none => simp [cachedPayload] at hruns
  | some entry =>
      simp only [cachedPayload] at hruns
      split at hruns
      · rename_i hdigest
        obtain ⟨_, _, now, rfl, _, hpure⟩ := Action.runs_bind_ok.mp hruns
        obtain ⟨rfl, hpayload⟩ := Action.runs_pure.mp hpure
        split at hpayload
        · cases hpayload
          exact ⟨entry, rfl, hdigest, rfl⟩
        · simp at hpayload
      · simp at hruns

theorem mem_of_fetchShardData {descriptor : ShardDescriptor} {payload : ShardDataPayload}
    (hruns : (index.fetchShardData descriptor).Runs trace (.ok (some payload))) :
    (.getShardData descriptor, .payload (.ok payload)) ∈ trace := by
  unfold fetchShardData at hruns
  obtain ⟨fetch, after, result, rfl, hfetch, hthen⟩ := Action.runs_bind_ok.mp hruns
  obtain ⟨reply, rfl, hreply⟩ := runs_ask_ok.mp hfetch
  cases result with
  | error error =>
      obtain ⟨_, _, _, rfl, _, hpure⟩ := Action.runs_bind_ok.mp hthen
      simp at hpure
  | ok fetched =>
      obtain ⟨_, _, _, rfl, _, hstored⟩ := Action.runs_bind_ok.mp hthen
      obtain ⟨_, _, now, rfl, _, hupsert⟩ := Action.runs_bind_ok.mp hstored
      obtain ⟨_, _, _, rfl, _, hpure⟩ := Action.runs_bind_ok.mp hupsert
      obtain ⟨rfl, hpayload⟩ := Action.runs_pure.mp hpure
      cases hpayload
      rw [Answer.asPayload_eq_some.mp hreply]
      simp

/-- A shard is served from the cache under its digest, or as the client has returned it. -/
theorem isVerified_of_getShardData {descriptor : ShardDescriptor} {payload : ShardDataPayload}
    (hblob : Str.isEmpty descriptor.blobDigest = false)
    (hruns : (index.getShardData descriptor).Runs trace (.ok (some payload)))
    (htrue : ∀ event ∈ trace, IsTrue index A event) :
    IsVerified index descriptor.blobDigest payload := by
  unfold getShardData at hruns
  obtain ⟨first, rest, entry, rfl, hread, hthen⟩ := Action.runs_bind_ok.mp hruns
  obtain ⟨answer, rfl, hentry⟩ := runs_ask_ok.mp hread
  obtain ⟨middle, last, cached, rfl, hcached, hlast⟩ := Action.runs_bind_ok.mp hthen
  cases cached with
  | some found =>
      obtain ⟨rfl, hfound⟩ := Action.runs_pure.mp hlast
      cases hfound
      obtain ⟨entry, rfl, hdigest, rfl⟩ := cachedPayload_eq_some hcached
      rw [← hdigest]
      apply htrue (.readShard descriptor.shardId, .shard (some entry))
      rw [Answer.asShard_eq_some.mp hentry]
      simp
  | none =>
      simp only [orElse, hblob, Bool.false_eq_true, if_false] at hlast
      have hfetched := htrue (.getShardData descriptor, .payload (.ok payload))
        (by simp [mem_of_fetchShardData hlast])
      exact hfetched hblob

/-- The entry is in a verified payload for the digest that the root names. -/
def IsFromRoot (index : CacheIndex) (hash : StoreHash) (root : ShardedArchCacheIndexData)
    (entry : IndexEntry) : Prop :=
  ∃ descriptor payload, root.findShardById hash.shardId = some descriptor ∧
    IsVerified index descriptor.blobDigest payload ∧ payload.entries.lookup hash = some entry

theorem isFromRoot_of_lookupBaseline {hash : StoreHash} {root : ShardedArchCacheIndexData}
    {entry : IndexEntry}
    (hruns : (index.lookupBaseline hash root).Runs trace (.ok (some entry)))
    (htrue : ∀ event ∈ trace, IsTrue index A event) : IsFromRoot index hash root entry := by
  unfold lookupBaseline at hruns
  split at hruns
  · simp at hruns
  · rename_i descriptor hdescriptor
    split at hruns
    · simp at hruns
    · rename_i hempty
      obtain ⟨hfilled, hblob⟩ := not_or.mp hempty
      obtain ⟨first, rest, found, rfl, hget, hpure⟩ := Action.runs_bind_ok.mp hruns
      obtain ⟨rfl, hfound⟩ := Action.runs_pure.mp hpure
      obtain ⟨payload, rfl, hlookup⟩ := Option.bind_eq_some_iff.mp (Except.ok.inj hfound).symm
      refine ⟨descriptor, payload, hdescriptor, ?_, hlookup⟩
      apply isVerified_of_getShardData (by simpa using hblob) hget
      intro event hevent
      exact htrue event (List.mem_append_left _ hevent)

/-- A lookup answers with a registered entry, or from the root that it obtained. -/
theorem lookupFrom_cases {storeHash : String} {root : Option ShardedArchCacheIndexData}
    {entry : IndexEntry} (hruns : (index.lookupFrom storeHash).Runs trace (.ok (root, some entry)))
    (htrue : ∀ event ∈ trace, IsTrue index A event) :
    ∃ hash, StoreHash.parse storeHash = .ok hash ∧
      ((root = none ∧ A hash entry) ∨
        ∃ obtained, root = some obtained ∧ IsFromRoot index hash obtained entry) := by
  unfold lookupFrom at hruns
  split at hruns
  · simp at hruns
  · rename_i hash hparse
    refine ⟨hash, hparse, ?_⟩
    obtain ⟨first, rest, hot, rfl, hread, hthen⟩ := Action.runs_bind_ok.mp hruns
    obtain ⟨answer, rfl, hanswer⟩ := runs_ask_ok.mp hread
    cases hot with
    | some found =>
        obtain ⟨rfl, hfound⟩ := Action.runs_pure.mp hthen
        cases hfound
        refine Or.inl ⟨rfl, htrue (.readHot hash, .hot (some entry)) ?_⟩
        rw [Answer.asHot_eq_some.mp hanswer]
        simp
    | none =>
        obtain ⟨middle, last, obtained, rfl, _, hlast⟩ := Action.runs_bind_ok.mp hthen
        obtain ⟨after, _, found, rfl, hlookup, hpure⟩ := Action.runs_bind_ok.mp hlast
        obtain ⟨rfl, hfound⟩ := Action.runs_pure.mp hpure
        cases hfound
        have htier : ∀ event ∈ after, IsTrue index A event := by
          intro event hevent
          exact htrue event (by simp [hevent])
        exact Or.inr ⟨obtained, rfl, isFromRoot_of_lookupBaseline hlookup htier⟩

end CacheIndex

/-! ## Tier 1 -/

theorem serves_of_mem {τ : Type} [DecidableEq τ] {task : τ}
    {events : List (Option τ × (Operation × Answer))}
    (h : ∀ event ∈ events, IsTrue index A event.2) :
    ∀ event ∈ eventsOf task events, IsTrue index A event := by
  intro event hevent
  exact h _ (mem_of_mem_eventsOf hevent)

/-- Whatever runs beside it, a lookup that answers from tier 1 answers with the entry that the blob
named by the baseline it obtained holds under the hash. -/
theorem lookup_tier1_from_own_root {τ : Type} [DecidableEq τ] {calls : τ → Call} {now : Nat}
    {events : List (Option τ × (Operation × Answer))} {last : Shared}
    (h : Serves index calls (.start now) events last) {task : τ} {storeHash : String}
    {root : ShardedArchCacheIndexData} {entry : IndexEntry}
    (hruns : (index.lookupFrom storeHash).Runs (eventsOf task events)
      (.ok (some root, some entry))) :
    ∃ hash descriptor payload, StoreHash.parse storeHash = .ok hash ∧
      root.findShardById hash.shardId = some descriptor ∧
      IsBlobContent index.crates descriptor.blobDigest payload ∧
      payload.entries.lookup hash = some entry := by
  have htrue := isTrue_of_serves (A := fun _ _ => True) h fun _ _ _ _ _ _ _ _ => trivial
  obtain ⟨hash, hparse, hcases⟩ := CacheIndex.lookupFrom_cases hruns (serves_of_mem htrue)
  rcases hcases with ⟨hnone, _⟩ | ⟨obtained, hsome, descriptor, payload, hfind, hverified, hlookup⟩
  · cases hnone
  · cases hsome
    exact ⟨hash, descriptor, payload, hparse, hfind, hverified.blob, hlookup⟩

end NixCache.Proxy
