import NixCache.Core.Proofs.Decoding
import NixCache.Proxy.Proofs.Baseline
import NixCache.Proxy.Proofs.Counts
/-!
# The names of the NARs

A name is looked for among all names that were ever registered, then under the store hash that it
begins with, then in the cached shards.  The answer is the one that a lookup gives as long as the
entries that the proxy was given for the name have one digest.
-/

namespace NixCache.Proxy

open NixCache.Lib NixCache.Lib.Result NixCache.Core NixCache.Oci
open Program (Trace Follows)
open NixCache.Lib.Action (Takes takes_pure)
open CacheIndex (Refresh IsUsable SeeksNar)

variable {index : CacheIndex} {before middle after : Shared} {trace : Trace Operation Answer}
  {batches : List (HashMap StoreHash IndexEntry)} {events : Trace Operation Answer}

/-! ## What the proxy was given -/

/-- The entry was registered under the hash. -/
def IsRegistered (batches : List (HashMap StoreHash IndexEntry)) (hash : StoreHash)
    (entry : IndexEntry) : Prop :=
  ∃ batch ∈ batches, batch.lookup hash = some entry

/-- The entry is under the hash in a shard that was fetched. -/
def IsInShard (events : Trace Operation Answer) (hash : StoreHash) (entry : IndexEntry) : Prop :=
  ∃ descriptor payload, (.getShardData descriptor, .payload (.ok payload)) ∈ events ∧
    payload.entries.lookup hash = some entry

/-- The entry that was registered last under the hash. -/
def lastRegistered (batches : List (HashMap StoreHash IndexEntry)) (hash : StoreHash) :
    Option IndexEntry :=
  batches.reverse.findSome? fun batch => batch.lookup hash

/-- The operations of a run. -/
def operations (occurrences : List Occurrence) : Trace Operation Answer :=
  occurrences.flatMap Occurrence.events

/-- The proxy was given the entry for the hash, by a registration or in a shard. -/
def IsGiven (batches : List (HashMap StoreHash IndexEntry)) (events : Trace Operation Answer)
    (hash : StoreHash) (entry : IndexEntry) : Prop :=
  IsRegistered batches hash entry ∨ IsInShard events hash entry

theorem IsGiven.mono {hash : StoreHash} {entry : IndexEntry} (h : IsGiven batches trace hash entry)
    (hsubset : trace ⊆ events) : IsGiven batches events hash entry := by
  rcases h with hregistered | ⟨descriptor, payload, hasked, hlookup⟩
  · exact Or.inl hregistered
  · exact Or.inr ⟨descriptor, payload, hsubset hasked, hlookup⟩

theorem lastRegistered_append (batch : HashMap StoreHash IndexEntry) (hash : StoreHash) :
    lastRegistered (batches ++ [batch]) hash =
      (batch.lookup hash).or (lastRegistered batches hash) := by
  unfold lastRegistered
  rw [List.reverse_concat, List.findSome?_cons]
  cases batch.lookup hash <;> rfl

theorem IsRegistered.append {hash : StoreHash} {entry : IndexEntry}
    (h : IsRegistered batches hash entry) (more : List (HashMap StoreHash IndexEntry)) :
    IsRegistered (batches ++ more) hash entry := by
  obtain ⟨batch, hmem, hlookup⟩ := h
  exact ⟨batch, List.mem_append_left more hmem, hlookup⟩

namespace RegisterPayload

theorem mem_of_lookup_foldl_insertEntry {list : List IndexEntry}
    {entries : HashMap StoreHash IndexEntry} {hash : StoreHash} {entry : IndexEntry}
    (h : (list.foldl insertEntry entries).lookup hash = some entry) :
    entry ∈ list ∨ entries.lookup hash = some entry := by
  induction list generalizing entries with
  | nil => exact Or.inr h
  | cons first list ih =>
      rcases ih h with hmem | hfirst
      · exact Or.inl (List.mem_cons_of_mem _ hmem)
      · unfold insertEntry at hfirst
        split at hfirst
        · rw [HashMap.lookup_insert_eq] at hfirst
          split at hfirst
          · cases hfirst
            exact Or.inl List.mem_cons_self
          · exact Or.inr hfirst
        · exact Or.inr hfirst

/-- The entries of a body have passed their checks, whatever its shape. -/
theorem isReadable_of_fromJson {X : Crates} {body : Json} {payload : RegisterPayload}
    (h : fromJson X body = .ok payload) {hash : StoreHash} {entry : IndexEntry}
    (hlookup : payload.entries.lookup hash = some entry) : entry.IsReadable X := by
  unfold fromJson at h
  split at h
  · rename_i entries hentries
    cases h
    exact (entries_of_entriesFromJson hentries hlookup).2
  · split at h
    · rename_i list hlist
      cases h
      rcases mem_of_lookup_foldl_insertEntry hlookup with hmem | hempty
      · unfold Json.list at hlist
        split at hlist
        · obtain ⟨json, _, hjson⟩ := exists_of_mem_collect hlist hmem
          exact IndexEntry.isReadable_of_fromJson hjson
        · cases hlist
      · simp at hempty
    · split at h
      · rename_i entries hobject
        cases h
        simp only [bind_eq_ok, Json.field] at hobject
        obtain ⟨_, _, _, _, hentries⟩ := hobject
        exact (entries_of_entriesFromJson hentries hlookup).2
      · cases h

end RegisterPayload

theorem Occurrence.isReadable_of_registered {X : Crates} {occurrence : Occurrence}
    {entries : HashMap StoreHash IndexEntry} (h : occurrence.registered X = some entries)
    {hash : StoreHash} {entry : IndexEntry} (hlookup : entries.lookup hash = some entry) :
    entry.IsReadable X := by
  unfold Occurrence.registered at h
  split at h
  · rename_i body _
    obtain ⟨payload, hpayload, rfl⟩ := Option.map_eq_some_iff.mp h
    cases hdecoded : RegisterPayload.fromJson X body with
    | error error =>
        rw [hdecoded] at hpayload
        cases hpayload
    | ok decoded =>
        rw [hdecoded] at hpayload
        cases hpayload
        exact RegisterPayload.isReadable_of_fromJson hdecoded hlookup
  · cases h

/-! ## The state of a session -/

/-- A cached shard is as it was fetched, with the names of its entries. -/
structure IsCachedShard (index : CacheIndex) (events : Trace Operation Answer) (shardId : UInt16)
    (cached : ShardCacheEntry) : Prop where
  fetched : IsFetched events shardId cached
  names : cached.narLookup = buildNarLookupMap cached.payload.entries
  valid : ∀ hash entry, cached.payload.entries.lookup hash = some entry →
    entry.validateStructure index.crates.toCrates = .ok () ∧ hash.shardId = shardId

theorem IsCachedShard.mono {shardId : UInt16} {cached : ShardCacheEntry}
    (h : IsCachedShard index trace shardId cached) (hsubset : trace ⊆ events) :
    IsCachedShard index events shardId cached where
  fetched := by
    obtain ⟨descriptor, hblob, hasked, hid, hdigest⟩ := h.fetched
    exact ⟨descriptor, hblob, hsubset hasked, hid, hdigest⟩
  names := h.names
  valid := h.valid

/-- A shard in the cache was there before, or has been fetched. -/
theorem Moves.shards (h : Moves index trace before after) {shardId : UInt16}
    {cached : ShardCacheEntry} (hcached : after.shardCache shardId = some cached) :
    before.shardCache shardId = some cached ∨ IsCachedShard index trace shardId cached := by
  induction h with
  | refl shared => exact Or.inl hcached
  | passed shared duration => exact Or.inl hcached
  | emptied shared => cases hcached
  | refreshed h shared =>
      unfold Shared.refreshed Shared.dropShards at hcached
      dsimp only at hcached
      split at hcached
      · cases hcached
      · exact Or.inl hcached
  | @loaded descriptor answer hblob hasked hanswered shared =>
      unfold Shared.loaded at hcached
      dsimp only at hcached
      cases answer with
      | error error => exact Or.inl hcached
      | ok payload =>
          by_cases hid : shardId = descriptor.shardId
          · subst hid
            dsimp only at hcached
            rw [Function.update_self] at hcached
            cases hcached
            obtain ⟨_, hruns⟩ := hanswered
            have hshard := IndexClient.isShardOf_of_getShardData hruns
            refine Or.inr ⟨⟨descriptor, hblob, hasked, rfl, rfl⟩, rfl, ?_⟩
            intro hash entry hentry
            obtain ⟨hvalid, hhash, _⟩ := hshard.valid.entries hash entry hentry
            exact ⟨hvalid, hhash.trans hshard.isFor.id⟩
          · dsimp only at hcached
            rw [Function.update_of_ne hid] at hcached
            exact Or.inl hcached
  | trans _ _ ih ih' =>
      rcases ih' hcached with hmiddle | hfetched
      · exact ih hmiddle
      · exact Or.inr hfetched

/-- What the registrations and the fetched shards have made of the state. -/
structure Indexed (index : CacheIndex) (batches : List (HashMap StoreHash IndexEntry))
    (events : Trace Operation Answer) (shared : Shared) : Prop where
  hot : ∀ hash, shared.hotEntries hash = lastRegistered batches hash
  readable : ∀ hash entry, IsRegistered batches hash entry →
    entry.IsReadable index.crates.toCrates
  names : ∀ name digest, shared.hotNarLookup name = some digest →
    ∃ hash entry, IsRegistered batches hash entry ∧ entry.narBasename = name ∧
      entry.narDigest = digest
  named : ∀ hash entry, IsRegistered batches hash entry →
    ∃ digest, shared.hotNarLookup entry.narBasename = some digest
  shards : ∀ shardId cached, shared.shardCache shardId = some cached →
    IsCachedShard index events shardId cached

namespace Indexed

variable {shared : Shared}

theorem start (index : CacheIndex) (now : Nat) : Indexed index [] [] (.start now) where
  hot _ := rfl
  readable _ _ h := by
    obtain ⟨_, hmem, _⟩ := h
    cases hmem
  names _ _ h := by cases h
  named _ _ h := by
    obtain ⟨_, hmem, _⟩ := h
    cases hmem
  shards _ _ h := by cases h

theorem register (h : Indexed index batches events shared) {entries : HashMap StoreHash IndexEntry}
    (hentries : ∀ hash entry, entries.lookup hash = some entry →
      entry.IsReadable index.crates.toCrates) :
    Indexed index (batches ++ [entries]) events (shared.register entries) where
  hot hash := by
    rw [lastRegistered_append, ← h.hot hash]
    rfl
  readable hash entry hentry := by
    obtain ⟨batch, hmem, hlookup⟩ := hentry
    rcases List.mem_append.mp hmem with hbefore | hlast
    · exact h.readable hash entry ⟨batch, hbefore, hlookup⟩
    · rw [List.mem_singleton.mp hlast] at hlookup
      exact hentries hash entry hlookup
  names name digest hname := by
    have hor : ((buildNarLookupMap entries).lookup name).or (shared.hotNarLookup name) =
        some digest := hname
    rcases Option.or_eq_some_iff.mp hor with hnew | ⟨_, hold⟩
    · obtain ⟨hash, entry, hlookup, hentry⟩ := exists_of_lookup_buildNarLookupMap hnew
      exact ⟨hash, entry, ⟨entries, by simp, hlookup⟩, hentry⟩
    · obtain ⟨hash, entry, hregistered, hentry⟩ := h.names name digest hold
      exact ⟨hash, entry, hregistered.append _, hentry⟩
  named hash entry hentry := by
    have hor : (shared.register entries).hotNarLookup entry.narBasename =
        ((buildNarLookupMap entries).lookup entry.narBasename).or
          (shared.hotNarLookup entry.narBasename) := rfl
    rw [hor]
    obtain ⟨batch, hmem, hlookup⟩ := hentry
    rcases List.mem_append.mp hmem with hbefore | hlast
    · obtain ⟨digest, hdigest⟩ := h.named hash entry ⟨batch, hbefore, hlookup⟩
      rw [hdigest]
      cases (buildNarLookupMap entries).lookup entry.narBasename with
      | none => exact ⟨digest, rfl⟩
      | some other => exact ⟨other, rfl⟩
    · rw [List.mem_singleton.mp hlast] at hlookup
      have hname := isEmpty_of_validateNarBasename
        (IndexEntry.validateNarBasename_of_valid (hentries hash entry hlookup).valid)
      obtain ⟨digest, hdigest⟩ := exists_lookup_buildNarLookupMap hlookup hname
      rw [hdigest]
      exact ⟨digest, rfl⟩
  shards := h.shards

theorem moves (h : Indexed index batches events before) (hmoves : Moves index trace before after) :
    Indexed index batches (events ++ trace) after where
  hot hash := by rw [hmoves.keeps.hotEntries, h.hot]
  readable := h.readable
  names name digest hname := by
    rw [hmoves.keeps.hotNarLookup] at hname
    exact h.names name digest hname
  named hash entry hentry := by
    rw [hmoves.keeps.hotNarLookup]
    exact h.named hash entry hentry
  shards shardId cached hcached := by
    rcases hmoves.shards hcached with hbefore | hfetched
    · exact (h.shards shardId cached hbefore).mono (List.subset_append_left _ _)
    · exact hfetched.mono (List.subset_append_right _ _)

theorem of_session {now : Nat} {occurrences : List Occurrence} {last : Shared}
    (h : Session index now occurrences last) :
    Indexed index (registrations index.crates.toCrates occurrences) (operations occurrences)
      last := by
  apply h.invariant (I := fun occurrences shared =>
    Indexed index (registrations index.crates.toCrates occurrences) (operations occurrences) shared)
  · exact start index now
  · intro labels s label t _ hindexed hoccurs
    unfold registrations operations at hindexed ⊢
    rw [List.filterMap_append, List.flatMap_append, List.flatMap_singleton]
    rcases occurs_moves hoccurs with ⟨entries, hentries, rfl⟩ | ⟨hnone, hmoves⟩
    · rw [List.filterMap_cons_some hentries]
      have hregistered := hindexed.register fun hash entry hlookup =>
        Occurrence.isReadable_of_registered hentries hlookup
      exact hregistered.moves (.refl _)
    · rw [List.filterMap_cons_none hnone, List.filterMap_nil, List.append_nil]
      exact hindexed.moves hmoves

end Indexed

/-! ## Lookups that are repeated -/

section

variable {shared : Shared} {hash : StoreHash} {text : String} {entry : IndexEntry}
  {cached : ShardCacheEntry} {root : Option ShardedArchCacheIndexData}
  {found : Option IndexEntry}

end

/-! ## Names and lookups -/

section

variable {shared : Shared} {name text : String} {entry : IndexEntry}

end

end NixCache.Proxy
