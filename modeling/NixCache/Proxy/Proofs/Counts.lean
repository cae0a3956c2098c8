import Mathlib.Data.Set.Card
import NixCache.Proxy.Proofs.Identity
import NixCache.Proxy.Proofs.Session
/-!
# The counts of the status page

The hot counter grows with the size of each registration, and the total adds the entries of the
baseline to it.  So the counts are those of the key sets exactly when no key has been counted twice.
-/

namespace NixCache.Proxy

open NixCache.Lib NixCache.Lib.Result NixCache.Core NixCache.Oci
open Program (Trace)
open NixCache.Lib.Action (Takes)
open CacheIndex (Refresh)

/-! ## Lists that count their members -/

section

variable {α : Type} [DecidableEq α]

/-- A list counts the set of its members when none comes twice. -/
theorem length_eq_ncard_iff {items : List α} :
    items.length = {item | item ∈ items}.ncard ↔ items.Nodup := by
  rw [← List.coe_toFinset, Set.ncard_coe_finset, eq_comm]
  exact Multiset.toFinset_card_eq_card_iff_nodup

end

/-! ## Keys -/

/-- The store hashes in the hot registry. -/
def Shared.hotKeys (shared : Shared) : Set StoreHash := {hash | ∃ entry, shared.hotEntries hash = some entry}

/-- The payloads that the registry has for the shards of a root. -/
def IsContentOf (index : CacheIndex) (root : ShardedArchCacheIndexData)
    (contents : UInt16 → ShardDataPayload) : Prop :=
  ∀ descriptor ∈ root.shards, ∃ exchange : Trace Request Reply,
    (IndexClient.getShardData index.crates index.client descriptor index.config.targetSystem).Runs
      exchange (.ok (contents descriptor.shardId))

/-- The store hashes in the shards of a root. -/
def contentKeys (root : ShardedArchCacheIndexData) (contents : UInt16 → ShardDataPayload) :
    List StoreHash :=
  root.shards.flatMap fun descriptor => (contents descriptor.shardId).entries.keys

/-- The store hashes in the baseline that the proxy has. -/
def HasBaselineKeys (index : CacheIndex) (shared : Shared) (keys : Set StoreHash) : Prop :=
  match shared.baselineCache index.cacheKey with
  | none => keys = ∅
  | some entry => ∃ contents, IsContentOf index entry.baseline contents ∧
      keys = {hash | hash ∈ contentKeys entry.baseline contents}

section

variable {index : CacheIndex} {root : ShardedArchCacheIndexData}
  {contents : UInt16 → ShardDataPayload}

/-- The shards of a root are for different hashes. -/
theorem nodup_contentKeys (hroot : IsIndexed index.crates.toCrates root.shards)
    (hcontents : IsContentOf index root contents) : (contentKeys root contents).Nodup := by
  unfold contentKeys
  rw [List.nodup_flatMap]
  refine ⟨fun descriptor _ => (contents descriptor.shardId).entries.nodupKeys, ?_⟩
  have hshard : ∀ descriptor ∈ root.shards, ∀ hash ∈ (contents descriptor.shardId).entries.keys,
      hash.shardId = descriptor.shardId := by
    intro descriptor hmem hash hhash
    obtain ⟨_, hruns⟩ := hcontents descriptor hmem
    have hpayload := IndexClient.isShardOf_of_getShardData hruns
    obtain ⟨entry, hentry⟩ := HashMap.mem_iff_lookup.mp hhash
    rw [(hpayload.valid.entries hash entry hentry).2.1, hpayload.isFor.id]
  refine (List.Pairwise.and_mem.mp hroot.pairwise_lt).imp ?_
  rintro left right ⟨hleft, hright, hlt⟩ hash hhash hhash'
  have hsame := (hshard left hleft hash hhash).symm.trans (hshard right hright hash hhash')
  rw [hsame] at hlt
  exact UInt16.lt_irrefl _ hlt

theorem length_contentKeys (hcontents : IsContentOf index root contents) :
    (contentKeys root contents).length = root.totalEntries := by
  unfold contentKeys ShardedArchCacheIndexData.totalEntries
  rw [List.length_flatMap]
  congr 1
  apply List.map_congr_left
  intro descriptor hmem
  obtain ⟨_, hruns⟩ := hcontents descriptor hmem
  rw [HashMap.length_keys, (IndexClient.isShardOf_of_getShardData hruns).count]

/-- Whatever a refresh is told, it arrives at a root with its shards in order. -/
theorem CacheIndex.Refresh.isIndexed_root {refresh : Refresh} {trace : Trace Operation Answer}
    (h : refresh.IsIn index trace) :
    IsIndexed index.crates.toCrates (refresh.root index).shards := by
  unfold Refresh.root
  cases hfetched : CacheIndex.fetchedRoot refresh.answer with
  | some root =>
      obtain ⟨exchange, hruns⟩ := h.answered
      obtain ⟨digest, hanswer⟩ : ∃ digest, refresh.answer = .ok (some (root, digest)) := by
        cases hanswer : refresh.answer with
        | error error => simp [hanswer, CacheIndex.fetchedRoot] at hfetched
        | ok found =>
            cases found with
            | none => simp [hanswer, CacheIndex.fetchedRoot] at hfetched
            | some pair =>
                rw [hanswer] at hfetched
                cases hfetched
                exact ⟨pair.2, rfl⟩
      rw [hanswer] at hruns
      exact (IndexClient.isAccepted_of_getShardedRoot hruns).valid.shards
  | none =>
      rw [Option.none_or]
      cases hbackup : refresh.backup.bind index.readBackup with
      | none =>
          rw [Option.getD_none, shards_freshRoot]
          exact isIndexed_freshShards _
      | some root =>
          obtain ⟨bytes, _, hread⟩ := Option.bind_eq_some_iff.mp hbackup
          unfold CacheIndex.readBackup at hread
          split at hread
          · cases hread
          · rename_i decoded _
            split at hread
            · rename_i hvalid
              cases hread
              cases hresult : decoded.value.validateFor index.crates.toCrates
                  index.config.targetSystem index.config.repo index.config.registry
                  index.client.limits.indexLimits with
              | error error =>
                  rw [hresult] at hvalid
                  cases hvalid
              | ok _ => exact (ShardedArchCacheIndexData.validateFor_eq_ok.mp hresult).1.shards
            · cases hread

end

/-! ## Sessions -/

/-- What the registrations so far have made of the state. -/
structure Counted (index : CacheIndex) (batches : List (HashMap StoreHash IndexEntry))
    (shared : Shared) : Prop where
  count : shared.hotCount = (batches.flatMap AList.keys).length
  keys : shared.hotKeys = {hash | hash ∈ batches.flatMap AList.keys}
  baseline : ∀ key entry, shared.baselineCache key = some entry →
    key = index.cacheKey ∧ IsIndexed index.crates.toCrates entry.baseline.shards

namespace Counted

variable {index : CacheIndex} {batches : List (HashMap StoreHash IndexEntry)} {shared after : Shared}

theorem start (index : CacheIndex) (now : Nat) : Counted index [] (.start now) where
  count := rfl
  keys := by
    ext hash
    simp [Shared.hotKeys, Shared.start]
  baseline _ _ h := by cases h

theorem register (h : Counted index batches shared) (entries : HashMap StoreHash IndexEntry) :
    Counted index (batches ++ [entries]) (shared.register entries) where
  count := by
    have hsize : (shared.register entries).hotCount = shared.hotCount + entries.size := rfl
    rw [hsize, h.count, List.flatMap_append, List.length_append, List.flatMap_singleton,
      HashMap.length_keys]
  keys := by
    have hkeys := Set.ext_iff.mp h.keys
    ext hash
    have hbefore := hkeys hash
    simp only [Shared.hotKeys, Set.mem_ofPred_eq] at hbefore ⊢
    rw [List.flatMap_append, List.flatMap_singleton, List.mem_append, ← hbefore]
    change (∃ entry, (entries.lookup hash).or (shared.hotEntries hash) = some entry) ↔
      _ ∨ hash ∈ entries
    rw [HashMap.mem_iff_lookup]
    cases entries.lookup hash <;> simp
  baseline := h.baseline

theorem keeps {trace : Trace Operation Answer} (h : Counted index batches shared)
    (hkeeps : Keeps index trace shared after) : Counted index batches after where
  count := by rw [hkeeps.hotCount, h.count]
  keys := by
    unfold Shared.hotKeys
    rw [hkeeps.hotEntries]
    exact h.keys
  baseline key entry hentry := by
    rcases hkeeps.baseline key entry hentry with hbefore | ⟨hkey, refresh, hin, hroot⟩
    · exact h.baseline key entry hbefore
    · rw [hroot]
      exact ⟨hkey, Refresh.isIndexed_root hin⟩

theorem of_session {now : Nat} {occurrences : List Occurrence} {last : Shared}
    (h : Session index now occurrences last) :
    Counted index (registrations index.crates.toCrates occurrences) last := by
  apply h.invariant (I := fun occurrences shared =>
    Counted index (registrations index.crates.toCrates occurrences) shared)
  · exact start index now
  · intro labels s label t _ hcounted hoccurs
    unfold registrations at hcounted ⊢
    rw [List.filterMap_append]
    rcases occurs_cases hoccurs with ⟨entries, hentries, rfl⟩ | ⟨hnone, hkeeps⟩
    · rw [List.filterMap_cons_some hentries]
      exact hcounted.register entries
    · rw [List.filterMap_cons_none hnone, List.filterMap_nil, List.append_nil]
      exact hcounted.keeps hkeeps

end Counted

/-! ## The counts -/

/-- What the status page should show: how many keys are hot, and how many there are in all. -/
structure CountsAreTrue (shared : Shared) (keys : Set StoreHash) (counts : CacheIndex.StatusEntryCounts) :
    Prop where
  hot : counts.tier0HotEntries = shared.hotKeys.ncard
  total : counts.totalUniqueEntries = (shared.hotKeys ∪ keys).ncard

/-- No key is registered twice, or registered and in the baseline. -/
structure NothingTwice (batches : List (HashMap StoreHash IndexEntry)) (keys : Set StoreHash) :
    Prop where
  distinct : batches.Pairwise fun first second => ∀ hash ∈ first, hash ∉ second
  fresh : ∀ batch ∈ batches, ∀ hash ∈ batch, hash ∉ keys

theorem nothingTwice_iff_nodup {batches : List (HashMap StoreHash IndexEntry)}
    {items : List StoreHash} (hitems : items.Nodup) :
    NothingTwice batches {hash | hash ∈ items} ↔ (batches.flatMap AList.keys ++ items).Nodup := by
  rw [List.nodup_append', List.nodup_flatMap]
  constructor
  · rintro ⟨hdistinct, hfresh⟩
    refine ⟨⟨fun batch _ => batch.nodupKeys, hdistinct.imp ?_⟩, hitems, ?_⟩
    · intro first second h hash hfirst hsecond
      exact h hash hfirst hsecond
    · intro hash hbatches
      obtain ⟨batch, hbatch, hhash⟩ := List.mem_flatMap.mp hbatches
      exact hfresh batch hbatch hash hhash
  · rintro ⟨⟨_, hdistinct⟩, _, hdisjoint⟩
    refine ⟨hdistinct.imp ?_, ?_⟩
    · intro first second h hash hfirst hsecond
      exact h hfirst hsecond
    · intro batch hbatch hash hhash
      exact hdisjoint (List.mem_flatMap.mpr ⟨batch, hbatch, hhash⟩)

/-- The keys of the baseline as a list, which the counts take the length of. -/
theorem exists_baselineItems {index : CacheIndex} {batches : List (HashMap StoreHash IndexEntry)}
    {shared : Shared} {keys : Set StoreHash} (hcounted : Counted index batches shared)
    (hkeys : HasBaselineKeys index shared keys) :
    ∃ items : List StoreHash, items.Nodup ∧ keys = {hash | hash ∈ items} ∧
      (((shared.baselineCache index.cacheKey).or
        (shared.baselineCache index.config.baselineTag)).map
          fun entry => entry.baseline.totalEntries).getD 0 = items.length := by
  unfold HasBaselineKeys at hkeys
  cases hcached : shared.baselineCache index.cacheKey with
  | some entry =>
      rw [hcached] at hkeys
      obtain ⟨contents, hcontents, rfl⟩ := hkeys
      have hindexed := (hcounted.baseline _ entry hcached).2
      exact ⟨contentKeys entry.baseline contents, nodup_contentKeys hindexed hcontents, rfl,
        (length_contentKeys hcontents).symm⟩
  | none =>
      rw [hcached] at hkeys
      have htag : shared.baselineCache index.config.baselineTag = none := by
        cases htagged : shared.baselineCache index.config.baselineTag with
        | none => rfl
        | some entry =>
            have hkey := (hcounted.baseline _ entry htagged).1
            exact absurd hkey.symm (CacheIndex.baselineTag_ne_cacheKey index)
      refine ⟨[], List.nodup_nil, ?_, ?_⟩
      · rw [hkeys]
        ext hash
        simp
      · rw [htag]
        rfl

/-- After any calls, the counts are true exactly when nothing was counted twice. -/
theorem entryCounts_true_iff {index : CacheIndex} {now : Nat} {occurrences : List Occurrence}
    {shared after : Shared} {keys : Set StoreHash} {trace : Trace Operation Answer}
    {counts : CacheIndex.StatusEntryCounts} (hsession : Session index now occurrences shared)
    (hkeys : HasBaselineKeys index shared keys)
    (hcounts : Takes (Step index) index.getEntryCounts shared trace (.ok counts) after) :
    CountsAreTrue shared keys counts ↔
      NothingTwice (registrations index.crates.toCrates occurrences) keys := by
  have hcounted := Counted.of_session hsession
  obtain ⟨items, hitems, rfl, hlength⟩ := exists_baselineItems hcounted hkeys
  obtain ⟨_, baselineCount, hresult, hbaseline⟩ := CacheIndex.takes_getEntryCounts hcounts
  cases hresult
  rw [hlength] at hbaseline
  subst hbaseline
  rw [nothingTwice_iff_nodup hitems]
  generalize hbatches : (registrations index.crates.toCrates occurrences).flatMap AList.keys =
    batches at hcounted ⊢
  have hcount : shared.hotCount = batches.length := by
    rw [hcounted.count, hbatches]
  have hhot : shared.hotKeys = {hash | hash ∈ batches} := by
    rw [hcounted.keys, hbatches]
  have hunion : shared.hotKeys ∪ {hash | hash ∈ items} = {hash | hash ∈ batches ++ items} := by
    rw [hhot]
    ext hash
    simp
  have htotal : (if 0 < items.length then shared.hotCount + items.length else shared.hotCount) =
      (batches ++ items).length := by
    rw [hcount, List.length_append]
    split <;> omega
  constructor
  · rintro ⟨_, h⟩
    rwa [hunion, htotal, length_eq_ncard_iff] at h
  · intro hnodup
    refine ⟨?_, ?_⟩
    · rw [hhot]
      change shared.hotCount = _
      rw [hcount, length_eq_ncard_iff]
      exact (List.nodup_append'.mp hnodup).1
    · rw [hunion, htotal, length_eq_ncard_iff]
      exact hnodup

/-! ## Sample sessions -/

/-- One entry under its hash. -/
def sampleBatch : HashMap StoreHash IndexEntry :=
  HashMap.ofList [(sampleHash '1', registeredEntry)]

def sampleBody : Json := singleBody (sampleHash '1') registeredEntry

theorem fromJson_sampleBody :
    RegisterPayload.fromJson sampleIndex.crates.toCrates sampleBody = .ok (.map sampleBatch) :=
  fromJson_registeredEntry (by decide)

theorem registered_sampleBody (trace : Trace Operation Answer) :
    (Occurrence.call (.registerSession sampleBody) trace).registered sampleIndex.crates.toCrates =
      some sampleBatch :=
  Occurrence.registered_of_fromJson fromJson_sampleBody trace

/-- A proxy at which the body is registered some times. -/
theorem exists_session_registered (times : Nat) :
    ∃ occurrences shared, Session sampleIndex 0 occurrences shared ∧
      registrations sampleIndex.crates.toCrates occurrences = List.replicate times sampleBatch ∧
      shared.hotCount = times ∧ shared.baselineCache = fun _ => none := by
  induction times with
  | zero => exact ⟨[], .start 0, .nil, rfl, rfl, rfl⟩
  | succ times ih =>
      obtain ⟨occurrences, shared, hsession, hbatches, hcount, hbaseline⟩ := ih
      obtain ⟨trace, hoccurs⟩ := exists_occurs_registerSession shared fromJson_sampleBody
      have hsize : sampleBatch.size = 1 := rfl
      refine ⟨_, _, .snoc hsession hoccurs, ?_, ?_, hbaseline⟩
      · unfold registrations at hbatches ⊢
        rw [List.filterMap_append, hbatches, List.filterMap_cons_some (registered_sampleBody trace),
          List.filterMap_nil, List.replicate_succ']
      · change shared.hotCount + sampleBatch.size = times + 1
        rw [hcount, hsize]

theorem hasBaselineKeys_empty {index : CacheIndex} {shared : Shared}
    (h : shared.baselineCache = fun _ => none) : HasBaselineKeys index shared ∅ := by
  unfold HasBaselineKeys
  rw [h]

/-- The theorem on a single registration. -/
theorem entryCounts_true_iff_registeredOnce :
    ∃ occurrences shared trace counts, Session sampleIndex 0 occurrences shared ∧
      Takes (Step sampleIndex) sampleIndex.getEntryCounts shared trace (.ok counts) shared ∧
      (CountsAreTrue shared ∅ counts ↔
        NothingTwice (registrations sampleIndex.crates.toCrates occurrences) ∅) := by
  obtain ⟨occurrences, shared, hsession, _, _, hbaseline⟩ := exists_session_registered 1
  obtain ⟨trace, counts, hcounts, _⟩ := exists_takes_getEntryCounts sampleIndex shared
  exact ⟨occurrences, shared, trace, counts, hsession, hcounts,
    entryCounts_true_iff hsession (hasBaselineKeys_empty hbaseline) hcounts⟩

/-- Two registrations of one entry count as two. -/
theorem repeatedRegistration_miscounted :
    ∃ occurrences shared trace counts, Session sampleIndex 0 occurrences shared ∧
      registrations sampleIndex.crates.toCrates occurrences = [sampleBatch, sampleBatch] ∧
      HasBaselineKeys sampleIndex shared ∅ ∧
      Takes (Step sampleIndex) sampleIndex.getEntryCounts shared trace (.ok counts) shared ∧
      counts.tier0HotEntries = 2 ∧ shared.hotKeys = {sampleHash '1'} ∧
      ¬ CountsAreTrue shared ∅ counts := by
  obtain ⟨occurrences, shared, hsession, hbatches, hcount, hbaseline⟩ :=
    exists_session_registered 2
  obtain ⟨trace, counts, hcounts, hhot⟩ := exists_takes_getEntryCounts sampleIndex shared
  have hkeys : shared.hotKeys = {sampleHash '1'} := by
    have hlist : (List.replicate 2 sampleBatch).flatMap AList.keys =
        [sampleHash '1', sampleHash '1'] := rfl
    rw [(Counted.of_session hsession).keys, hbatches, hlist]
    ext hash
    simp
  refine ⟨occurrences, shared, trace, counts, hsession, hbatches, hasBaselineKeys_empty hbaseline,
    hcounts, hhot.trans hcount, hkeys, ?_⟩
  intro h
  have hone := h.hot
  rw [hkeys, hhot, hcount, Set.ncard_singleton] at hone
  omega

end NixCache.Proxy
