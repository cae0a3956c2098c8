import NixCache.Oci.Proofs.Published
import NixCache.Proxy.Proofs.Alone
import NixCache.Proxy.Proofs.Identity
/-!
# The baseline after a failed refresh

A refresh that the registry does not answer with a root replaces the cached baseline by what the
backup file yields, else by the empty root.  So a root that was fetched is kept as far as the file
yields it, or a newer one, whenever it is read.
-/

namespace NixCache.Proxy

open NixCache.Lib NixCache.Lib.Result NixCache.Core NixCache.Oci
open Program (Trace Follows)
open NixCache.Lib.Action (Runs Meets Only Takes takes_pure)
open CacheIndex (Refresh fetchedRoot)

variable {index : CacheIndex} {past more : Trace Operation Answer}

/-! ## What is stored -/

/-- The refresh was told this, the backup file being read after the registry was asked. -/
def CacheIndex.Refresh.IsTold (past : Trace Operation Answer) (refresh : Refresh) : Prop :=
  ∃ front back, past = front ++ (.getShardedRoot, .root refresh.answer) :: back ∧
    (fetchedRoot refresh.answer = none → (.readBackup, .backup refresh.backup) ∈ back)

theorem CacheIndex.Refresh.IsTold.mono {refresh : Refresh} (h : refresh.IsTold past)
    (hleading : past <+: more) : refresh.IsTold more := by
  obtain ⟨front, back, rfl, hbackup⟩ := h
  obtain ⟨rest, rfl⟩ := hleading
  refine ⟨front, back ++ rest, by simp, ?_⟩
  intro hnone
  exact List.mem_append_left _ (hbackup hnone)

/-- What a refresh was told, when it asked the registry after the first of these operations. -/
theorem CacheIndex.Refresh.IsTold.of_append {refresh : Refresh} (h : refresh.IsTold (past ++ more))
    (hpast : (.getShardedRoot, .root refresh.answer) ∉ past) : refresh.IsTold more := by
  obtain ⟨front, back, hsplit, hbackup⟩ := h
  rcases List.append_eq_append_iff.mp hsplit with ⟨rest, rfl, hmore⟩ | ⟨rest, hfront, hrest⟩
  · exact ⟨rest, back, hmore, hbackup⟩
  · cases rest with
    | nil => exact ⟨[], back, hrest.symm, hbackup⟩
    | cons event rest =>
        obtain ⟨rfl, -⟩ := List.cons.inj hrest
        exact absurd (by simp [hfront]) hpast

/-- A refresh arrived at the root. -/
def IsArrivedAt (index : CacheIndex) (past : Trace Operation Answer)
    (root : ShardedArchCacheIndexData) : Prop :=
  ∃ refresh : Refresh, refresh.IsTold past ∧ refresh.root index = root

theorem IsArrivedAt.mono {root : ShardedArchCacheIndexData} (h : IsArrivedAt index past root)
    (hleading : past <+: more) : IsArrivedAt index more root := by
  obtain ⟨refresh, htold, hroot⟩ := h
  exact ⟨refresh, htold.mono hleading, hroot⟩

/-- What a handler may store as a baseline after its operations so far. -/
def StoresTold (index : CacheIndex) (past : Trace Operation Answer) : Operation → Prop
  | .upsertBaseline key entry => key = index.cacheKey ∧ IsArrivedAt index past entry.baseline
  | _ => True

/-- An operation that stores no baseline. -/
def LeavesBaseline : Operation → Prop
  | .upsertBaseline _ _ => False
  | _ => True

theorem storesTold_of_leavesBaseline {operation : Operation} (h : LeavesBaseline operation) :
    StoresTold index past operation := by
  cases operation
  case upsertBaseline key entry => exact h.elim
  all_goals trivial

/-- What holds of the value, unless the handler stops. -/
def Returns {α : Type} (M : Trace Operation Answer → α → Prop) (past : Trace Operation Answer) :
    Except Panic α → Prop
  | .ok value => M past value
  | .error _ => True

theorem meets_of_leavesBaseline {α : Type} {handler : Handler α} (h : Only LeavesBaseline handler) :
    Meets (StoresTold index) past handler fun after _ => past <+: after :=
  Action.meets_of_only h (fun _ hleaves _ => storesTold_of_leavesBaseline hleaves)
    fun trace _ _ => List.prefix_append past trace

/-- A handler that stores no baseline, and what comes after it. -/
theorem meets_leaves_bind {α β : Type} {handler : Handler α} {next : α → Handler β}
    {M : Trace Operation Answer → β → Prop} (h : Only LeavesBaseline handler)
    (hnext : ∀ after value, past <+: after →
      Meets (StoresTold index) after (next value) (Returns M)) :
    Meets (StoresTold index) past (handler >>= next) (Returns M) :=
  (meets_of_leavesBaseline h).bind hnext fun _ _ _ => trivial

/-- A handler that stores no baseline and tells nothing about its value. -/
theorem meets_leaves {α : Type} {handler : Handler α} (h : Only LeavesBaseline handler) :
    Meets (StoresTold index) past handler fun _ _ => True :=
  (meets_of_leavesBaseline h).imp fun _ _ _ => trivial

namespace CacheIndex

theorem fetchedRoot_eq_some
    {answer : Except OciError (Option (ShardedArchCacheIndexData × String))}
    {root : ShardedArchCacheIndexData} :
    fetchedRoot answer = some root ↔ ∃ digest, answer = .ok (some (root, digest)) := by
  match answer with
  | .ok (some (found, digest)) => simp [fetchedRoot, and_comm]
  | .ok none => simp [fetchedRoot]
  | .error error => simp [fetchedRoot]

theorem meets_fetchBaseline :
    Meets (StoresTold index) past index.fetchBaseline (Returns fun past found =>
      ∃ answer, (.getShardedRoot, .root answer) ∈ past ∧ found = fetchedRoot answer) := by
  unfold fetchBaseline
  apply Action.Meets.ask_bind trivial
  · intro reply answer hreply
    have hasked : (.getShardedRoot, .root answer) ∈ past ++ [(.getShardedRoot, reply)] := by
      rw [Answer.asRoot_eq_some.mp hreply]
      simp
    match answer with
    | .ok (some (root, digest)) =>
        apply meets_leaves_bind (only_perform (by trivial))
        intro second _ hsecond
        apply meets_leaves_bind (only_ask (by trivial))
        intro third old hthird
        apply meets_leaves_bind (only_dropChanged fun _ => trivial)
        intro fourth _ hfourth
        apply meets_leaves_bind (only_writeBackup fun _ => trivial)
        intro fifth _ hfifth
        have hextends := ((hsecond.trans hthird).trans hfourth).trans hfifth
        exact Action.meets_pure ⟨_, hextends.subset hasked, rfl⟩
    | .ok none =>
        apply meets_leaves_bind (only_perform (by trivial))
        intro second _ hsecond
        exact Action.meets_pure ⟨_, hsecond.subset hasked, rfl⟩
    | .error error =>
        apply meets_leaves_bind (only_perform (by trivial))
        intro second _ hsecond
        exact Action.meets_pure ⟨_, hsecond.subset hasked, rfl⟩
  · exact fun _ => trivial

theorem meets_backupBaseline
    {answer : Except OciError (Option (ShardedArchCacheIndexData × String))}
    (hasked : (.getShardedRoot, .root answer) ∈ past) :
    Meets (StoresTold index) past (orElse (fetchedRoot answer) index.backupBaseline)
      (Returns fun past found => ∃ refresh : Refresh, refresh.IsTold past ∧
        found = (fetchedRoot refresh.answer).or (refresh.backup.bind index.readBackup)) := by
  obtain ⟨front, back, rfl⟩ := List.append_of_mem hasked
  cases hfetched : fetchedRoot answer with
  | some root =>
      refine Action.meets_pure ⟨⟨answer, none, ""⟩, ⟨front, back, rfl, ?_⟩, ?_⟩
      · simp [hfetched]
      · simp [hfetched]
  | none =>
      unfold orElse backupBaseline
      apply Action.Meets.ask_bind trivial
      · intro reply bytes hreply
        rw [Answer.asBackup_eq_some.mp hreply]
        refine Action.meets_pure ⟨⟨answer, bytes, ""⟩,
          ⟨front, back ++ [(.readBackup, .backup bytes)], ?_, ?_⟩, ?_⟩
        · simp
        · simp
        · simp [hfetched]
      · exact fun _ => trivial

theorem meets_emptyBaseline {found : Option ShardedArchCacheIndexData} {refresh : Refresh}
    (htold : refresh.IsTold past)
    (hfound : found = (fetchedRoot refresh.answer).or (refresh.backup.bind index.readBackup)) :
    Meets (StoresTold index) past (getOrElse found index.emptyBaseline)
      (Returns (IsArrivedAt index)) := by
  cases found with
  | some root =>
      refine Action.meets_pure ⟨refresh, htold, ?_⟩
      rw [Refresh.root, ← hfound]
      rfl
  | none =>
      unfold getOrElse emptyBaseline
      apply Action.Meets.ask_bind trivial
      · intro reply text hreply
        unfold expect
        rw [new_eq_ok]
        refine Action.meets_pure ⟨{ refresh with utc := text }, ?_, ?_⟩
        · exact htold.mono (List.prefix_append _ _)
        · rw [Refresh.root, ← hfound]
          rfl
      · exact fun _ => trivial

/-- A refresh stores what it was told. -/
theorem meets_refreshBaseline :
    Meets (StoresTold index) past index.refreshBaseline (Returns (IsArrivedAt index)) := by
  unfold refreshBaseline
  apply meets_fetchBaseline.bind
  · rintro asked found ⟨answer, hasked, rfl⟩
    apply (meets_backupBaseline hasked).bind
    · rintro told found ⟨refresh, htold, hfound⟩
      apply (meets_emptyBaseline htold hfound).bind
      · intro last root hroot
        apply meets_leaves_bind (only_ask (by trivial))
        intro timed now htimed
        apply Action.Meets.ask_bind
        · exact ⟨rfl, IsArrivedAt.mono hroot htimed⟩
        · intro _ _ _
          exact Action.meets_pure
            (IsArrivedAt.mono hroot (htimed.trans (List.prefix_append _ _)))
        · exact fun _ => trivial
      · exact fun _ _ _ => trivial
    · exact fun _ _ _ => trivial
  · exact fun _ _ _ => trivial

/-- The root was in the cache, or a refresh arrived at it. -/
def IsObtained (index : CacheIndex) (past : Trace Operation Answer)
    (root : ShardedArchCacheIndexData) : Prop :=
  (∃ entry, (.readBaseline index.cacheKey, .baseline (some entry)) ∈ past ∧ entry.baseline = root) ∨
    IsArrivedAt index past root

theorem IsObtained.mono {root : ShardedArchCacheIndexData} (h : IsObtained index past root)
    (hleading : past <+: more) : IsObtained index more root := by
  rcases h with ⟨entry, hread, hroot⟩ | harrived
  · exact Or.inl ⟨entry, hleading.subset hread, hroot⟩
  · exact Or.inr (harrived.mono hleading)

theorem meets_cachedBaseline {entry : Option CachedBaselineEntry}
    (hread : (.readBaseline index.cacheKey, .baseline entry) ∈ past) :
    Meets (StoresTold index) past (cachedBaseline entry)
      (Returns fun past found => ∀ root, found = some root → IsObtained index past root) := by
  cases entry with
  | none => exact Action.meets_pure (by rintro _ ⟨⟩)
  | some entry =>
      apply meets_leaves_bind (only_ask (by trivial))
      intro timed now htimed
      apply Action.meets_pure
      intro root hroot
      split at hroot
      · cases hroot
        exact Or.inl ⟨entry, htimed.subset hread, rfl⟩
      · cases hroot

theorem meets_getBaselineData :
    Meets (StoresTold index) past index.getBaselineData (Returns (IsObtained index)) := by
  unfold getBaselineData
  apply Action.Meets.ask_bind trivial
  · intro reply entry hreply
    rw [Answer.asBaseline_eq_some.mp hreply]
    apply (meets_cachedBaseline (List.mem_append_right past (List.mem_singleton.mpr rfl))).bind
    · intro cached found hcached
      cases found with
      | some root => exact Action.meets_pure (hcached root rfl)
      | none => exact meets_refreshBaseline.imp fun
          | _, .ok _, harrived => Or.inr harrived
          | _, .error _, _ => trivial
    · exact fun _ _ _ => trivial
  · exact fun _ => trivial

/-! ## The other handlers -/

theorem only_fetchShardData {descriptor : ShardDescriptor} :
    Only LeavesBaseline (index.fetchShardData descriptor) := by
  unfold fetchShardData
  apply Action.only_bind (only_ask (by trivial))
  intro answer
  cases answer with
  | ok payload =>
      apply Action.only_bind (only_perform (by trivial))
      intro _
      apply Action.only_bind (only_ask (by trivial))
      intro now
      exact Action.only_bind (only_perform (by trivial)) fun _ => Action.only_pure _
  | error error =>
      exact Action.only_bind (only_perform (by trivial)) fun _ => Action.only_pure _

theorem only_getShardData {descriptor : ShardDescriptor} :
    Only LeavesBaseline (index.getShardData descriptor) := by
  unfold getShardData
  apply Action.only_bind (only_ask (by trivial))
  intro entry
  apply Action.only_bind (only_cachedPayload (by trivial))
  intro cached
  apply only_orElse
  split
  · exact Action.only_pure _
  · exact only_fetchShardData

theorem only_lookupBaseline {hash : StoreHash} {root : ShardedArchCacheIndexData} :
    Only LeavesBaseline (index.lookupBaseline hash root) := by
  unfold lookupBaseline
  split
  · exact Action.only_pure _
  · split
    · exact Action.only_pure _
    · exact Action.only_bind only_getShardData fun _ => Action.only_pure _

theorem only_registerHotEntries {entries : HashMap StoreHash IndexEntry} :
    Only LeavesBaseline (registerHotEntries entries) := by
  unfold registerHotEntries
  apply Action.only_bind (only_upsertAll fun _ _ => by trivial)
  intro _
  apply Action.only_bind (only_upsertAll fun _ _ => by trivial)
  intro _
  exact only_perform (by trivial)

/-- The root that a lookup answers from is one that it obtained. -/
theorem meets_lookupFrom_root {storeHash : String} :
    Meets (StoresTold index) past (index.lookupFrom storeHash)
      (Returns fun past answer => ∀ root, answer.1 = some root → IsObtained index past root) := by
  unfold lookupFrom
  split
  · exact Action.meets_pure (by rintro _ ⟨⟩)
  · rename_i hash hparse
    apply meets_leaves_bind (only_ask (by trivial))
    intro read hot hread
    cases hot with
    | some entry => exact Action.meets_pure (by rintro _ ⟨⟩)
    | none =>
        apply meets_getBaselineData.bind
        · intro obtained root hroot
          apply meets_leaves_bind only_lookupBaseline
          intro after entry hafter
          apply Action.meets_pure
          rintro _ ⟨⟩
          exact IsObtained.mono hroot hafter
        · exact fun _ _ _ => trivial

theorem meets_findNarDigest_root {name : String} :
    Meets (StoresTold index) past (index.findNarDigest name) fun _ _ => True := by
  unfold findNarDigest
  apply Action.Meets.seq (meets_leaves (only_ask (by trivial)))
  intro _ digest
  cases digest with
  | some digest => exact Action.meets_pure trivial
  | none =>
      apply Action.Meets.seq
      · unfold lookupNarHash
        apply Action.Meets.seq (Action.meets_ofExcept trivial)
        intro _ hash
        cases hash with
        | none => exact Action.meets_pure trivial
        | some hash =>
            apply Action.Meets.seq (meets_lookupFrom_root.imp fun _ _ _ => trivial)
            intro _ _
            exact Action.meets_pure trivial
      · intro _ entry
        cases entry with
        | some entry => exact Action.meets_pure trivial
        | none => exact meets_leaves (only_ask (by trivial))

theorem meets_forceRefresh_root :
    Meets (StoresTold index) past index.forceRefresh fun _ _ => True := by
  unfold forceRefresh
  apply Action.Meets.seq (meets_leaves (only_perform (by trivial)))
  intro _ _
  apply Action.Meets.seq (meets_leaves (only_perform (by trivial)))
  intro _ _
  apply Action.Meets.seq (meets_leaves (only_perform (by trivial)))
  intro _ _
  apply Action.Meets.seq (meets_getBaselineData.imp fun _ _ _ => trivial)
  intro _ root
  apply Action.Meets.seq (meets_leaves (only_refreshErrors (by trivial)))
  intro _ errors
  apply meets_leaves
  exact Action.only_bind (only_getEntryCounts (by trivial) fun _ => by trivial)
    fun _ => Action.only_pure _

end CacheIndex

/-- Every baseline that a call stores is one that a refresh of its own arrived at. -/
theorem Call.meets_storesTold {call : Call} :
    Meets (StoresTold index) [] (call.handler index) fun _ _ => True := by
  cases call with
  | registerSession body =>
      apply meets_leaves
      refine Action.only_bind ?_ fun _ => Action.only_pure _
      unfold handleRegisterSession
      split
      · exact Action.only_pure _
      · exact Action.only_bind CacheIndex.only_registerHotEntries fun _ => Action.only_pure _
  | lookup storeHash =>
      exact Action.Meets.seq (CacheIndex.meets_lookupFrom_root.imp fun _ _ _ => trivial)
        fun _ _ => Action.meets_pure trivial
  | findNarDigest narBasename =>
      exact Action.Meets.seq CacheIndex.meets_findNarDigest_root
        fun _ _ => Action.meets_pure trivial
  | getBaselineData =>
      exact Action.Meets.seq (CacheIndex.meets_getBaselineData.imp fun _ _ _ => trivial)
        fun _ _ => Action.meets_pure trivial
  | getShardData descriptor =>
      exact meets_leaves (Action.only_bind CacheIndex.only_getShardData fun _ => Action.only_pure _)
  | getEntryCounts =>
      apply meets_leaves
      exact Action.only_bind (CacheIndex.only_getEntryCounts (by trivial) fun _ => by trivial)
        fun _ => Action.only_pure _
  | forceRefresh =>
      exact Action.Meets.seq CacheIndex.meets_forceRefresh_root
        fun _ _ => Action.meets_pure trivial

/-! ## The backup file -/

/-- The file decodes within the limit, to a root that `validate_for` accepts for the names that the
configuration spells. -/
def BackupHolds (index : CacheIndex) (bytes : Option Bytes) (root : ShardedArchCacheIndexData) :
    Prop :=
  ∃ text size, bytes = some text ∧
    IndexCodec.decodeZstd index.crates
      (ShardedArchCacheIndexData.fromJson index.crates.toCrates) text rootIndexV8Zstd
      index.client.limits.maxIndexUncompressedBytes = .ok ⟨root, size⟩ ∧
    root.validateFor index.crates.toCrates index.config.targetSystem index.config.repo
      index.config.registry index.client.limits.indexLimits = .ok ()

theorem readBackup_of_backupHolds {bytes : Option Bytes} {root : ShardedArchCacheIndexData}
    (h : BackupHolds index bytes root) : bytes.bind index.readBackup = some root := by
  obtain ⟨text, size, rfl, hdecode, hvalid⟩ := h
  rw [Option.bind_some, CacheIndex.readBackup, hdecode]
  dsimp only
  rw [hvalid]
  rfl

/-- The file that a refresh writes for a root that the client accepted holds the root exactly when
the configuration spells the two names as the client does. -/
theorem backupHolds_written_iff (laws : CodecLaws index.crates) {root : ShardedArchCacheIndexData}
    {bytes : Bytes}
    (haccepted : IndexClient.IsAccepted index.crates index.client index.config.targetSystem root)
    (hroots : ∀ hash ∈ root.gcRoots, hash.IsCanonical)
    (hencode : IndexCodec.encodeZstd index.crates root.toJson = .ok bytes)
    (hsize : (IndexCodec.toVec index.crates root.toJson).length ≤
      index.client.limits.maxIndexUncompressedBytes.toNat) :
    BackupHolds index (some bytes) root ↔
      index.config.repo = index.client.repo ∧ index.config.registry = index.client.authority := by
  have hdecode := IndexCodec.decodeZstd_encodeZstd laws hencode (laws.root root)
    (ShardedArchCacheIndexData.fromJson_toJson haccepted.valid hroots)
    (Or.inl rfl : rootIndexV8Zstd = rootIndexV8Zstd ∨ _) hsize
  have hvalid : root.validateFor index.crates.toCrates index.config.targetSystem index.config.repo
      index.config.registry index.client.limits.indexLimits = .ok () ↔
      index.config.repo = index.client.repo ∧ index.config.registry = index.client.authority := by
    rw [ShardedArchCacheIndexData.validateFor_eq_ok]
    constructor
    · rintro ⟨_, _, hrepo, hregistry, _⟩
      exact ⟨hrepo.symm.trans haccepted.repo, hregistry.symm.trans haccepted.registry⟩
    · rintro ⟨hrepo, hregistry⟩
      exact ⟨haccepted.valid, haccepted.system, haccepted.repo.trans hrepo.symm,
        haccepted.registry.trans hregistry.symm, haccepted.limits⟩
  rw [← hvalid]
  constructor
  · rintro ⟨_, _, _, _, hok⟩
    exact hok
  · intro hok
    exact ⟨bytes, _, rfl, hdecode, hok⟩

/-! ## A refresh that fails -/

/-- An answer that the registry, or the way to it, can give. -/
def CanAnswer (index : CacheIndex)
    (answer : Except OciError (Option (ShardedArchCacheIndexData × String))) : Prop :=
  ∃ exchange : Trace Request Reply, (IndexClient.getShardedRoot index.crates index.client
    index.config.baselineTag index.config.targetSystem).Runs exchange answer

theorem canAnswer_unreachable (index : CacheIndex) (error : TransportError) :
    CanAnswer index (.error (OciError.ofTransport error)) := by
  have hget : ∀ url reference maxBytes, Action.eval (fun _ => .error error)
      (transportGet url (.getManifest reference) maxBytes) =
      .error (OciError.ofTransport error) := by
    intro url reference maxBytes
    rw [transportGet, transportCall, Action.eval_bind, Action.eval_request]
    rfl
  have heval : Action.eval (fun _ => .error error) (IndexClient.getShardedRoot index.crates
      index.client index.config.baselineTag index.config.targetSystem) =
      .error (OciError.ofTransport error) := by
    simp only [IndexClient.getShardedRoot, IndexClient.getImageManifest,
      ManifestClient.getWithDigest, ManifestClient.getWithExpectedSize, requestWithAuthRetry,
      Action.eval_bind, hget, whenSome, Action.eval_ofExcept]
    rfl
  unfold CanAnswer
  rw [← heval]
  exact Action.runs_eval _ _

theorem runs_ask_bind {α β : Type} {operation : Operation} {read : Answer → Option α}
    {next : α → Handler β} {answer : Answer} {value : α} {rest : Trace Operation Answer}
    {result : Except Panic β} (h : read answer = some value)
    (hnext : (next value).Runs rest result) :
    (ask operation read >>= next).Runs ((operation, answer) :: rest) result := by
  have hask : (ask operation read).Runs [(operation, answer)] (.ok value) :=
    Action.runs_ask_ok.mpr ⟨answer, rfl, h⟩
  exact hask.bind hnext

theorem runs_discard {α : Type} {handler : Handler α} {trace : Trace Operation Answer} {value : α}
    (h : handler.Runs trace (.ok value)) :
    (handler >>= fun _ => pure () : Handler Unit).Runs trace (.ok ()) := by
  rw [← List.append_nil trace]
  exact h.bind ⟨rfl, rfl⟩

namespace CacheIndex

/-- The end of a refresh. -/
def storeTrace (index : CacheIndex) (root : ShardedArchCacheIndexData) (now : Nat) :
    Trace Operation Answer :=
  [(.now, .instant now),
    (.upsertBaseline index.cacheKey ⟨root, now + index.config.baselineTtl⟩, .done)]

/-- A refresh that the registry does not answer, when there is no backup file. -/
def emptiedTrace (index : CacheIndex) (error : OciError) (text : String)
    (root : ShardedArchCacheIndexData) (now : Nat) : Trace Operation Answer :=
  (.getShardedRoot, .root (.error error)) ::
    (.setRemoteStatus { connected := false, error := some error }, .done) ::
    (.readBackup, .backup none) :: (.utcNow, .utc text) :: index.storeTrace root now

/-- A refresh that the registry does not answer, when the backup file holds the root. -/
def restoredTrace (index : CacheIndex) (error : OciError) (bytes : Bytes)
    (root : ShardedArchCacheIndexData) (now : Nat) : Trace Operation Answer :=
  (.getShardedRoot, .root (.error error)) ::
    (.setRemoteStatus { connected := false, error := some error }, .done) ::
    (.readBackup, .backup (some bytes)) :: index.storeTrace root now

theorem runs_fetchBaseline_error (error : OciError) :
    index.fetchBaseline.Runs [(.getShardedRoot, .root (.error error)),
      (.setRemoteStatus { connected := false, error := some error }, .done)] (.ok none) := by
  unfold fetchBaseline
  refine runs_ask_bind (by rfl) ?_
  exact runs_ask_bind (by rfl) ⟨rfl, rfl⟩

theorem runs_backupBaseline (index : CacheIndex) (bytes : Option Bytes) :
    index.backupBaseline.Runs [(.readBackup, .backup bytes)]
      (.ok (bytes.bind index.readBackup)) := by
  unfold backupBaseline
  refine runs_ask_bind (by rfl) ?_
  exact ⟨rfl, rfl⟩

theorem runs_emptiedTrace {root : ShardedArchCacheIndexData} (error : OciError) (text : String)
    (now : Nat) (hroot : freshRoot index.crates.toCrates index.config.targetSystem index.config.repo
      index.config.registry text = root) :
    index.refreshBaseline.Runs (index.emptiedTrace error text root now) (.ok root) := by
  have hempty : index.emptyBaseline.Runs [(.utcNow, .utc text)] (.ok root) := by
    refine runs_ask_bind (by rfl) ?_
    rw [expect, new_eq_ok, hroot]
    exact ⟨rfl, rfl⟩
  refine (runs_fetchBaseline_error error).bind ?_
  refine (runs_backupBaseline index none).bind ?_
  refine hempty.bind ?_
  refine runs_ask_bind (by rfl) ?_
  exact runs_ask_bind (by rfl) ⟨rfl, rfl⟩

theorem runs_restoredTrace {root : ShardedArchCacheIndexData} {bytes : Bytes} (error : OciError)
    (now : Nat) (hbytes : BackupHolds index (some bytes) root) :
    index.refreshBaseline.Runs (index.restoredTrace error bytes root now) (.ok root) := by
  have hbackup := runs_backupBaseline index (some bytes)
  rw [readBackup_of_backupHolds hbytes] at hbackup
  refine (runs_fetchBaseline_error error).bind ?_
  refine hbackup.bind ?_
  refine runs_ask_bind (by rfl) ?_
  exact runs_ask_bind (by rfl) ⟨rfl, rfl⟩

/-- A refresh that is told of a root when nothing is cached, until it stores the root. -/
def fetchTrace (index : CacheIndex) (root : ShardedArchCacheIndexData) (digest : String)
    (written : Trace Operation Answer) : Trace Operation Answer :=
  (.readBaseline index.cacheKey, .baseline none) ::
    (.getShardedRoot, .root (.ok (some (root, digest)))) ::
    (.setRemoteStatus { connected := true }, .done) ::
    (.readBaseline index.cacheKey, .baseline none) :: (written ++ [(.now, .instant 0)])

theorem exists_runs_fetchTrace (index : CacheIndex) (root : ShardedArchCacheIndexData)
    (digest : String) :
    ∃ written : Trace Operation Answer,
      (∀ event ∈ written, ∃ bytes, event = (.writeBackup bytes, .done)) ∧
        index.getBaselineData.Runs (index.fetchTrace root digest written ++
          [(.upsertBaseline index.cacheKey ⟨root, 0 + index.config.baselineTtl⟩, .done)])
          (.ok root) := by
  obtain ⟨written, hwritten, hwrite⟩ : ∃ written : Trace Operation Answer,
      (∀ event ∈ written, ∃ bytes, event = (.writeBackup bytes, .done)) ∧
        (index.writeBackup root).Runs written (.ok ()) := by
    unfold writeBackup
    split
    · rename_i bytes hencode
      exact ⟨[(.writeBackup bytes, .done)], by simp, runs_perform _⟩
    · exact ⟨[], by simp, rfl, rfl⟩
  refine ⟨written, hwritten, ?_⟩
  have hfetch : index.fetchBaseline.Runs ((.getShardedRoot, .root (.ok (some (root, digest)))) ::
      (.setRemoteStatus { connected := true }, .done) ::
      (.readBaseline index.cacheKey, .baseline none) :: ([] ++ (written ++ [])))
      (.ok (some root)) := by
    unfold fetchBaseline
    refine runs_ask_bind (by rfl) ?_
    refine runs_ask_bind (by rfl) ?_
    refine runs_ask_bind (by rfl) ?_
    refine Action.Runs.bind ⟨rfl, rfl⟩ ?_
    exact hwrite.bind ⟨rfl, rfl⟩
  rw [List.append_nil, List.nil_append] at hfetch
  unfold fetchTrace getBaselineData
  simp only [List.cons_append, List.append_assoc, List.nil_append]
  refine runs_ask_bind (by rfl) ?_
  change index.refreshBaseline.Runs _ _
  refine hfetch.bind ?_
  refine runs_ask_bind (by rfl) ?_
  exact runs_ask_bind (by rfl) ⟨rfl, rfl⟩

/-- The proxy when the root is to be stored. -/
def connected : Shared := { Shared.start 0 with remoteStatus := { connected := true } }

theorem follows_fetchTrace {root : ShardedArchCacheIndexData} {digest : String}
    {written : Trace Operation Answer}
    (hwritten : ∀ event ∈ written, ∃ bytes, event = (.writeBackup bytes, .done))
    (hfetched : CanAnswer index (.ok (some (root, digest)))) :
    Follows (Step index) (.start 0) (index.fetchTrace root digest written) connected := by
  obtain ⟨exchange, hfetched⟩ := hfetched
  have hback : Follows (Step index) connected written connected := by
    induction written with
    | nil => rfl
    | cons event written ih =>
        rw [List.forall_mem_cons] at hwritten
        obtain ⟨⟨bytes, rfl⟩, hrest⟩ := hwritten
        exact ⟨connected, .apply rfl, ih hrest⟩
  have hlast : Follows (Step index) connected (written ++ [(.now, .instant 0)]) connected :=
    Program.follows_append.mpr ⟨connected, hback, connected, .apply rfl, rfl⟩
  exact ⟨_, .apply rfl, _, .getShardedRoot _ hfetched, _, .apply rfl, _, .apply rfl, hlast⟩

/-- The request for a shard that is not cached. -/
def shardTrace (index : CacheIndex) (descriptor : ShardDescriptor) (payload : ShardDataPayload)
    (now : Nat) : Trace Operation Answer :=
  [(.readShard descriptor.shardId, .shard none),
    (.getShardData descriptor, .payload (.ok payload)),
    (.setRemoteStatus { connected := true }, .done), (.now, .instant now),
    (.upsertShard descriptor.shardId ⟨payload, buildNarLookupMap payload.entries,
      descriptor.blobDigest, now + index.config.baselineTtl⟩, .done)]

theorem runs_shardTrace {hash : StoreHash} {root : ShardedArchCacheIndexData}
    {descriptor : ShardDescriptor} {payload : ShardDataPayload} {now : Nat}
    (hdescriptor : root.findShardById hash.shardId = some descriptor)
    (hfilled : descriptor.isEmpty = false) (hblob : Str.isEmpty descriptor.blobDigest = false) :
    (index.lookupBaseline hash root).Runs (index.shardTrace descriptor payload now)
      (.ok (payload.entries.lookup hash)) := by
  have hfetch : (index.fetchShardData descriptor).Runs
      [(.getShardData descriptor, .payload (.ok payload)),
        (.setRemoteStatus { connected := true }, .done), (.now, .instant now),
        (.upsertShard descriptor.shardId ⟨payload, buildNarLookupMap payload.entries,
          descriptor.blobDigest, now + index.config.baselineTtl⟩, .done)] (.ok (some payload)) := by
    unfold fetchShardData
    refine runs_ask_bind (by rfl) ?_
    refine runs_ask_bind (by rfl) ?_
    refine runs_ask_bind (by rfl) ?_
    exact runs_ask_bind (by rfl) ⟨rfl, rfl⟩
  have hget : (index.getShardData descriptor).Runs (index.shardTrace descriptor payload now)
      (.ok (some payload)) := by
    unfold getShardData
    refine runs_ask_bind (by rfl) ?_
    simp only [cachedPayload, orElse, hblob]
    exact hfetch
  unfold lookupBaseline
  rw [hdescriptor]
  simp only [hfilled, hblob, Bool.false_eq_true, or_self, if_false]
  rw [← List.append_nil (index.shardTrace descriptor payload now)]
  exact hget.bind ⟨rfl, rfl⟩

/-- A lookup when the cached baseline has expired. -/
def expiredTrace (index : CacheIndex) (hash : StoreHash) (entry : CachedBaselineEntry)
    (refresh back : Trace Operation Answer) : Trace Operation Answer :=
  (.readHot hash, .hot none) :: (.readBaseline index.cacheKey, .baseline (some entry)) ::
    (.now, .instant (0 + entry.expiresAt)) :: (refresh ++ back)

theorem runs_expiredTrace {storeHash : String} {hash : StoreHash} {entry : CachedBaselineEntry}
    {refresh back : Trace Operation Answer} {root : ShardedArchCacheIndexData}
    {found : Option IndexEntry} (hparse : StoreHash.parse storeHash = .ok hash)
    (hrefresh : index.refreshBaseline.Runs refresh (.ok root))
    (hback : (index.lookupBaseline hash root).Runs back (.ok found)) :
    (index.lookupFrom storeHash).Runs (index.expiredTrace hash entry refresh back)
      (.ok (some root, found)) := by
  have hget : index.getBaselineData.Runs ((.readBaseline index.cacheKey, .baseline (some entry)) ::
      (.now, .instant (0 + entry.expiresAt)) :: refresh) (.ok root) := by
    have hcached : (cachedBaseline (some entry)).Runs [(.now, .instant (0 + entry.expiresAt))]
        (.ok none) := by
      unfold cachedBaseline
      refine runs_ask_bind (by rfl) ?_
      rw [if_neg (by omega)]
      exact ⟨rfl, rfl⟩
    unfold getBaselineData
    refine runs_ask_bind (by rfl) ?_
    exact hcached.bind hrefresh
  unfold lookupFrom
  rw [hparse]
  refine runs_ask_bind (by rfl) ?_
  refine hget.bind ?_
  rw [← List.append_nil back]
  exact hback.bind ⟨rfl, rfl⟩

/-- The proxy when the root has been stored. -/
def stored (index : CacheIndex) (entry : CachedBaselineEntry) : Shared :=
  { connected with
    baselineCache := Function.update connected.baselineCache index.cacheKey (some entry) }

/-- The proxy when the root has expired. -/
def expired (index : CacheIndex) (entry : CachedBaselineEntry) : Shared :=
  { index.stored entry with now := 0 + entry.expiresAt }

theorem baselineCache_expired (entry : CachedBaselineEntry) :
    (index.expired entry).baselineCache index.cacheKey = some entry := by
  simp [expired, stored]

end CacheIndex

/-- One call that obtains the baseline, and one that looks up. -/
def fetchThenLookup (storeHash : String) : Bool → Call
  | false => .getBaselineData
  | true => .lookup storeHash

/-- The run before the root is stored. -/
abbrev beforeStored (index : CacheIndex) (root : ShardedArchCacheIndexData) (digest : String)
    (written : Trace Operation Answer) : List (Option Bool × (Operation × Answer)) :=
  (index.fetchTrace root digest written).map fun event => (some false, event)

/-- The run after the root is stored: it expires, and is looked up. -/
abbrev afterStored (entry : CachedBaselineEntry) (lookup : Trace Operation Answer) :
    List (Option Bool × (Operation × Answer)) :=
  [(none, (.passTime entry.expiresAt, .done))] ++ lookup.map fun event => (some true, event)

theorem eventsOf_afterStored (entry : CachedBaselineEntry) (lookup : Trace Operation Answer) :
    eventsOf true (afterStored entry lookup) = lookup := by
  rw [eventsOf_append, eventsOf_map]
  rfl

/-- A root that was fetched expires before it is looked up. -/
theorem exists_serves_expired {root : ShardedArchCacheIndexData} {entry : CachedBaselineEntry}
    {digest storeHash : String} {lookup : Trace Operation Answer}
    {found : Option ShardedArchCacheIndexData × Option IndexEntry} {last : Shared}
    (hentry : entry = ⟨root, 0 + index.config.baselineTtl⟩)
    (hfetched : CanAnswer index (.ok (some (root, digest))))
    (hlookup : (index.lookupFrom storeHash).Runs lookup (.ok found))
    (hlast : Follows (Step index) (index.expired entry) lookup last) :
    ∃ written : Trace Operation Answer, Serves index (fetchThenLookup storeHash) (.start 0)
      (beforeStored index root digest written ++
        [(some false, (.upsertBaseline index.cacheKey entry, .done))] ++
          afterStored entry lookup) last := by
  obtain ⟨written, hwritten, hruns⟩ := CacheIndex.exists_runs_fetchTrace index root digest
  rw [← hentry] at hruns
  have hfirst : Follows (Step index) (.start 0) (index.fetchTrace root digest written ++
      [(.upsertBaseline index.cacheKey entry, .done)]) (index.stored entry) :=
    Program.follows_append.mpr
      ⟨_, CacheIndex.follows_fetchTrace hwritten hfetched, _, .apply rfl, rfl⟩
  have hdiscard : ((fetchThenLookup storeHash true).handler index).Runs lookup (.ok ()) :=
    runs_discard hlookup
  have htasks : ∀ task, ∃ trace result,
      ((fetchThenLookup storeHash task).handler index).Runs trace result := by
    intro task
    cases task with
    | false => exact ⟨_, _, runs_discard hruns⟩
    | true => exact ⟨_, _, hdiscard⟩
  have hfetch : Serves index (fetchThenLookup storeHash) (.start 0)
      ([] ++ (index.fetchTrace root digest written ++
        [(Operation.upsertBaseline index.cacheKey entry, Answer.done)]).map
          fun event => (some false, event))
      (index.stored entry) :=
    (Executes.nil htasks).complete rfl (runs_discard hruns) hfirst
  have hpass : Step index (index.stored entry) (.passTime entry.expiresAt, .done)
      (index.expired entry) := .apply rfl
  refine ⟨written, ?_⟩
  have hboth := (hfetch.outer (by trivial) hpass).complete ?_ hdiscard hlast
  · rw [List.nil_append, List.map_append, List.append_assoc (_ ++ _)] at hboth
    exact hboth
  · rw [eventsOf_append, List.nil_append, eventsOf_map_of_ne (by decide)]
    rfl

/-! ## Roots that are kept -/

section

variable {τ : Type}

/-- The root itself, or one that the registry answered with in these events. -/
def IsCurrent (r : ShardedArchCacheIndexData) (events : List (Option τ × (Operation × Answer)))
    (root : ShardedArchCacheIndexData) : Prop :=
  root = r ∨ ∃ tag digest, (tag, (.getShardedRoot, .root (.ok (some (root, digest))))) ∈ events

/-- An answer with a root that counts as current. -/
def TellsOnly (index : CacheIndex) (C : ShardedArchCacheIndexData → Prop) :
    Operation × Answer → Prop
  | (.getShardedRoot, .root (.ok (some (root, _)))) => C root
  | (.readBackup, .backup bytes) => ∃ root, bytes.bind index.readBackup = some root ∧ C root
  | (.readBaseline key, .baseline (some entry)) => key = index.cacheKey → C entry.baseline
  | _ => True

variable {C : ShardedArchCacheIndexData → Prop}

/-- A refresh that is told only of current roots arrives at one. -/
theorem root_of_tellsOnly {refresh : Refresh} (h : refresh.IsTold past)
    (hpast : ∀ event ∈ past, TellsOnly index C event) : C (refresh.root index) := by
  obtain ⟨front, back, rfl, hbackup⟩ := h
  cases hfetch : fetchedRoot refresh.answer with
  | some root =>
      have hfetched := hpast (.getShardedRoot, .root refresh.answer) (by simp)
      obtain ⟨digest, hanswer⟩ := CacheIndex.fetchedRoot_eq_some.mp hfetch
      rw [hanswer] at hfetched
      rw [Refresh.root, hfetch]
      exact hfetched
  | none =>
      have hmem := hbackup hfetch
      obtain ⟨root, hread, hroot⟩ := hpast (.readBackup, .backup refresh.backup) (by simp [hmem])
      rw [Refresh.root, hfetch, Option.none_or, hread]
      exact hroot

theorem IsObtained.of_tellsOnly {root : ShardedArchCacheIndexData}
    (h : CacheIndex.IsObtained index past root) (hpast : ∀ event ∈ past, TellsOnly index C event) :
    C root := by
  rcases h with ⟨entry, hread, rfl⟩ | ⟨refresh, htold, rfl⟩
  · exact hpast _ hread rfl
  · exact root_of_tellsOnly htold hpast

variable [DecidableEq τ] {calls : τ → Call} {now : Nat}
  {first later : List (Option τ × (Operation × Answer))} {last : Shared} {fetcher : τ}
  {r : ShardedArchCacheIndexData} {expires : Nat}

theorem current_update {cache : String → Option CachedBaselineEntry} {key : String}
    {stored : Option CachedBaselineEntry}
    (hcache : ∀ entry, cache index.cacheKey = some entry → C entry.baseline)
    (hstored : ∀ entry, stored = some entry → C entry.baseline) :
    ∀ entry, Function.update cache key stored index.cacheKey = some entry → C entry.baseline := by
  intro entry hentry
  by_cases hkey : index.cacheKey = key
  · rw [hkey, Function.update_self] at hentry
    exact hstored entry hentry
  · rw [Function.update_of_ne hkey] at hentry
    exact hcache entry hentry

/-- The cached baseline is current after an event, when it was before and what is stored is. -/
theorem tellsOnly_step {event : Operation × Answer} {shared shared' : Shared}
    (hshared : ∀ entry, shared.baselineCache index.cacheKey = some entry → C entry.baseline)
    (hfetched : ∀ root digest,
      event = (.getShardedRoot, .root (.ok (some (root, digest)))) → C root)
    (hbackup : ∀ bytes, event = (.readBackup, .backup bytes) →
      ∃ root, bytes.bind index.readBackup = some root ∧ C root)
    (hstored : ∀ key entry, event.1 = .upsertBaseline key entry → C entry.baseline)
    (hstep : Step index shared event shared') :
    TellsOnly index C event ∧
      ∀ entry, shared'.baselineCache index.cacheKey = some entry → C entry.baseline := by
  cases hstep with
  | @apply _ operation answer happly =>
      cases operation <;> simp only [Shared.apply, Option.some.injEq, Prod.mk.injEq, reduceCtorEq]
        at happly
      all_goals obtain ⟨rfl, rfl⟩ := happly
      case readBaseline key =>
          refine ⟨?_, hshared⟩
          cases hread : shared.baselineCache key with
          | none => trivial
          | some entry =>
              rintro rfl
              exact hshared entry hread
      case upsertBaseline key entry =>
          refine ⟨trivial, current_update hshared ?_⟩
          rintro _ ⟨⟩
          exact hstored key entry rfl
      case removeBaseline key => exact ⟨trivial, current_update hshared (by simp)⟩
      case evictBaseline key => exact ⟨trivial, current_update hshared (by simp)⟩
      all_goals exact ⟨trivial, hshared⟩
  | utcNow text => exact ⟨trivial, hshared⟩
  | findShardNar hfound => exact ⟨trivial, hshared⟩
  | @getShardedRoot _ result hruns =>
      refine ⟨?_, hshared⟩
      cases result with
      | error _ => trivial
      | ok found =>
          cases found with
          | none => trivial
          | some fetched => exact hfetched fetched.1 fetched.2 rfl
  | getShardData hruns => exact ⟨trivial, hshared⟩
  | readBackup bytes => exact ⟨hbackup bytes rfl, hshared⟩

/-- From the time at which a refresh has stored a root `r`, the cached baseline and the roots that
lookups answer from are `r` or newer ones from the registry, in every run in which no refresh that
began earlier is still to be stored and every reading of the backup file yields such a root. -/
theorem baseline_kept
    (h : Serves index calls (.start now)
      (first ++ [(some fetcher, (.upsertBaseline index.cacheKey ⟨r, expires⟩, .done))] ++
        later) last)
    (hearlier : ∀ task reply, (.getShardedRoot, reply) ∈ eventsOf task first →
      ∀ key entry answer, (some task, (.upsertBaseline key entry, answer)) ∉ later)
    (hbackup : ∀ tag bytes, (tag, (.readBackup, .backup bytes)) ∈ later →
      ∃ root, BackupHolds index bytes root ∧ IsCurrent r later root) :
    (∀ entry, last.baselineCache index.cacheKey = some entry → IsCurrent r later entry.baseline) ∧
      ∀ task storeHash root entry,
        (index.lookupFrom storeHash).Runs (eventsOf task later) (.ok (some root, entry)) →
        IsCurrent r later root := by
  have hinvariant : (∀ event ∈ later, TellsOnly index (IsCurrent r later) event.2) ∧
      ∀ entry, last.baselineCache index.cacheKey = some entry →
        IsCurrent r later entry.baseline := by
    apply h.invariant_after (fun task => Call.meets_storesTold)
    · intro middle hmiddle entry hentry
      rw [List.map_append, Program.follows_append] at hmiddle
      obtain ⟨shared, _, _, hstep, rfl⟩ := hmiddle
      cases hstep with
      | apply happly =>
          cases happly
          dsimp only at hentry
          rw [Function.update_self] at hentry
          cases hentry
          exact Or.inl rfl
    · intro task recent shared event shared' hmem hrecent hjustified hshared hstep
      apply tellsOnly_step hshared ?_ ?_ ?_ hstep
      · rintro root digest rfl
        exact Or.inr ⟨_, digest, hmem⟩
      · rintro bytes rfl
        obtain ⟨root, hholds, hroot⟩ := hbackup _ bytes hmem
        exact ⟨root, readBackup_of_backupHolds hholds, hroot⟩
      · intro key entry hevent
        rw [hevent] at hjustified
        obtain ⟨-, refresh, htold, hroot⟩ := hjustified
        rw [← hroot]
        refine root_of_tellsOnly (htold.of_append ?_) hrecent
        -- a refresh that was told before `r` was stored does not store any more
        intro hasked
        have hfirst : (.getShardedRoot, .root refresh.answer) ∈ eventsOf task first := by
          rw [eventsOf_append, List.mem_append] at hasked
          refine hasked.resolve_right fun hlast => ?_
          have hmem := mem_of_mem_eventsOf hlast
          simp at hmem
        obtain ⟨operation, answer⟩ := event
        cases hevent
        exact hearlier task _ hfirst key entry answer hmem
    · intro shared event shared' houtside hshared hstep
      apply tellsOnly_step hshared ?_ ?_ ?_ hstep
      · rintro root digest rfl
        exact houtside.elim
      · rintro bytes rfl
        exact houtside.elim
      · intro key entry hevent
        rw [hevent] at houtside
        exact houtside.elim
  refine ⟨hinvariant.2, ?_⟩
  intro task storeHash root entry hruns
  have hobtained : ∀ found, some root = some found →
      index.IsObtained ([] ++ eventsOf task later) found :=
    (CacheIndex.meets_lookupFrom_root _ _ hruns).2
  apply IsObtained.of_tellsOnly (hobtained root rfl)
  intro event hevent
  exact hinvariant.1 _ (mem_of_mem_eventsOf hevent)

end

/-- The run in which a refresh fails after the root has expired, and the backup file holds it. -/
theorem baseline_kept_restored :
    ∃ (calls : Bool → Call) (first later : List (Option Bool × (Operation × Answer)))
      (last : Shared) (r root : ShardedArchCacheIndexData) (text : String) (expires : Nat)
      (entry : IndexEntry),
      Serves sampleIndex calls (.start 0)
        (first ++ [(some false, (.upsertBaseline sampleIndex.cacheKey ⟨r, expires⟩, .done))] ++
          later) last ∧
      (sampleIndex.lookupFrom text).Runs (eventsOf true later) (.ok (some root, some entry)) ∧
      (∀ entry, last.baselineCache sampleIndex.cacheKey = some entry →
        IsCurrent r later entry.baseline) ∧ IsCurrent r later root := by
  obtain ⟨r, digest, descriptor, hfetched, hgcRoots, hweight, hdescriptor, hfilled, hblob, hid,
    exchange', hdata⟩ := exists_published
  obtain ⟨entry, hentry⟩ : ∃ entry : CachedBaselineEntry,
      entry = ⟨r, 0 + sampleIndex.config.baselineTtl⟩ := ⟨_, rfl⟩
  have hparse : StoreHash.parse (sampleHash '1').val = .ok (sampleHash '1') := by decide
  obtain ⟨text, htext⟩ : ∃ text, StoreHash.parse text = .ok (sampleHash '1') := ⟨_, hparse⟩
  obtain ⟨error, exchange, hfailed⟩ : ∃ error, CanAnswer sampleIndex (.error error) :=
    ⟨_, canAnswer_unreachable sampleIndex (.timeout 0)⟩
  obtain ⟨bytes, hencode⟩ : ∃ bytes,
      IndexCodec.encodeZstd sampleIndex.crates r.toJson = .ok bytes := ⟨_, rfl⟩
  have hholds : BackupHolds sampleIndex (some bytes) r := by
    obtain ⟨_, hfetched⟩ := hfetched
    have hlaws : CodecLaws sampleIndex.crates := codecLaws_storingCrates stampCrates
    have haccepted : IndexClient.IsAccepted sampleIndex.crates sampleIndex.client
        sampleIndex.config.targetSystem r := IndexClient.isAccepted_of_getShardedRoot hfetched
    have hlength : (IndexCodec.toVec sampleIndex.crates r.toJson).length ≤ _ :=
      length_toVec_le stampCrates r.toJson
    have hlimit : sampleIndex.client.limits.maxIndexUncompressedBytes.toNat = 67108864 := rfl
    refine (backupHolds_written_iff hlaws haccepted ?_ hencode ?_).mpr ⟨rfl, rfl⟩
    · simp [hgcRoots]
    · rw [hlimit]
      exact hlength.trans (by omega)
  obtain ⟨lookup, hlookup⟩ : ∃ lookup, lookup = sampleIndex.expiredTrace (sampleHash '1') entry
      (sampleIndex.restoredTrace error bytes r (0 + entry.expiresAt))
      (sampleIndex.shardTrace descriptor publishedPayload (0 + entry.expiresAt)) := ⟨_, rfl⟩
  have hruns : (sampleIndex.lookupFrom text).Runs lookup (.ok (some r, some registeredEntry)) := by
    rw [hlookup]
    refine CacheIndex.runs_expiredTrace htext (CacheIndex.runs_restoredTrace error _ hholds) ?_
    rw [← lookup_publishedPayload]
    exact CacheIndex.runs_shardTrace hdescriptor hfilled hblob
  obtain ⟨last, hlast⟩ : ∃ last, Follows (Step sampleIndex) (sampleIndex.expired entry) lookup
      last := by
    rw [hlookup]
    exact ⟨_, _, .apply rfl, _, .apply (by rw [Shared.apply, CacheIndex.baselineCache_expired]), _,
      .apply rfl, _, .getShardedRoot _ hfailed, _, .apply rfl, _, .readBackup _ _, _, .apply rfl, _,
      .apply rfl, _, .apply rfl, _, .getShardData _ hdata, _, .apply rfl, _, .apply rfl, _,
      .apply rfl, rfl⟩
  obtain ⟨written, hserves⟩ := exists_serves_expired hentry hfetched hruns hlast
  have hevents := eventsOf_afterStored entry lookup
  have hearlier : ∀ task reply,
      (.getShardedRoot, reply) ∈ eventsOf task (beforeStored sampleIndex r digest written) →
      ∀ key stored answer,
        (some task, (.upsertBaseline key stored, answer)) ∉ afterStored entry lookup := by
    intro task reply hasked key stored answer hmem
    have htask : task = true := by
      simp at hmem
      exact hmem.2
    rw [htask, eventsOf_map_of_ne (by decide)] at hasked
    cases hasked
  have hbackup : ∀ tag text, (tag, (.readBackup, .backup text)) ∈ afterStored entry lookup →
      ∃ root, BackupHolds sampleIndex text root ∧
        IsCurrent r (afterStored entry lookup) root := by
    intro tag text hmem
    have htext : text = some bytes := by
      simp [hlookup, CacheIndex.expiredTrace, CacheIndex.restoredTrace, CacheIndex.storeTrace,
        CacheIndex.shardTrace] at hmem
      exact hmem.2
    rw [htext]
    exact ⟨r, hholds, Or.inl rfl⟩
  rw [← hevents] at hruns
  rw [hentry] at hserves hruns hearlier hbackup
  obtain ⟨hcached, hroots⟩ := baseline_kept hserves hearlier hbackup
  exact ⟨_, _, _, last, r, r, text, _, registeredEntry, hserves, hruns, hcached,
    hroots true text r _ hruns⟩

/-- A root with an entry was fetched and stored; when it has expired, the registry cannot be reached
and the backup file is not there, a lookup is answered from the empty root. -/
theorem baseline_lost :
    ∃ (calls : Bool → Call) (first later : List (Option Bool × (Operation × Answer)))
      (last : Shared) (r root : ShardedArchCacheIndexData) (digest text : String) (expires : Nat),
      Serves sampleIndex calls (.start 0)
        (first ++ [(some false, (.upsertBaseline sampleIndex.cacheKey ⟨r, expires⟩, .done))] ++
          later) last ∧
      (.getShardedRoot, .root (.ok (some (r, digest)))) ∈ eventsOf false first ∧
      (∀ tag reply, (tag, (.getShardedRoot, reply)) ∈ later →
        ∃ error, reply = .root (.error error)) ∧
      (sampleIndex.lookupFrom text).Runs (eventsOf true later) (.ok (some root, none)) ∧
      (∃ shard ∈ r.shards, shard.isEmpty = false) ∧
      (∀ shard ∈ root.shards, shard.isEmpty = true) ∧ ¬ IsCurrent r later root := by
  obtain ⟨r, digest, descriptor, hfetched, -, -, hdescriptor, hfilled, -⟩ := exists_published
  obtain ⟨entry, hentry⟩ : ∃ entry : CachedBaselineEntry,
      entry = ⟨r, 0 + sampleIndex.config.baselineTtl⟩ := ⟨_, rfl⟩
  have hparse : StoreHash.parse (sampleHash '1').val = .ok (sampleHash '1') := by decide
  obtain ⟨text, htext⟩ : ∃ text, StoreHash.parse text = .ok (sampleHash '1') := ⟨_, hparse⟩
  obtain ⟨error, exchange, hfailed⟩ : ∃ error, CanAnswer sampleIndex (.error error) :=
    ⟨_, canAnswer_unreachable sampleIndex (.timeout 0)⟩
  obtain ⟨root, hroot⟩ : ∃ root, freshRoot sampleIndex.crates.toCrates
      sampleIndex.config.targetSystem sampleIndex.config.repo sampleIndex.config.registry
      "2024-01-01T00:00:00Z" = root := ⟨_, rfl⟩
  have hempty : ∀ shard ∈ root.shards, shard.isEmpty = true := by
    intro shard hshard
    rw [← hroot, shards_freshRoot] at hshard
    exact isEmpty_of_mem_freshShards hshard
  have hbaseline : (sampleIndex.lookupBaseline (sampleHash '1') root).Runs [] (.ok none) := by
    unfold CacheIndex.lookupBaseline
    split
    · exact ⟨rfl, rfl⟩
    · rename_i found hfound
      rw [if_pos (Or.inl (hempty found (List.mem_of_getElem? hfound)))]
      exact ⟨rfl, rfl⟩
  obtain ⟨lookup, hlookup⟩ : ∃ lookup, lookup = sampleIndex.expiredTrace (sampleHash '1') entry
      (sampleIndex.emptiedTrace error "2024-01-01T00:00:00Z" root (0 + entry.expiresAt)) [] :=
    ⟨_, rfl⟩
  have hruns : (sampleIndex.lookupFrom text).Runs lookup (.ok (some root, none)) := by
    rw [hlookup]
    have hrefresh := CacheIndex.runs_emptiedTrace error _ (0 + entry.expiresAt) hroot
    exact CacheIndex.runs_expiredTrace htext hrefresh hbaseline
  obtain ⟨last, hlast⟩ : ∃ last, Follows (Step sampleIndex) (sampleIndex.expired entry) lookup
      last := by
    rw [hlookup]
    exact ⟨_, _, .apply rfl, _, .apply (by rw [Shared.apply, CacheIndex.baselineCache_expired]), _,
      .apply rfl, _, .getShardedRoot _ hfailed, _, .apply rfl, _, .readBackup _ none, _,
      .utcNow _ _, _, .apply rfl, _, .apply rfl, rfl⟩
  obtain ⟨written, hserves⟩ := exists_serves_expired hentry hfetched hruns hlast
  have honly : ∀ tag reply, (tag, (.getShardedRoot, reply)) ∈ afterStored entry lookup →
      reply = .root (.error error) := by
    intro tag reply hmem
    simp [hlookup, CacheIndex.expiredTrace, CacheIndex.emptiedTrace, CacheIndex.storeTrace] at hmem
    exact hmem.2
  rw [hentry] at hserves
  refine ⟨_, _, _, last, r, root, digest, text, _, hserves, ?_, ?_, ?_,
    ⟨descriptor, List.mem_of_getElem? hdescriptor, hfilled⟩, hempty, ?_⟩
  · rw [eventsOf_map]
    simp [CacheIndex.fetchTrace]
  · intro tag reply hmem
    rw [← hentry] at hmem
    exact ⟨_, honly tag reply hmem⟩
  · rw [eventsOf_afterStored]
    exact hruns
  · rw [← hentry]
    rintro (rfl | ⟨tag, other, hmem⟩)
    · have hshard := hempty descriptor (List.mem_of_getElem? hdescriptor)
      rw [hfilled] at hshard
      cases hshard
    · cases honly tag _ hmem

/-! ## A lookup in a published root -/

/-- A lookup in a proxy that has just started, of which the registry answers both requests. -/
theorem exists_serves_first {root : ShardedArchCacheIndexData} {digest text : String}
    {hash : StoreHash} {descriptor : ShardDescriptor} {payload : ShardDataPayload}
    (hparse : StoreHash.parse text = .ok hash)
    (hfetched : CanAnswer index (.ok (some (root, digest))))
    (hdescriptor : root.findShardById hash.shardId = some descriptor)
    (hfilled : descriptor.isEmpty = false) (hblob : Str.isEmpty descriptor.blobDigest = false)
    (hdata : ∃ trace, (IndexClient.getShardData index.crates index.client descriptor
      index.config.targetSystem).Runs trace (.ok payload)) :
    ∃ events last, Serves index (fun _ : Unit => .lookup text) (.start 0) events last ∧
      (index.lookupFrom text).Runs (eventsOf () events)
        (.ok (some root, payload.entries.lookup hash)) := by
  obtain ⟨exchange, hdata⟩ := hdata
  obtain ⟨written, hwritten, hget⟩ := CacheIndex.exists_runs_fetchTrace index root digest
  have hback : (index.lookupBaseline hash root).Runs (index.shardTrace descriptor payload 0)
      (.ok (payload.entries.lookup hash)) :=
    CacheIndex.runs_shardTrace hdescriptor hfilled hblob
  have hruns : (index.lookupFrom text).Runs ((.readHot hash, .hot none) ::
      (index.fetchTrace root digest written ++ [(.upsertBaseline index.cacheKey
        ⟨root, 0 + index.config.baselineTtl⟩, .done)] ++ index.shardTrace descriptor payload 0))
      (.ok (some root, payload.entries.lookup hash)) := by
    unfold CacheIndex.lookupFrom
    rw [hparse]
    refine runs_ask_bind (by rfl) ?_
    refine hget.bind ?_
    rw [← List.append_nil (index.shardTrace descriptor payload 0)]
    exact hback.bind ⟨rfl, rfl⟩
  have hfetch := CacheIndex.follows_fetchTrace hwritten hfetched
  obtain ⟨last, hlast⟩ : ∃ last, Follows (Step index)
      (CacheIndex.stored index ⟨root, 0 + index.config.baselineTtl⟩)
      (index.shardTrace descriptor payload 0) last := by
    unfold CacheIndex.shardTrace
    exact ⟨_, _, .apply rfl, _, .getShardData _ hdata, _, .apply rfl, _, .apply rfl, _, .apply rfl, rfl⟩
  have hstored : Follows (Step index) (.start 0) (index.fetchTrace root digest written ++
      [(.upsertBaseline index.cacheKey ⟨root, 0 + index.config.baselineTtl⟩, .done)])
      (index.stored ⟨root, 0 + index.config.baselineTtl⟩) :=
    Program.follows_append.mpr ⟨_, hfetch, _, .apply rfl, rfl⟩
  obtain ⟨trace, hruns, hfollows⟩ : ∃ trace, (index.lookupFrom text).Runs trace
      (.ok (some root, payload.entries.lookup hash)) ∧ Follows (Step index) (.start 0) trace last :=
    ⟨_, hruns, _, .apply rfl, Program.follows_append.mpr ⟨_, hstored, hlast⟩⟩
  have hdiscard := runs_discard hruns
  have hnone : Serves index (fun _ : Unit => .lookup text) (.start 0) [] (.start 0) :=
    Executes.nil fun _ => ⟨_, _, hdiscard⟩
  have hserves : Serves index (fun _ : Unit => .lookup text) (.start 0)
      ([] ++ trace.map fun event => (some (), event)) last :=
    hnone.complete rfl hdiscard hfollows
  refine ⟨_, last, hserves, ?_⟩
  rw [List.nil_append, eventsOf_map]
  exact hruns

/-- The theorem on a lookup that the published root answers. -/
theorem lookup_tier1_published :
    ∃ events last text root entry,
      Serves sampleIndex (fun _ : Unit => .lookup text) (.start 0) events last ∧
      (sampleIndex.lookupFrom text).Runs (eventsOf () events) (.ok (some root, some entry)) ∧
      ∃ hash descriptor payload, StoreHash.parse text = .ok hash ∧
        root.findShardById hash.shardId = some descriptor ∧
        IsBlobContent sampleIndex.crates descriptor.blobDigest payload ∧
        payload.entries.lookup hash = some entry := by
  obtain ⟨r, digest, descriptor, hfetched, -, -, hdescriptor, hfilled, hblob, -, hdata⟩ :=
    exists_published
  have hparse : StoreHash.parse (sampleHash '1').val = .ok (sampleHash '1') := by decide
  obtain ⟨text, htext⟩ : ∃ text, StoreHash.parse text = .ok (sampleHash '1') := ⟨_, hparse⟩
  have hanswer : CanAnswer sampleIndex (.ok (some (r, digest))) := hfetched
  obtain ⟨events, last, hserves, hruns⟩ :=
    exists_serves_first htext hanswer hdescriptor hfilled hblob hdata
  rw [lookup_publishedPayload] at hruns
  exact ⟨events, last, text, r, registeredEntry, hserves, hruns,
    lookup_tier1_from_own_root hserves hruns⟩

end NixCache.Proxy
