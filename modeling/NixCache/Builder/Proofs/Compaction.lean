import NixCache.Builder.Purge
import NixCache.Core.Proofs.FreshRoot
import NixCache.Core.Proofs.Sharding
import NixCache.Oci.Proofs.Agreement
import NixCache.Oci.Proofs.Reading
import NixCache.Oci.Proofs.Serving
import NixCache.Oci.Proofs.Writing
/-!
# The loop over the shards

Promotion and purge both go through the 1024 shards of a root and replace some descriptors, each at
its own place.  What became of a root is then told shard by shard.
-/

namespace NixCache.Builder

open NixCache.Lib NixCache.Lib.Result NixCache.Core NixCache.Oci NixCache.Oci.IndexClient
open NixCache.Lib.Program (Trace)

variable {X : OciCrates} {client : OciClient} {system : SystemArch} {trace : Trace Request Reply}

@[simp] theorem runs_liftOci_ok {α : Type} {exchange : Exchange α} {value : α} :
    (liftOci exchange).Runs trace (.ok value) ↔ exchange.Runs trace (.ok value) :=
  Action.runs_mapErr_ok

@[simp] theorem liftResult_eq_ok {α : Type} {result : Except CoreError α} {value : α} :
    mapErr BuilderError.core result = .ok value ↔ result = .ok value :=
  mapErr_eq_ok

/-! ## Pushed payloads -/

/-- `descriptor` describes `payload`, which was pushed. -/
structure IsPushed (X : OciCrates) (trace : Trace Request Reply) (descriptor : ShardDescriptor)
    (payload : ShardDataPayload) : Prop where
  valid : payload.IsValid X.toCrates
  count : descriptor.entryCount = UInt64.ofNat payload.entries.size
  merkleHash : payload.computeMerkleHash X.toCrates = .ok descriptor.merkleHash
  blob : ∃ blob, IndexCodec.encodeZstd X payload.toJson = .ok blob ∧
    descriptor.blobDigest = digestOf X.toCrates blob ∧
    descriptor.compressedSize = UInt64.ofNat blob.length ∧
    descriptor.uncompressedSize = UInt64.ofNat (IndexCodec.toVec X payload.toJson).length ∧
    ∃ event ∈ trace, Stored descriptor.blobDigest blob event

theorem IsPushed.mono {t : Trace Request Reply} {descriptor : ShardDescriptor}
    {payload : ShardDataPayload} (h : IsPushed X t descriptor payload) (hsub : t.Sublist trace) :
    IsPushed X trace descriptor payload := by
  obtain ⟨hvalid, hcount, hmerkle, blob, hencode, hdigest, hcompressed, huncompressed, event, hmem,
    hstored⟩ := h
  exact ⟨hvalid, hcount, hmerkle, blob, hencode, hdigest, hcompressed, huncompressed, event,
    hsub.subset hmem, hstored⟩

/-- A pushed payload with entries has a descriptor that a root may hold. -/
theorem IsPushed.validateStructure {descriptor : ShardDescriptor} {payload : ShardDataPayload}
    (h : IsPushed X trace descriptor payload) (hid : descriptor.shardId = payload.shardId)
    (hpre : descriptor.shardPrefix = shardIdToPrefix descriptor.shardId)
    (hsizes : descriptor.compressedSize ≠ 0 ∧ descriptor.uncompressedSize ≠ 0)
    (hcount : descriptor.entryCount ≠ 0) :
    descriptor.validateStructure X.toCrates = .ok () := by
  have hempty : descriptor.isEmpty = false := by simpa [ShardDescriptor.isEmpty] using hcount
  obtain ⟨_, leaves, _, hmerkle⟩ := computeShardMerkleHash_eq_ok.mp h.merkleHash
  obtain ⟨blob, _, hdigest, _⟩ := h.blob
  simp only [ShardDescriptor.validateStructure, hempty, Bool.false_eq_true, if_false, bind_eq_ok,
    mapErr_eq_ok, validateSha256_eq_ok, ensure_eq_ok]
  exact ⟨(), hid ▸ h.valid.id, (), hpre, (), ⟨_, hdigest⟩, (), hsizes, (), hcount, _, hmerkle⟩

theorem runs_pushShardData_ok {payload : ShardDataPayload} {blob : String × UInt64 × UInt64}
    (h : (pushShardData X client payload).Runs trace (.ok blob)) :
    payload.IsValid X.toCrates ∧ ∃ bytes, IndexCodec.encodeZstd X payload.toJson = .ok bytes ∧
      blob.1 = digestOf X.toCrates bytes ∧ blob.2.1 = UInt64.ofNat bytes.length ∧
      blob.2.2 = UInt64.ofNat (IndexCodec.toVec X payload.toJson).length ∧
      ∃ event ∈ trace, Stored blob.1 bytes event := by
  simp only [pushShardData, Action.runs_ofExcept_bind_ok, liftCore_eq_ok] at h
  obtain ⟨_, hvalid, h⟩ := h
  obtain ⟨before, after, ⟨digest, compressed, uncompressed⟩, rfl, hpush, rfl, hblob⟩ :=
    Action.runs_bind_ok.mp h
  obtain rfl := Except.ok.inj hblob
  obtain ⟨bytes, hencode, rfl, hcompressed, huncompressed, event, hmem, hstored⟩ :=
    BlobClient.runs_pushZstd_ok hpush
  exact ⟨ShardDataPayload.validateStructure_eq_ok.mp hvalid, bytes, hencode, rfl, hcompressed,
    huncompressed, event, List.mem_append_left _ hmem, hstored⟩

/-- A payload whose blob is in the registry can be pushed. -/
theorem runs_pushShardData {payload : ShardDataPayload} {bytes : Bytes}
    (hvalid : payload.IsValid X.toCrates)
    (hencode : IndexCodec.encodeZstd X payload.toJson = .ok bytes) :
    ∃ trace, (pushShardData X client payload).Runs trace (.ok (digestOf X.toCrates bytes,
      UInt64.ofNat bytes.length, UInt64.ofNat (IndexCodec.toVec X payload.toJson).length)) := by
  let registry : Registry := Registry.empty.putBlob (digestOf X.toCrates bytes) bytes
  have hpush : registry.read X (pushShardData X client payload) = .ok (digestOf X.toCrates bytes,
      UInt64.ofNat bytes.length, UInt64.ofNat (IndexCodec.toVec X payload.toJson).length) := by
    have hhead : registry.read X (requestHeadWithAuthRetry X (digestOf X.toCrates bytes)
        "head blob") = .ok ⟨200, [], []⟩ := by
      rw [requestHeadWithAuthRetry, transportSend, Registry.read_requestWithAuthRetry]
      simp [registry, Registry.view, Registry.answer, Registry.putBlob, Registry.reply, readReply,
        Result.mapErr]
      rfl
    have hpresent : registry.read X (BlobClient.head X (digestOf X.toCrates bytes)) = .ok true := by
      unfold BlobClient.head
      rw [Registry.read_bind, hhead]
      rfl
    have hbytes : registry.read X (BlobClient.pushBytes X client bytes) =
        .ok (ContentDigest.fromBytes X.toCrates bytes) := by
      unfold BlobClient.pushBytes
      rw [digestOf] at hpresent
      rw [Registry.read_bind, hpresent]
      rfl
    have hzstd : registry.read X (BlobClient.pushZstd X client payload.toJson) =
        .ok (ContentDigest.fromBytes X.toCrates bytes, UInt64.ofNat bytes.length,
          UInt64.ofNat (IndexCodec.toVec X payload.toJson).length) := by
      unfold BlobClient.pushZstd
      dsimp only
      rw [Action.ofExcept_bind_eq hencode, Registry.read_bind, hbytes]
      rfl
    have hstructure : payload.validateStructure X.toCrates = .ok () :=
      ShardDataPayload.validateStructure_eq_ok.mpr hvalid
    unfold pushShardData
    rw [Action.ofExcept_bind_eq (liftCore_eq_ok.mpr hstructure), Registry.read_bind, hzstd]
    rfl
  rw [← hpush]
  exact Registry.runs_read _

theorem runs_replaceShard_ok {state state' : Compaction} {id : Nat} {descriptor : ShardDescriptor}
    {payload : ShardDataPayload}
    (h : (replaceShard X client state id descriptor payload).Runs trace (.ok state')) :
    ∃ descriptor', state' = ⟨{ state.root with shards := state.root.shards.set id descriptor' },
        state.pushed ++ [payload]⟩ ∧
      descriptor'.shardId = descriptor.shardId ∧ descriptor'.shardPrefix = descriptor.shardPrefix ∧
      IsPushed X trace descriptor' payload := by
  unfold replaceShard at h
  obtain ⟨before, after, blob, rfl, hpush, h⟩ := Action.runs_bind_ok.mp h
  simp only [liftResult, Action.runs_ofExcept_bind_ok, liftResult_eq_ok, Action.runs_pure] at h
  obtain ⟨merkleHash, hmerkle, rfl, hstate⟩ := h
  obtain rfl := Except.ok.inj hstate
  obtain ⟨hvalid, bytes, hencode, hdigest, hcompressed, huncompressed, event, hmem, hstored⟩ :=
    runs_pushShardData_ok (runs_liftOci_ok.mp hpush)
  exact ⟨_, rfl, rfl, rfl, hvalid, rfl, hmerkle, bytes, hencode, hdigest, hcompressed,
    huncompressed, event, List.mem_append_left _ hmem, hstored⟩

/-! ## Slot by slot -/

/-- An iteration that changes no more than the descriptor at its own place, from `old` to `new`, and
pushed `payloads` for it. -/
structure ChangesSlot (state state' : Compaction) (id : Nat) (new : ShardDescriptor)
    (payloads : List ShardDataPayload) : Prop where
  root : state'.root = { state.root with shards := state.root.shards.set id new }
  pushed : state'.pushed = state.pushed ++ payloads

/-- The loop changes every slot as its iteration does, and nothing else of the root. -/
theorem runs_slots {n : Nat} {step : Compaction → Nat → Step Compaction} {start final : Compaction}
    {R : Nat → ShardDescriptor → ShardDescriptor → List ShardDataPayload → Prop}
    {ids : List Nat} (h : (Action.foldM step start ids).Runs trace (.ok final))
    (hids : List.range n = ids) (hlength : start.root.shards.length = n)
    (hstep : ∀ id < n, ∀ old state state' t, state.root.shards[id]? = some old →
      t.Sublist trace → (step state id).Runs t (.ok state') →
      ∃ new payloads, ChangesSlot state state' id new payloads ∧ R id old new payloads) :
    (∃ shards, final.root = { start.root with shards := shards }) ∧
      final.root.shards.length = n ∧
      ∀ id old, start.root.shards[id]? = some old →
        ∃ new payloads, final.root.shards[id]? = some new ∧ R id old new payloads ∧
          ∀ payload ∈ payloads, payload ∈ final.pushed := by
  -- the slots below `done.length` are changed, the others are as they were
  let I : List Nat → Compaction → Prop := fun done state =>
    (∃ shards, state.root = { start.root with shards := shards }) ∧
      state.root.shards.length = n ∧
      (∀ id, done.length ≤ id → state.root.shards[id]? = start.root.shards[id]?) ∧
      ∀ id old, id < done.length → start.root.shards[id]? = some old →
        ∃ new payloads, state.root.shards[id]? = some new ∧ R id old new payloads ∧
          ∀ payload ∈ payloads, payload ∈ state.pushed
  subst hids
  have hI : I (List.range n) final := by
    refine Action.runs_foldM_ok h ⟨⟨_, rfl⟩, hlength, fun _ _ => rfl, by simp⟩ ?_
    rintro done id state state' t hpre ⟨⟨shards, hroot⟩, hlen, hlater, hdone⟩ hsub hruns
    have hid : id = done.length := by
      have hget := hpre.getElem (i := done.length) (by simp)
      simpa using hget
    have hlt : id < n := by
      have hle := hpre.length_le
      simp only [List.length_append, List.length_singleton, List.length_range] at hle
      omega
    have hold : state.root.shards[id]? = some (state.root.shards[id]) :=
      List.getElem?_eq_getElem (by omega)
    obtain ⟨new, payloads, ⟨hroot', hpushed⟩, hR⟩ := hstep id hlt _ _ _ t hold hsub hruns
    have hset : ∀ other, state'.root.shards[other]? =
        if id = other then some new else state.root.shards[other]? := by
      intro other
      rw [hroot', List.getElem?_set]
      by_cases hother : id = other
      · subst hother
        simp [hlen, hlt]
      · simp [hother]
    refine ⟨⟨_, by rw [hroot', hroot]⟩, by rw [hroot', List.length_set, hlen], ?_, ?_⟩
    · intro other hother
      rw [List.length_append, List.length_singleton] at hother
      rw [hset, if_neg (by omega), hlater other (by omega)]
    · intro other old hother hstart
      rw [List.length_append, List.length_singleton] at hother
      by_cases heq : id = other
      · subst heq
        rw [← hlater id (by omega), hold] at hstart
        obtain rfl := Option.some.inj hstart
        exact ⟨new, payloads, by rw [hset, if_pos rfl], hR, fun p hp => by
          rw [hpushed]
          exact List.mem_append_right _ hp⟩
      · obtain ⟨new', payloads', hnew', hR', hmem'⟩ := hdone other old (by omega) hstart
        exact ⟨new', payloads', by rw [hset, if_neg heq, hnew'], hR', fun p hp => by
          rw [hpushed]
          exact List.mem_append_left _ (hmem' p hp)⟩
  obtain ⟨hroot, hlen, _, hall⟩ := hI
  refine ⟨hroot, hlen, fun id old hold => hall id old ?_ hold⟩
  have hlt := (List.getElem?_eq_some_iff.mp hold).1
  rw [List.length_range]
  omega

/-- A loop with something to do for one id only. -/
theorem runs_foldM_at {step : Compaction → Nat → Step Compaction} {start final : Compaction}
    {n k : Nat} {ids : List Nat} (hids : List.range n = ids) (hk : k < n)
    (hstep : (step start k).Runs trace (.ok final))
    (hother : ∀ state id, id < n → id ≠ k → step state id = pure state) :
    (Action.foldM step start ids).Runs trace (.ok final) := by
  have hsplit : List.range n = List.range k ++ (k :: (List.range (n - k - 1)).map (k + 1 + ·)) := by
    rw [show k :: (List.range (n - k - 1)).map (k + 1 + ·) =
        (List.range (n - k)).map (k + ·) by
      obtain ⟨m, hm⟩ : ∃ m, n - k = m + 1 := ⟨n - k - 1, by omega⟩
      rw [hm, List.range_succ_eq_map, List.map_cons, List.map_map]
      congr 1
      apply List.map_congr_left
      intro id _
      simp only [Function.comp_apply]
      omega, ← List.range_add]
    congr 1
    omega
  have hfirst : (Action.foldM step start (List.range k)).Runs [] (.ok start) := by
    apply Action.Runs.foldM_pure
    intro id hmem
    rw [List.mem_range] at hmem
    exact hother start id (by omega) (by omega)
  have hlast : (Action.foldM step final ((List.range (n - k - 1)).map (k + 1 + ·))).Runs []
      (.ok final) := by
    apply Action.Runs.foldM_pure
    intro id hmem
    obtain ⟨offset, hoffset, rfl⟩ := List.mem_map.mp hmem
    rw [List.mem_range] at hoffset
    exact hother final _ (by omega) (by omega)
  have hrest : (Action.foldM step start
      (k :: (List.range (n - k - 1)).map (k + 1 + ·))).Runs (trace ++ []) (.ok final) :=
    Action.Runs.bind hstep hlast
  have hrun := Action.Runs.foldM_append hfirst hrest
  rw [List.nil_append, List.append_nil] at hrun
  rwa [← hids, hsplit]

/-! ## The shards of an accepted root -/

theorem shardId_of_getElem? {X : Crates} {shards : List ShardDescriptor} {id : Nat}
    {descriptor : ShardDescriptor} (h : IsIndexed X shards)
    (hget : shards[id]? = some descriptor) : descriptor.shardId.toNat = id ∧ id < numShards := by
  obtain ⟨hlt, rfl⟩ := List.getElem?_eq_some_iff.mp hget
  have hid := List.getElem_of_eq h.ids (i := id) (by simpa using hlt)
  exact ⟨by simpa using hid, h.length ▸ hlt⟩

/-- The payloads of the empty shards. -/
def emptyPayload (id : Nat) : ShardDataPayload :=
  ⟨schemaVersionV8, UInt16.ofNat id, shardIdToPrefix (UInt16.ofNat id), ∅⟩

theorem isShardOf_emptyPayload {id : Nat} (hid : id < numShards) :
    IsShardOf X client system (emptyDescriptor X.toCrates (UInt16.ofNat id)) (emptyPayload id) := by
  obtain ⟨read, hread⟩ := runs_emptyShard (X := X) (ofNat_lt (List.mem_range.mpr hid)) client system
  exact isShardOf_of_getShardData hread

/-- An empty shard is not fetched. -/
theorem runs_getShardData_empty {id : Nat} {payload : ShardDataPayload} (hid : id < numShards)
    (h : (getShardData X client (emptyDescriptor X.toCrates (UInt16.ofNat id)) system).Runs trace
      (.ok payload)) : payload = emptyPayload id := by
  have hlt : UInt16.ofNat id < 1024 := ofNat_lt (List.mem_range.mpr hid)
  simp only [getShardData, Action.runs_ofExcept_bind_ok] at h
  obtain ⟨_, _, h⟩ := h
  have hzero : (emptyDescriptor X.toCrates (UInt16.ofNat id)).entryCount = 0 := rfl
  rw [if_pos hzero, emptyShardData_eq_ok hlt] at h
  exact Except.ok.inj h.2

/-- `payloads` are what the reader accepts for the descriptors, by their places. -/
def AreShardsOf (X : OciCrates) (client : OciClient) (system : SystemArch)
    (shards : List ShardDescriptor) (payloads : Nat → ShardDataPayload) : Prop :=
  ∀ id descriptor, shards[id]? = some descriptor →
    IsShardOf X client system descriptor (payloads id)

/-- The entries of payloads, as the parts of an index. -/
def partsOf (payloads : Nat → ShardDataPayload) (id : Nat) : HashMap StoreHash IndexEntry :=
  (payloads id).entries

theorem shardOf_of_isValid {X : Crates} {payload : ShardDataPayload} {hash : StoreHash}
    {entry : IndexEntry} (h : payload.IsValid X) (hlookup : payload.entries.lookup hash = some entry) :
    shardOf hash = payload.shardId.toNat := by
  have hid := (h.entries hash entry hlookup).2.1
  rw [← hid]
  rfl

theorem AreShardsOf.placed {shards : List ShardDescriptor}
    {payloads : Nat → ShardDataPayload} (h : AreShardsOf X client system shards payloads)
    (hshards : IsIndexed X.toCrates shards) :
    HashMap.Placed shardOf numShards (partsOf payloads) := by
  intro id hid hash entry hlookup
  obtain ⟨descriptor, hget⟩ : ∃ descriptor, shards[id]? = some descriptor :=
    ⟨_, List.getElem?_eq_getElem (by rw [hshards.length]; exact hid)⟩
  have hshard := h id descriptor hget
  rw [shardOf_of_isValid hshard.valid hlookup, hshard.isFor.id, (shardId_of_getElem? hshards hget).1]

end NixCache.Builder
