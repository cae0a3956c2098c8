import NixCache.Builder.Proofs.Compaction
import NixCache.Core.Proofs.SortedHashes
import NixCache.Oci.Proofs.Published
/-!
# Promotion is exact

The compaction of one architecture updates the index as one map: the entries of the receipts replace
those of the baseline key by key, although only the shards that receive entries are read and pushed.
-/

namespace NixCache.Builder

open NixCache.Lib NixCache.Lib.Result NixCache.Core NixCache.Oci NixCache.Oci.IndexClient
open NixCache.Lib.Program (Trace)

variable {X : OciCrates} {client : OciClient} {args : PromoteArgs} {system : SystemArch}
  {receipts : List BuildReceipt} {trace : Trace Request Reply}

/-! ## Receipts -/

/-- The entry for a hash in the last receipt of the system that has one. -/
def latestEntry (receipts : List BuildReceipt) (system : SystemArch) (hash : StoreHash) :
    Option IndexEntry :=
  receipts.reverse.findSome? fun receipt =>
    if receipt.system = system then receipt.newEntries.lookup hash else none

theorem collectIncoming_concat (receipts : List BuildReceipt) (receipt : BuildReceipt) :
    collectIncoming (receipts ++ [receipt]) = (collectIncoming receipts).add receipt := by
  rw [collectIncoming, List.foldl_append]
  rfl

theorem lookup_entriesFor (receipts : List BuildReceipt) (system : SystemArch) (hash : StoreHash) :
    ((collectIncoming receipts).entriesFor system).lookup hash = latestEntry receipts system hash := by
  induction receipts using List.reverseRecOn with
  | nil => rfl
  | append_singleton receipts receipt ih =>
      rw [collectIncoming_concat, latestEntry, List.reverse_concat, List.findSome?_cons]
      rw [latestEntry] at ih
      unfold Incoming.entriesFor Incoming.add at *
      dsimp only at *
      rw [HashMap.lookup_insert_eq]
      by_cases hsystem : receipt.system = system
      · subst hsystem
        rw [if_pos rfl, if_pos rfl, Option.getD_some, HashMap.lookup_extend, ih]
        cases receipt.newEntries.lookup hash <;> rfl
      · rw [if_neg (Ne.symm hsystem), if_neg hsystem, ih]

theorem mem_rootsFor {hash : StoreHash} :
    hash ∈ (collectIncoming receipts).rootsFor system ↔
      ∃ receipt ∈ receipts, receipt.system = system ∧ hash ∈ receipt.activeGcRoots := by
  induction receipts using List.reverseRecOn with
  | nil => simp [collectIncoming, Incoming.rootsFor]
  | append_singleton receipts receipt ih =>
      rw [collectIncoming_concat]
      unfold Incoming.rootsFor Incoming.add at *
      dsimp only at *
      rw [HashMap.lookup_insert_eq]
      by_cases hsystem : receipt.system = system
      · subst hsystem
        rw [if_pos rfl, Option.getD_some, List.mem_append, ih]
        simp [or_and_right, exists_or]
      · rw [if_neg (Ne.symm hsystem), ih]
        simp [or_and_right, exists_or, hsystem]

/-! ## GC roots -/

theorem dedupConsecutive_eq {α : Type} [DecidableEq α] (items : List α) :
    dedupConsecutive items = items.destutter (· ≠ ·) := by
  fun_induction dedupConsecutive items with
  | case1 => rfl
  | case2 => rfl
  | case3 y rest ih => rw [ih, List.destutter_cons_cons, if_neg (by simp), List.destutter_cons']
  | case4 y z rest hne ih => rw [ih, List.destutter_cons_cons, if_pos hne, List.destutter_cons']

theorem pairwise_mergeGcRoots (existing incoming : List StoreHash) :
    (mergeGcRoots existing incoming).Pairwise (· < ·) := by
  rw [mergeGcRoots, dedupConsecutive_eq]
  exact pairwise_destutter_insertionSort _

theorem mem_mergeGcRoots {existing incoming : List StoreHash} {hash : StoreHash} :
    hash ∈ mergeGcRoots existing incoming ↔ hash ∈ existing ∨ hash ∈ incoming := by
  rw [mergeGcRoots, dedupConsecutive_eq, mem_destutter_insertionSort, List.mem_append]

/-! ## The root before the loop -/

/-- The descriptors that a compaction starts from. -/
def baselineShards (X : OciCrates) (baseline : Option ShardedArchCacheIndexData) :
    List ShardDescriptor :=
  (baseline.map ShardedArchCacheIndexData.shards).getD (freshShards X.toCrates)

/-- A baseline that the reader accepted, or none. -/
def AcceptsBaseline (X : OciCrates) (client : OciClient) (system : SystemArch)
    (baseline : Option ShardedArchCacheIndexData) : Prop :=
  ∀ root ∈ baseline, IsAccepted X client system root

theorem baselineShards_none : baselineShards X none = freshShards X.toCrates := by
  rw [baselineShards, Option.map_none, Option.getD_none]

theorem AcceptsBaseline.isIndexed {baseline : Option ShardedArchCacheIndexData}
    (h : AcceptsBaseline X client system baseline) :
    IsIndexed X.toCrates (baselineShards X baseline) := by
  cases baseline with
  | none =>
      rw [baselineShards_none]
      exact isIndexed_freshShards X.toCrates
  | some root => exact (h root rfl).valid.shards

theorem startRoot_some {repo registry now publicKey : String} {existing root : ShardedArchCacheIndexData}
    (hlength : existing.shards.length = numShards)
    (h : startRoot X repo registry now publicKey system (some existing) = .ok root) :
    root.shards = existing.shards ∧ root.gcRoots = existing.gcRoots := by
  simp only [startRoot, pure_bind, hlength, ne_eq, not_true_eq_false, if_false] at h
  rw [← Except.ok.inj h]
  exact ⟨rfl, rfl⟩

theorem startRoot_none {repo registry now publicKey : String} :
    startRoot X repo registry now publicKey system none =
      startRoot X repo registry now publicKey system
        (some (freshRoot X.toCrates system repo registry now)) := by
  unfold startRoot
  rw [new_eq_ok]
  rfl

theorem startRoot_eq_ok {repo registry now publicKey : String}
    {baseline : Option ShardedArchCacheIndexData} {root : ShardedArchCacheIndexData}
    (hbaseline : AcceptsBaseline X client system baseline)
    (h : startRoot X repo registry now publicKey system baseline = .ok root) :
    root.shards = baselineShards X baseline ∧
      root.gcRoots = (baseline.map ShardedArchCacheIndexData.gcRoots).getD [] := by
  have hlength := hbaseline.isIndexed.length
  cases baseline with
  | none =>
      rw [startRoot_none] at h
      rw [baselineShards_none, ← shards_freshRoot X.toCrates system repo registry now] at hlength ⊢
      obtain ⟨hshards, hroots⟩ := startRoot_some hlength h
      exact ⟨hshards, by rw [hroots, freshRoot]; rfl⟩
  | some existing => exact startRoot_some hlength h

theorem exists_startRoot_none (X : OciCrates) (repo registry now publicKey : String)
    (system : SystemArch) : ∃ root, startRoot X repo registry now publicKey system none = .ok root ∧
      root.shards = freshShards X.toCrates := by
  have hlength := (isIndexed_freshShards X.toCrates).length
  rw [← shards_freshRoot X.toCrates system repo registry now] at hlength
  rw [startRoot_none]
  have hshards := shards_freshRoot X.toCrates system repo registry now
  generalize freshRoot X.toCrates system repo registry now = root at *
  simp only [startRoot, pure_bind, hlength, ne_eq, not_true_eq_false, if_false]
  exact ⟨_, rfl, hshards⟩

theorem finishRoot_eq_ok {newRoots : List StoreHash} {root final : ShardedArchCacheIndexData}
    (h : finishRoot X args system newRoots root = .ok final) :
    final.shards = root.shards ∧ final.gcRoots = mergeGcRoots root.gcRoots newRoots ∧
      computeMerkleRoot X.toCrates final.shards = .ok final.merkleRoot := by
  simp only [finishRoot, ShardedArchCacheIndexData.recalculateMerkleRoot, bind_eq_ok, pure_eq_ok] at h
  obtain ⟨_, ⟨merkleRoot, hmerkle, rfl⟩, rfl⟩ := h
  exact ⟨rfl, rfl, hmerkle⟩

theorem exists_finishRoot {root : ShardedArchCacheIndexData} (args : PromoteArgs)
    (system : SystemArch) (newRoots : List StoreHash) (h : IsIndexed X.toCrates root.shards) :
    ∃ final, finishRoot X args system newRoots root = .ok final := by
  obtain ⟨merkleRoot, hmerkle⟩ := exists_computeMerkleRoot h
  simp only [finishRoot, ShardedArchCacheIndexData.recalculateMerkleRoot, hmerkle]
  exact ⟨_, rfl⟩

/-! ## One shard -/

/-- What one iteration makes of a shard: nothing, or the payload that was there with the incoming
entries. -/
def CompactsSlot (X : OciCrates) (client : OciClient) (system : SystemArch)
    (incoming : HashMap StoreHash IndexEntry) (trace : Trace Request Reply) (id : Nat)
    (old new : ShardDescriptor) (payloads : List ShardDataPayload) : Prop :=
  if (entriesIn incoming id).size = 0 then new = old ∧ payloads = []
  else ∃ payload t, t.Sublist trace ∧
    (baselinePayload X client system id old).Runs t (.ok payload) ∧
    payloads = [{ payload with entries := payload.entries.extend (entriesIn incoming id) }] ∧
    new.shardId = old.shardId ∧
    IsPushed X trace new { payload with entries := payload.entries.extend (entriesIn incoming id) }

theorem runs_compactShard_ok {incoming : HashMap StoreHash IndexEntry} {state state' : Compaction}
    {id : Nat} {old : ShardDescriptor} {t : Trace Request Reply}
    (hold : state.root.shards[id]? = some old) (hsub : t.Sublist trace)
    (h : (compactShard X client system (partitionEntriesByShard incoming) state id).Runs t
      (.ok state')) :
    ∃ new payloads, ChangesSlot state state' id new payloads ∧
      CompactsSlot X client system incoming trace id old new payloads := by
  -- a slot that keeps its descriptor
  have hsame : ChangesSlot state state id old [] := by
    refine ⟨?_, (List.append_nil _).symm⟩
    obtain ⟨hlt, hget⟩ := List.getElem?_eq_some_iff.mp hold
    rw [← hget, List.set_getElem_self]
  unfold CompactsSlot
  by_cases hzero : (entriesIn incoming id).size = 0
  · have hstate : state' = state := by
      unfold compactShard at h
      rw [hold] at h
      cases hlookup : (partitionEntriesByShard incoming).lookup (UInt16.ofNat id) with
      | none =>
          rw [hlookup] at h
          exact Except.ok.inj h.2
      | some part =>
          have hpart : part.size = 0 := by simpa [entriesIn, hlookup] using hzero
          simp only [hlookup, hpart, if_true] at h
          exact Except.ok.inj h.2
    subst hstate
    exact ⟨old, [], hsame, by rw [if_pos hzero]; exact ⟨rfl, rfl⟩⟩
  · obtain ⟨part, hlookup, hpart⟩ : ∃ part,
        (partitionEntriesByShard incoming).lookup (UInt16.ofNat id) = some part ∧
          entriesIn incoming id = part := by
      cases hlookup : (partitionEntriesByShard incoming).lookup (UInt16.ofNat id) with
      | none =>
          rw [entriesIn, hlookup] at hzero
          exact absurd rfl hzero
      | some part => exact ⟨part, rfl, by rw [entriesIn, hlookup, Option.getD_some]⟩
    rw [hpart] at hzero
    unfold compactShard at h
    rw [hlookup, hold] at h
    dsimp only at h
    rw [if_neg hzero] at h
    obtain ⟨read, push, payload, rfl, hpayload, hreplace⟩ := Action.runs_bind_ok.mp h
    obtain ⟨new, rfl, hid, _, hpushed⟩ := runs_replaceShard_ok hreplace
    refine ⟨new, _, ⟨rfl, rfl⟩, ?_⟩
    rw [hpart, if_neg hzero]
    exact ⟨payload, read, (List.sublist_append_left _ _).trans hsub, hpayload, rfl, hid,
      hpushed.mono ((List.sublist_append_right _ _).trans hsub)⟩

/-! ## The compaction of one architecture -/

/-- The result of a compaction: the root it started from, what it pushed, and the new root. -/
structure Compacted where
  baseline : Option ShardedArchCacheIndexData
  pushed : List ShardDataPayload
  root : ShardedArchCacheIndexData

/-- The steps of `promoteSystem` before it pushes the root. -/
def compactSystem (X : OciCrates) (client : OciClient) (args : PromoteArgs) (incoming : Incoming)
    (system : SystemArch) : Step Compacted := do
  let existing ← liftOci (getShardedRoot X client args.targetTag system)
  let baseline := existing.map Prod.fst
  let root ← liftResult (startRoot X args.repo args.registry
    (args.clock.generated system) incoming.publicKey system baseline)
  let state ← Action.foldM
    (compactShard X client system (partitionEntriesByShard (incoming.entriesFor system)))
    ⟨root, []⟩ (List.range numShards)
  let root ← liftResult (finishRoot X args system (incoming.rootsFor system) state.root)
  pure ⟨baseline, state.pushed, root⟩

theorem runs_compactSystem {incoming : Incoming} {read loop : Trace Request Reply}
    {existing : Option (ShardedArchCacheIndexData × String)} {root final : ShardedArchCacheIndexData}
    {state : Compaction} {ids : List Nat} (hids : List.range numShards = ids)
    (hread : (getShardedRoot X client args.targetTag system).Runs read (.ok existing))
    (hroot : startRoot X args.repo args.registry (args.clock.generated system) incoming.publicKey
      system (existing.map Prod.fst) = .ok root)
    (hloop : (Action.foldM (compactShard X client system
      (partitionEntriesByShard (incoming.entriesFor system))) ⟨root, []⟩ ids).Runs loop (.ok state))
    (hfinal : finishRoot X args system (incoming.rootsFor system) state.root = .ok final) :
    (compactSystem X client args incoming system).Runs (read ++ (loop ++ []))
      (.ok ⟨existing.map Prod.fst, state.pushed, final⟩) := by
  unfold compactSystem
  rw [hids]
  apply Action.Runs.bind (runs_liftOci_ok.mpr hread)
  apply Action.Runs.ofExcept_bind (liftResult_eq_ok.mpr hroot)
  apply Action.Runs.bind hloop
  exact Action.Runs.ofExcept_bind (liftResult_eq_ok.mpr hfinal) ⟨rfl, rfl⟩

/-- What is published for an architecture was compacted. -/
theorem runs_promoteSystem_ok {incoming : Incoming} {published : Published}
    (h : (promoteSystem X client args incoming system).Runs trace (.ok published)) :
    ∃ t rest, trace = t ++ rest ∧ (compactSystem X client args incoming system).Runs t
      (.ok ⟨published.baseline, published.pushed, published.root⟩) := by
  unfold compactSystem
  unfold promoteSystem at h
  generalize List.range numShards = ids at *
  obtain ⟨read, t₁, existing, rfl, hread, h⟩ := Action.runs_bind_ok.mp h
  obtain ⟨root, hroot, h⟩ := Action.runs_ofExcept_bind_ok.mp h
  obtain ⟨loop, t₂, state, rfl, hloop, h⟩ := Action.runs_bind_ok.mp h
  obtain ⟨final, hfinal, h⟩ := Action.runs_ofExcept_bind_ok.mp h
  obtain ⟨push, t₃, digest, rfl, hpush, h⟩ := Action.runs_bind_ok.mp h
  obtain rfl := Except.ok.inj (Action.runs_pure.mp h).2
  refine ⟨read ++ loop, push ++ t₃, by simp, Action.Runs.bind hread ?_⟩
  apply Action.Runs.ofExcept_bind hroot
  rw [← List.append_nil loop]
  exact Action.Runs.bind hloop (Action.Runs.ofExcept_bind hfinal ⟨rfl, rfl⟩)

/-- Every read of a descriptor returned the payload at its place. -/
def ReadsAs (X : OciCrates) (client : OciClient) (system : SystemArch)
    (trace : Trace Request Reply) (shards : List ShardDescriptor)
    (payloads : Nat → ShardDataPayload) : Prop :=
  ∀ id descriptor t payload, shards[id]? = some descriptor → t.Sublist trace →
    (getShardData X client descriptor system).Runs t (.ok payload) → payload = payloads id

/-- The compaction is an update of the index as one map, made in the shards that the receipts have
entries for.  `base` is what the shards held before, `next` what they hold now. -/
structure IsExact (X : OciCrates) (system : SystemArch) (receipts : List BuildReceipt)
    (trace : Trace Request Reply) (base next : Nat → ShardDataPayload) (compacted : Compacted) :
    Prop where
  /-- An entry of the new index is the latest of the receipts, or else that of the baseline. -/
  entries : ∀ hash entry, HashMap.InParts numShards (partsOf next) hash entry ↔
    latestEntry receipts system hash = some entry ∨
      latestEntry receipts system hash = none ∧
        HashMap.InParts numShards (partsOf base) hash entry
  placed : ∀ id < numShards, ∀ hash entry, (next id).entries.lookup hash = some entry →
    (calculateShardId hash).toNat = id
  unchanged : ∀ id < numShards,
    (∀ hash, (calculateShardId hash).toNat = id → latestEntry receipts system hash = none) →
    compacted.root.shards[id]? = (baselineShards X compacted.baseline)[id]? ∧ next id = base id
  changed : ∀ id < numShards,
    (∃ hash entry, (calculateShardId hash).toNat = id ∧
      latestEntry receipts system hash = some entry) →
    next id ∈ compacted.pushed ∧ ∃ descriptor, compacted.root.shards[id]? = some descriptor ∧
      descriptor.shardId.toNat = id ∧ IsPushed X trace descriptor (next id)
  gcRoots : compacted.root.gcRoots.Pairwise (· < ·) ∧ ∀ hash, hash ∈ compacted.root.gcRoots ↔
    hash ∈ (compacted.baseline.map ShardedArchCacheIndexData.gcRoots).getD [] ∨
      ∃ receipt ∈ receipts, receipt.system = system ∧ hash ∈ receipt.activeGcRoots
  merkleRoot : computeMerkleRoot X.toCrates compacted.root.shards = .ok compacted.root.merkleRoot

section

variable {base : Nat → ShardDataPayload} {shards : List ShardDescriptor}

/-- The payload that a shard starts from is the one in the baseline. -/
theorem runs_baselinePayload_ok {id : Nat} {descriptor : ShardDescriptor}
    {payload : ShardDataPayload} {t : Trace Request Reply} (hshards : IsIndexed X.toCrates shards)
    (hbase : AreShardsOf X client system shards base)
    (hreads : ReadsAs X client system trace shards base) (hget : shards[id]? = some descriptor)
    (hsub : t.Sublist trace)
    (h : (baselinePayload X client system id descriptor).Runs t (.ok payload)) :
    payload = base id := by
  obtain ⟨hid, hlt⟩ := shardId_of_getElem? hshards hget
  have hvalid := hshards.valid descriptor (List.mem_of_getElem? hget)
  unfold baselinePayload at h
  by_cases hcount : descriptor.entryCount = 0
  · rw [if_neg (by simp [hcount])] at h
    simp only [liftResult, ShardDataPayload.new, Action.runs_ofExcept] at h
    have hnew := h.2.symm
    simp only [mapErr_eq_ok, bind_eq_ok, ensure_eq_ok, pure_eq_ok] at hnew
    obtain ⟨_, _, rfl⟩ := hnew
    have hshard := hbase id descriptor hget
    have hsame : (base id).shardId = UInt16.ofNat id := by
      rw [hshard.isFor.id, ← hid, UInt16.ofNat_toNat]
    have hentries : (base id).entries = ∅ := by
      have hsize := hshard.count
      rw [hcount] at hsize
      exact AList.ext (List.eq_nil_of_length_eq_zero hsize)
    have hversion := hshard.valid.version
    have htext := hshard.valid.shardPrefix
    generalize base id = payload at *
    obtain ⟨version, shardId, shardPrefix, entries⟩ := payload
    simp_all
  · have hpos : 0 < descriptor.entryCount := UInt64.pos_iff_ne_zero.mpr hcount
    rw [if_pos ⟨hpos, blobDigest_nonempty hvalid hcount⟩] at h
    exact hreads id descriptor t payload hget hsub (runs_liftOci_ok.mp h)

/-- What the shards hold after the compaction. -/
def mergedPayload (base : Nat → ShardDataPayload) (incoming : HashMap StoreHash IndexEntry)
    (id : Nat) : ShardDataPayload :=
  if (entriesIn incoming id).size = 0 then base id
  else { base id with entries := (base id).entries.extend (entriesIn incoming id) }

theorem lookup_mergedPayload (incoming : HashMap StoreHash IndexEntry) (id : Nat)
    (hash : StoreHash) :
    (mergedPayload base incoming id).entries.lookup hash =
      ((entriesIn incoming id).lookup hash).or ((base id).entries.lookup hash) := by
  unfold mergedPayload
  split
  · rename_i hzero
    rw [HashMap.size_eq_zero_iff.mp hzero hash, Option.none_or]
  · rw [HashMap.lookup_extend]

theorem placed_mergedPayload {incoming : HashMap StoreHash IndexEntry}
    (h : HashMap.Placed shardOf numShards (partsOf base)) :
    HashMap.Placed shardOf numShards (partsOf (mergedPayload base incoming)) := by
  intro id hid hash entry hlookup
  rw [partsOf, lookup_mergedPayload, lookup_entriesIn incoming hid] at hlookup
  by_cases hplace : shardOf hash = id
  · exact hplace
  · rw [if_neg hplace, Option.none_or] at hlookup
    exact h id hid hash entry hlookup

/-- No entry falls into a shard exactly when its part is empty. -/
theorem size_entriesIn_eq_zero_iff {incoming : HashMap StoreHash IndexEntry} {id : Nat}
    (hid : id < numShards) :
    (entriesIn incoming id).size = 0 ↔ ∀ hash, shardOf hash = id → incoming.lookup hash = none := by
  rw [HashMap.size_eq_zero_iff]
  constructor
  · intro h hash hplace
    have hnone := h hash
    rwa [lookup_entriesIn incoming hid, if_pos hplace] at hnone
  · intro h hash
    rw [lookup_entriesIn incoming hid]
    split
    · exact h hash ‹_›
    · rfl

end

/-- The compaction of an architecture is exact: for every baseline that the readers accept and every
list of receipts, the new root describes the baseline with the entries of the receipts put in. -/
theorem compactSystem_exact {compacted : Compacted} {base : Nat → ShardDataPayload}
    (hruns : (compactSystem X client args (collectIncoming receipts) system).Runs trace
      (.ok compacted))
    (hbase : AreShardsOf X client system (baselineShards X compacted.baseline) base)
    (hreads : ReadsAs X client system trace (baselineShards X compacted.baseline) base) :
    ∃ next, IsExact X system receipts trace base next compacted := by
  unfold compactSystem at hruns
  generalize hids : List.range numShards = ids at hruns
  obtain ⟨read, t₁, existing, rfl, hread, h⟩ := Action.runs_bind_ok.mp hruns
  obtain ⟨root, hroot, h⟩ := Action.runs_ofExcept_bind_ok.mp h
  obtain ⟨loop, t₂, state, rfl, hloop, h⟩ := Action.runs_bind_ok.mp h
  obtain ⟨final, hfinal, h⟩ := Action.runs_ofExcept_bind_ok.mp h
  obtain rfl := Except.ok.inj (Action.runs_pure.mp h).2
  have hbaseline : AcceptsBaseline X client system (existing.map Prod.fst) := by
    rintro root hroot
    obtain ⟨⟨root', digest⟩, rfl, rfl⟩ := Option.map_eq_some_iff.mp hroot
    exact isAccepted_of_getShardedRoot (runs_liftOci_ok.mp hread)
  have hindexed := hbaseline.isIndexed
  obtain ⟨hshards, hroots⟩ := startRoot_eq_ok hbaseline (liftResult_eq_ok.mp hroot)
  obtain ⟨hfinalShards, hfinalRoots, hmerkle⟩ := finishRoot_eq_ok (liftResult_eq_ok.mp hfinal)
  set trace := read ++ (loop ++ t₂)
  set incoming := (collectIncoming receipts).entriesFor system with hincoming
  have hlatest : ∀ hash, incoming.lookup hash = latestEntry receipts system hash :=
    lookup_entriesFor receipts system
  have hsub : loop.Sublist trace :=
    (List.sublist_append_left loop t₂).trans (List.sublist_append_right read _)
  have hlength : root.shards.length = numShards := by rw [hshards, hindexed.length]
  have hstep : ∀ id < numShards, ∀ old state state' t, state.root.shards[id]? = some old →
      t.Sublist loop → (compactShard X client system (partitionEntriesByShard incoming) state id).Runs
        t (.ok state') →
      ∃ new payloads, ChangesSlot state state' id new payloads ∧
        CompactsSlot X client system incoming trace id old new payloads :=
    fun id _ old state state' t hold ht hruns => runs_compactShard_ok hold (ht.trans hsub) hruns
  obtain ⟨⟨_, hkept⟩, _, hslots⟩ := runs_slots hloop hids hlength hstep
  rw [hshards] at hslots
  have hslot : ∀ id < numShards, ∃ old new payloads,
      (baselineShards X (existing.map Prod.fst))[id]? = some old ∧ final.shards[id]? = some new ∧
        CompactsSlot X client system incoming trace id old new payloads ∧
        ∀ payload ∈ payloads, payload ∈ state.pushed := by
    intro id hid
    have hold := List.getElem?_eq_getElem (l := baselineShards X (existing.map Prod.fst)) (i := id)
      (by rw [hindexed.length]; exact hid)
    obtain ⟨new, payloads, hnew, hslot, hpushed⟩ := hslots id _ hold
    exact ⟨_, new, payloads, hold, by rw [hfinalShards, hnew], hslot, hpushed⟩
  have hplaced := hbase.placed hindexed
  have hnext : HashMap.Placed shardOf numShards (partsOf (mergedPayload base incoming)) :=
    placed_mergedPayload hplaced
  refine ⟨mergedPayload base incoming, ?_, ?_, ?_, ?_, ?_, hmerkle⟩
  · intro hash entry
    rw [hnext.inParts_iff shardOf_lt, hplaced.inParts_iff shardOf_lt, partsOf,
      lookup_mergedPayload, lookup_entriesIn incoming (shardOf_lt hash), if_pos rfl, hlatest]
    cases latestEntry receipts system hash with
    | none => simp [partsOf]
    | some latest => simp
  · intro id hid hash entry hlookup
    exact hnext id hid hash entry hlookup
  · intro id hid hnone
    have hzero : (entriesIn incoming id).size = 0 :=
      (size_entriesIn_eq_zero_iff hid).mpr fun hash hplace => by rw [hlatest, hnone hash hplace]
    obtain ⟨old, new, payloads, hold, hnew, hslot, _⟩ := hslot id hid
    rw [CompactsSlot, if_pos hzero] at hslot
    exact ⟨by rw [hnew, hold, hslot.1], by rw [mergedPayload, if_pos hzero]⟩
  · rintro id hid ⟨hash, entry, hplace, hentry⟩
    have hpos : (entriesIn incoming id).size ≠ 0 := by
      intro hzero
      have hnone := (size_entriesIn_eq_zero_iff hid).mp hzero hash hplace
      rw [hlatest, hentry] at hnone
      simp at hnone
    obtain ⟨old, new, payloads, hold, hnew, hslot, hmem⟩ := hslot id hid
    rw [CompactsSlot, if_neg hpos] at hslot
    obtain ⟨payload, t, ht, hpayload, rfl, hsame, hpushed⟩ := hslot
    obtain rfl := runs_baselinePayload_ok hindexed hbase hreads hold ht hpayload
    rw [mergedPayload, if_neg hpos]
    exact ⟨hmem _ (List.mem_singleton_self _), new, hnew,
      by rw [hsame, (shardId_of_getElem? hindexed hold).1], hpushed⟩
  · rw [hfinalRoots]
    refine ⟨pairwise_mergeGcRoots _ _, fun hash => ?_⟩
    have hstate : state.root.gcRoots = root.gcRoots := by rw [hkept]
    rw [mem_mergeGcRoots, hstate, hroots, mem_rootsFor]

/-! ## A receipt with one entry -/

def singleReceipt : BuildReceipt where
  version := 8
  system := .x86_64Linux
  repo := "owner/repo"
  origin := none
  timestamp := "2024-01-01T00:00:00Z"
  publicKey := none
  newEntries := singleEntry
  activeGcRoots := [sampleHash '1']
  stats := ⟨1, 1, 0, 1, 100⟩

def sampleClock : Clock :=
  ⟨fun _ => "2024-01-01T00:00:00Z", fun _ => "2024-01-01T00:00:00Z", fun _ => "2024-01-01T00:00:00Z"⟩

def samplePromote : PromoteArgs :=
  ⟨[], "owner/repo", "cache.azurecr.io", "cache-index", .x86_64Linux, none, sampleClock⟩

/-- The crates of the sample, with a hash function that is fast to evaluate. -/
def storedCrates : OciCrates := storingCrates stampCrates

def incomingEntry : HashMap StoreHash IndexEntry :=
  (collectIncoming [singleReceipt]).entriesFor .x86_64Linux

/-- The payload that is pushed for the entry. -/
def incomingPayload : ShardDataPayload :=
  ⟨schemaVersionV8, 33, shardIdToPrefix 33,
    HashMap.extend ∅ (entriesIn incomingEntry 33)⟩

theorem keys_incomingEntry : (partitionEntriesByShard incomingEntry).keys = [33] := by decide

theorem incomingPayload_eq : incomingPayload = publishedPayload := rfl

theorem isValid_incomingPayload : incomingPayload.IsValid stampCrates := by
  rw [incomingPayload_eq]
  exact validateFor_publishedPayload.1

theorem exists_merkleHash_incomingPayload :
    ∃ hash, incomingPayload.computeMerkleHash stampCrates = .ok hash := by
  rw [incomingPayload_eq]
  exact exists_merkleHash_publishedPayload

theorem lookup_incomingEntry :
    (partitionEntriesByShard incomingEntry).lookup 33 = some (entriesIn incomingEntry 33) := by
  have hmem : (33 : UInt16) ∈ partitionEntriesByShard incomingEntry := by
    rw [AList.mem_keys, keys_incomingEntry]
    exact List.mem_singleton_self _
  obtain ⟨part, hpart⟩ := HashMap.mem_iff_lookup.mp hmem
  have hpart' : (partitionEntriesByShard incomingEntry).lookup (UInt16.ofNat 33) = some part := hpart
  rw [entriesIn, hpart', hpart, Option.getD_some]

theorem compactShard_other {state : Compaction} {id : Nat} (hid : id < numShards) (hne : id ≠ 33) :
    compactShard storedCrates sampleClient .x86_64Linux (partitionEntriesByShard incomingEntry) state
      id = pure state := by
  have hnone : (partitionEntriesByShard incomingEntry).lookup (UInt16.ofNat id) = none := by
    rw [AList.lookup_eq_none, AList.mem_keys, keys_incomingEntry, List.mem_singleton]
    intro h
    have hnat := congrArg UInt16.toNat h
    rw [UInt16.toNat_ofNat_of_lt' (hid.trans (by decide))] at hnat
    exact hne hnat
  unfold compactShard
  rw [hnone]

/-- The encoded payload is neither empty nor too long for a size. -/
theorem sizes_incomingPayload {blob : Bytes}
    (h : IndexCodec.encodeZstd storedCrates incomingPayload.toJson = .ok blob) :
    UInt64.ofNat blob.length ≠ 0 ∧
      UInt64.ofNat (IndexCodec.toVec storedCrates incomingPayload.toJson).length ≠ 0 := by
  rw [incomingPayload_eq] at h ⊢
  have hblob : blob = publishedBlob := (Except.ok.inj h).symm
  have htext := length_publishedText
  have hlength := length_publishedBlob
  rw [hblob]
  exact ⟨ofNat_ne_zero (by omega) (by omega), ofNat_ne_zero htext.1 (htext.2.trans (by omega))⟩

/-- The loop pushes the entry to its shard and leaves the others. -/
theorem runs_incomingEntry {root : ShardedArchCacheIndexData}
    {ids : List Nat} (hids : List.range numShards = ids)
    (hroot : root.shards = freshShards stampCrates) :
    ∃ trace new, (Action.foldM (compactShard storedCrates sampleClient .x86_64Linux
        (partitionEntriesByShard incomingEntry)) ⟨root, []⟩ ids).Runs trace
        (.ok ⟨{ root with shards := root.shards.set 33 new }, [incomingPayload]⟩) ∧
      new.shardId = 33 ∧ new.validateStructure stampCrates = .ok () := by
  have hlength : root.shards.length = numShards := by
    rw [hroot, (isIndexed_freshShards stampCrates).length]
  have hold : root.shards[33]? = some (emptyDescriptor stampCrates 33) := by
    rw [hroot, freshShards, List.getElem?_map, List.getElem?_range (by decide)]
    rfl
  obtain ⟨blob, hencode⟩ : ∃ blob,
      IndexCodec.encodeZstd storedCrates incomingPayload.toJson = .ok blob := ⟨_, rfl⟩
  obtain ⟨merkleHash, hmerkle⟩ := exists_merkleHash_incomingPayload
  obtain ⟨push, hpush⟩ : ∃ push, (pushShardData storedCrates sampleClient incomingPayload).Runs push
      (.ok (digestOf stampCrates blob, UInt64.ofNat blob.length,
        UInt64.ofNat (IndexCodec.toVec storedCrates incomingPayload.toJson).length)) :=
    runs_pushShardData isValid_incomingPayload hencode
  obtain ⟨new, hnew⟩ : ∃ new, new = pushedDescriptor (emptyDescriptor stampCrates 33)
      (digestOf stampCrates blob, UInt64.ofNat blob.length,
        UInt64.ofNat (IndexCodec.toVec storedCrates incomingPayload.toJson).length)
      incomingPayload.entries.size merkleHash := ⟨_, rfl⟩
  have hreplace : (replaceShard storedCrates sampleClient ⟨root, []⟩ 33
      (emptyDescriptor stampCrates 33) incomingPayload).Runs (push ++ [])
      (.ok ⟨{ root with shards := root.shards.set 33 new }, [incomingPayload]⟩) := by
    rw [hnew]
    exact Action.Runs.bind (runs_liftOci_ok.mpr hpush)
      (Action.Runs.ofExcept_bind (liftResult_eq_ok.mpr hmerkle) ⟨rfl, rfl⟩)
  have hpart : (entriesIn incomingEntry 33).size ≠ 0 := by decide
  have hcompact : (compactShard storedCrates sampleClient .x86_64Linux
      (partitionEntriesByShard incomingEntry) ⟨root, []⟩ 33).Runs ([] ++ (push ++ []))
      (.ok ⟨{ root with shards := root.shards.set 33 new }, [incomingPayload]⟩) := by
    unfold compactShard
    rw [show UInt16.ofNat 33 = 33 from rfl, lookup_incomingEntry, hold]
    dsimp only
    rw [if_neg hpart]
    exact Action.Runs.bind ⟨rfl, rfl⟩ hreplace
  obtain ⟨new', hstate, hid, hpre, hpushed⟩ := runs_replaceShard_ok hreplace
  have hsame : new = new' := by
    have hget := congrArg (fun state : Compaction => state.root.shards[33]?) hstate
    simpa [List.getElem?_set, hlength, numShards] using hget
  subst hsame
  obtain ⟨hcompressed, huncompressed⟩ := sizes_incomingPayload hencode
  have hvalid : new.validateStructure stampCrates = .ok () := by
    apply hpushed.validateStructure
    · exact hid
    · rw [hpre, hid]
      rfl
    · rw [hnew]
      exact ⟨hcompressed, huncompressed⟩
    · rw [hpushed.count]
      decide
  have hk : 33 < numShards := by decide
  exact ⟨_, new, runs_foldM_at hids hk hcompact fun state id hlt hne =>
    compactShard_other hlt hne, hid, hvalid⟩

theorem getElem?_freshShards {X : Crates} {id : Nat} {descriptor : ShardDescriptor}
    (h : (freshShards X)[id]? = some descriptor) :
    id < numShards ∧ descriptor = emptyDescriptor X (UInt16.ofNat id) := by
  rw [freshShards, List.getElem?_map] at h
  obtain ⟨id', hid, rfl⟩ := Option.map_eq_some_iff.mp h
  obtain ⟨hlt, rfl⟩ := List.getElem?_eq_some_iff.mp hid
  rw [List.getElem_range]
  exact ⟨by simpa using hlt, rfl⟩

theorem areShardsOf_freshShards (X : OciCrates) (client : OciClient) (system : SystemArch) :
    AreShardsOf X client system (freshShards X.toCrates) emptyPayload := by
  intro id descriptor hget
  obtain ⟨hid, rfl⟩ := getElem?_freshShards hget
  exact isShardOf_emptyPayload hid

/-- The theorem on the promotion of one receipt with one entry to a registry without an index. -/
theorem compactSystem_exact_singleReceipt :
    ∃ trace compacted, (compactSystem storedCrates sampleClient samplePromote
        (collectIncoming [singleReceipt]) .x86_64Linux).Runs trace (.ok compacted) ∧
      (∃ entry, latestEntry [singleReceipt] .x86_64Linux (sampleHash '1') = some entry) ∧
      ∃ next, IsExact storedCrates .x86_64Linux [singleReceipt] trace emptyPayload next
        compacted := by
  obtain ⟨read, hread⟩ : ∃ read, (getShardedRoot storedCrates sampleClient "cache-index"
      .x86_64Linux).Runs read (.ok none) := Registry.empty.runs_read (X := storedCrates) _
  obtain ⟨root, hroot, hshards⟩ := exists_startRoot_none storedCrates samplePromote.repo
    samplePromote.registry (samplePromote.clock.generated .x86_64Linux)
    (collectIncoming [singleReceipt]).publicKey .x86_64Linux
  obtain ⟨ids, hids⟩ : ∃ ids, List.range numShards = ids := ⟨_, rfl⟩
  obtain ⟨loop, new, hloop, hid, hvalid⟩ := runs_incomingEntry hids hshards
  have hindexed : IsIndexed stampCrates (root.shards.set 33 new) := by
    rw [hshards]
    exact (isIndexed_freshShards stampCrates).set (by rw [hid]; rfl) hvalid
  obtain ⟨final, hfinal⟩ : ∃ final, finishRoot storedCrates samplePromote .x86_64Linux
      ((collectIncoming [singleReceipt]).rootsFor .x86_64Linux)
      { root with shards := root.shards.set 33 new } = .ok final :=
    exists_finishRoot samplePromote .x86_64Linux _ hindexed
  have hruns := @runs_compactSystem storedCrates sampleClient samplePromote .x86_64Linux
    (collectIncoming [singleReceipt]) read loop none root final _ ids hids hread hroot hloop hfinal
  have hlatest : (latestEntry [singleReceipt] .x86_64Linux (sampleHash '1')).isSome = true := by
    decide +kernel
  have hbase : AreShardsOf storedCrates sampleClient .x86_64Linux (baselineShards storedCrates none)
      emptyPayload := by
    rw [baselineShards_none]
    exact areShardsOf_freshShards storedCrates sampleClient .x86_64Linux
  have hreads : ReadsAs storedCrates sampleClient .x86_64Linux (read ++ (loop ++ []))
      (baselineShards storedCrates none) emptyPayload := by
    rw [baselineShards_none]
    intro id descriptor t payload hget _ hread
    obtain ⟨hlt, rfl⟩ := getElem?_freshShards hget
    exact runs_getShardData_empty hlt hread
  have hexact := compactSystem_exact hruns hbase hreads
  exact ⟨_, _, hruns, Option.isSome_iff_exists.mp hlatest, hexact⟩

end NixCache.Builder
