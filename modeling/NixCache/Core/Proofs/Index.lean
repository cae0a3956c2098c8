import NixCache.Core.Proofs.FreshRoot
import NixCache.Core.Proofs.Wire
/-!
# Accepted indexes

What a root index or a shard payload satisfies when one of its checks returned `Ok`, and that an
accepted value is decoded from the document it is written as.
-/

namespace NixCache.Core

open NixCache.Lib NixCache.Lib.Result NixCache.Lib.Json

variable {X : Crates}

/-! ## Descriptors -/

/-- Accepted descriptors have digests that the root is computed from. -/
theorem exists_isDescriptorLeaf {descriptor : ShardDescriptor}
    (h : descriptor.validateStructure X = .ok ()) : ∃ leaf, IsDescriptorLeaf descriptor leaf := by
  by_cases hempty : descriptor.isEmpty = true
  · rw [eq_emptyDescriptor h hempty]
    exact ⟨_, isDescriptorLeaf_emptyDescriptor _⟩
  · simp only [ShardDescriptor.validateStructure, hempty, Bool.false_eq_true, if_false, bind_eq_ok,
      mapErr_eq_ok, validateSha256_eq_ok] at h
    obtain ⟨_, _, _, _, _, ⟨blob, hblob⟩, _, _, _, _, merkleHash, hmerkle⟩ := h
    exact ⟨_, some blob, merkleHash, hblob, hmerkle, rfl⟩

/-- The descriptors stay in place when one is replaced under its id. -/
theorem IsIndexed.set {shards : List ShardDescriptor} {descriptor : ShardDescriptor} {id : Nat}
    (h : IsIndexed X shards) (hid : descriptor.shardId.toNat = id)
    (hvalid : descriptor.validateStructure X = .ok ()) : IsIndexed X (shards.set id descriptor) := by
  refine ⟨by rw [List.length_set, h.length], ?_, fun other hother => ?_⟩
  · rw [List.map_set, h.ids, hid]
    apply List.ext_getElem? 
    intro slot
    rw [List.getElem?_set]
    split
    · subst_vars
      split
      · rw [List.getElem?_eq_getElem ‹_›, List.getElem_range]
      · rw [List.getElem?_eq_none (by omega)]
    · rfl
  · rcases List.mem_or_eq_of_mem_set hother with hmem | rfl
    · exact h.valid other hmem
    · exact hvalid

theorem blobDigest_nonempty {X : Crates} {descriptor : ShardDescriptor}
    (h : descriptor.validateStructure X = .ok ()) (hcount : descriptor.entryCount ≠ 0) :
    ¬ Str.isEmpty descriptor.blobDigest = true := by
  have hempty : descriptor.isEmpty = false := by simpa [ShardDescriptor.isEmpty] using hcount
  simp only [ShardDescriptor.validateStructure, hempty, Bool.false_eq_true, if_false, bind_eq_ok,
    mapErr_eq_ok, validateSha256_eq_ok] at h
  obtain ⟨_, _, _, _, _, ⟨digest, hdigest⟩, _⟩ := h
  rw [isEmpty_iff, hdigest]
  intro hnil
  have hlength := congrArg String.length hnil
  rw [formatDigest, String.length_append] at hlength
  simp at hlength

theorem exists_computeMerkleRoot {shards : List ShardDescriptor} (h : IsIndexed X shards) :
    ∃ hash, computeMerkleRoot X shards = .ok hash := by
  have hleaves : ∀ shards : List ShardDescriptor,
      (∀ descriptor ∈ shards, descriptor.validateStructure X = .ok ()) →
      ∃ leaves, List.Forall₂ IsDescriptorLeaf shards leaves := by
    intro shards
    induction shards with
    | nil => exact fun _ => ⟨[], .nil⟩
    | cons descriptor rest ih =>
        intro hvalid
        rw [List.forall_mem_cons] at hvalid
        obtain ⟨leaf, hleaf⟩ := exists_isDescriptorLeaf hvalid.1
        obtain ⟨leaves, hleaves⟩ := ih hvalid.2
        exact ⟨leaf :: leaves, .cons hleaf hleaves⟩
  obtain ⟨leaves, hforall⟩ := hleaves shards h.valid
  exact ⟨_, computeMerkleRoot_eq_ok.mpr
    ⟨shards, leaves, indexShardDescriptors_eq_ok.mpr ⟨h, .refl _⟩, hforall, rfl⟩⟩

/-! ## Roots -/

namespace ShardedArchCacheIndexData

variable {root : ShardedArchCacheIndexData} {u : Unit}

/-- A root that `validate_structure` accepts. -/
structure IsValid (X : Crates) (root : ShardedArchCacheIndexData) : Prop where
  version : root.version = schemaVersionV8
  known : root.system.isKnown = true
  named : ¬ Str.isEmpty (Str.trim root.repo) = true ∧ ¬ Str.isEmpty (Str.trim root.registry) = true
  generated : isTimestamp X root.generated = true
  shards : IsIndexed X root.shards
  merkleRoot : computeMerkleRoot X root.shards = .ok root.merkleRoot

theorem isSha256_of_computeMerkleRoot {shards : List ShardDescriptor} {hash : String}
    (h : computeMerkleRoot X shards = .ok hash) : isSha256 hash = true := by
  obtain ⟨_, _, _, _, rfl⟩ := computeMerkleRoot_eq_ok.mp h
  exact isSha256_iff.mpr ⟨_, rfl⟩

theorem checkAll_validateSlot {shards : List ShardDescriptor}
    (hlength : shards.length = numShards) :
    checkAll (validateSlot X) shards.zipIdx = .ok u ↔ IsIndexed X shards := by
  simp only [checkAll_eq_ok, validateSlot, bind_eq_ok, ensure_eq_ok]
  constructor
  · intro h
    have hslot : ∀ i (hi : i < shards.length), shards[i].shardId = UInt16.ofNat i ∧
        shards[i].validateStructure X = .ok () := by
      intro i hi
      obtain ⟨_, hid, hvalid⟩ := h (shards[i], i) (by simp [List.mk_mem_zipIdx_iff_getElem?, hi])
      exact ⟨hid, hvalid⟩
    refine ⟨hlength, ?_, ?_⟩
    · apply List.ext_getElem
      · simp [hlength]
      · intro i hi _
        rw [List.length_map] at hi
        have hsmall : i < numShards := hlength ▸ hi
        rw [List.getElem_map, (hslot i hi).1, List.getElem_range,
          UInt16.toNat_ofNat_of_lt' (hsmall.trans (by decide))]
    · intro d hd
      obtain ⟨i, hi, rfl⟩ := List.getElem_of_mem hd
      exact (hslot i hi).2
  · rintro h ⟨d, i⟩ hmem
    have hget := List.mk_mem_zipIdx_iff_getElem?.mp hmem
    obtain ⟨hi, rfl⟩ := List.getElem?_eq_some_iff.mp hget
    refine ⟨(), ?_, h.valid _ (List.getElem_mem hi)⟩
    have hid : (shards[i]).shardId.toNat = i := by
      have := List.getElem_of_eq h.ids (i := i) (by simpa using hi)
      simpa using this
    apply UInt16.toNat_inj.mp
    have hsmall : i < numShards := hlength ▸ hi
    rw [hid, UInt16.toNat_ofNat_of_lt' (hsmall.trans (by decide))]

theorem validateStructure_eq_ok : root.validateStructure X = .ok u ↔ IsValid X root := by
  simp only [validateStructure, bind_eq_ok, ensure_eq_ok, mapErr_eq_ok, validateSha256_eq_ok]
  constructor
  · rintro ⟨_, hversion, _, hknown, _, hnamed, _, hgenerated, _, hlength, _, hslots, _, _, hash,
      hroot, rfl⟩
    exact ⟨hversion, hknown, hnamed, hgenerated, (checkAll_validateSlot hlength).mp hslots, hroot⟩
  · intro h
    exact ⟨(), h.version, (), h.known, (), h.named, (), h.generated, (), h.shards.length, (),
      (checkAll_validateSlot h.shards.length).mpr h.shards, (),
      isSha256_iff.mp (isSha256_of_computeMerkleRoot h.merkleRoot), _, h.merkleRoot, rfl⟩

/-- The limits that `validate_for` puts on a root. -/
structure WithinLimits (limits : IndexLimits) (root : ShardedArchCacheIndexData) : Prop where
  uncompressed : ∀ shard ∈ root.shards, shard.isEmpty = false →
    shard.uncompressedSize ≤ limits.maxUncompressedBytes
  entries : ∀ shard ∈ root.shards, shard.isEmpty = false →
    shard.entryCount ≤ limits.maxShardEntries
  gcRoots : root.gcRoots.length ≤ limits.maxGcRoots.toNat

theorem validateFor_eq_ok {system : SystemArch} {repo registry : String} {limits : IndexLimits} :
    root.validateFor X system repo registry limits = .ok u ↔
      IsValid X root ∧ root.system = system ∧ root.repo = repo ∧ root.registry = registry ∧
        WithinLimits limits root := by
  have hshard : ∀ shard, validateShardLimits limits shard = .ok () ↔ (shard.isEmpty = false →
      shard.uncompressedSize ≤ limits.maxUncompressedBytes ∧
        shard.entryCount ≤ limits.maxShardEntries) := by
    intro shard
    unfold validateShardLimits
    cases shard.isEmpty <;> simp
  simp only [validateFor, bind_eq_ok, validateStructure_eq_ok, ensure_eq_ok, checkAll_eq_ok, hshard]
  constructor
  · rintro ⟨_, hvalid, _, hsystem, _, ⟨hrepo, hregistry⟩, _, hshards, hroots⟩
    exact ⟨hvalid, hsystem, hrepo, hregistry, fun s hs he => (hshards s hs he).1,
      fun s hs he => (hshards s hs he).2, hroots⟩
  · rintro ⟨hvalid, hsystem, hrepo, hregistry, hlimits⟩
    exact ⟨(), hvalid, (), hsystem, (), ⟨hrepo, hregistry⟩, (),
      fun s hs he => ⟨hlimits.uncompressed s hs he, hlimits.entries s hs he⟩, hlimits.gcRoots⟩

theorem fromJson_toJson (h : IsValid X root) (hroots : ∀ hash ∈ root.gcRoots, hash.IsCanonical) :
    fromJson X root.toJson = .ok root := by
  have hshards : list (ShardDescriptor.fromJson X) (.arr (root.shards.map ShardDescriptor.toJson)) =
      .ok root.shards :=
    list_arr fun shard hshard => ShardDescriptor.fromJson_toJson (h.shards.valid shard hshard)
  have hgc : list StoreHash.fromJson (.arr (root.gcRoots.map StoreHash.toJson)) = .ok root.gcRoots :=
    list_arr fun hash hhash => StoreHash.fromJson_toJson (hroots hash hhash)
  have hvalid : root.validateStructure X = .ok () := validateStructure_eq_ok.mpr h
  unfold fromJson toJson
  rw [record_obj (by simp)]
  simp [field, optionField, List.lookup_cons, hshards, hgc, hvalid]

end ShardedArchCacheIndexData

/-! ## Payloads -/

namespace ShardDataPayload

variable {payload : ShardDataPayload} {u : Unit}

/-- A payload that `validate_structure` accepts. -/
structure IsValid (X : Crates) (payload : ShardDataPayload) : Prop where
  version : payload.version = schemaVersionV8
  id : payload.shardId < 1024
  shardPrefix : payload.shardPrefix = shardIdToPrefix payload.shardId
  entries : ∀ hash entry, payload.entries.lookup hash = some entry →
    entry.validateStructure X = .ok () ∧ hash.shardId = payload.shardId ∧
      entry.system.any SystemArch.isKnown = true ∧ entry.storeHash = some hash

theorem validateStructure_eq_ok : payload.validateStructure X = .ok u ↔ IsValid X payload := by
  simp only [validateStructure, bind_eq_ok, ensure_eq_ok, checkAll_eq_ok, validateEntry,
    mapErr_eq_ok]
  constructor
  · rintro ⟨_, hversion, _, hid, _, htext, hentries⟩
    refine ⟨hversion, hid, htext, fun hash entry hlookup => ?_⟩
    obtain ⟨_, hvalid, _, hshard, _, hknown, hstore⟩ :=
      hentries (hash, entry) (HashMap.mem_toList_iff.mpr hlookup)
    exact ⟨hvalid, hshard, hknown, hstore⟩
  · intro h
    refine ⟨(), h.version, (), h.id, (), h.shardPrefix, ?_⟩
    rintro ⟨hash, entry⟩ hmem
    obtain ⟨hvalid, hshard, hknown, hstore⟩ := h.entries hash entry (HashMap.mem_toList_iff.mp hmem)
    exact ⟨(), hvalid, (), hshard, (), hknown, hstore⟩

/-- What `validate_for` asks of a payload beyond its structure. -/
structure IsFor (shardId : UInt16) (system : SystemArch) (limits : IndexLimits)
    (payload : ShardDataPayload) : Prop where
  id : payload.shardId = shardId
  size : payload.entries.size ≤ limits.maxShardEntries.toNat
  system : ∀ hash entry, payload.entries.lookup hash = some entry → entry.system = some system
  narSize : ∀ hash entry, payload.entries.lookup hash = some entry →
    entry.narSize ≤ limits.maxNarSize

theorem validateFor_eq_ok {shardId : UInt16} {system : SystemArch} {limits : IndexLimits} :
    payload.validateFor X shardId system limits = .ok u ↔
      IsValid X payload ∧ IsFor shardId system limits payload := by
  simp only [validateFor, bind_eq_ok, validateStructure_eq_ok, ensure_eq_ok, checkAll_eq_ok,
    validateEntryFor]
  constructor
  · rintro ⟨_, hvalid, _, ⟨_, hid⟩, _, _, _, hsize, hentries⟩
    refine ⟨hvalid, hid, hsize, fun hash entry hlookup => ?_, fun hash entry hlookup => ?_⟩
    · exact (hentries (hash, entry) (HashMap.mem_toList_iff.mpr hlookup)).choose_spec.1
    · exact (hentries (hash, entry) (HashMap.mem_toList_iff.mpr hlookup)).choose_spec.2
  · rintro ⟨hvalid, hfor⟩
    refine ⟨(), hvalid, (), ⟨hfor.id ▸ hvalid.id, hfor.id⟩, (), hfor.id ▸ hvalid.shardPrefix, (),
      hfor.size, ?_⟩
    rintro ⟨hash, entry⟩ hmem
    have hlookup := HashMap.mem_toList_iff.mp hmem
    exact ⟨(), hfor.system hash entry hlookup, hfor.narSize hash entry hlookup⟩

@[simp] theorem validateMerkleHash_eq_ok {expected : String} :
    payload.validateMerkleHash X expected = .ok u ↔ payload.computeMerkleHash X = .ok expected := by
  simp only [validateMerkleHash, bind_eq_ok, ensure_eq_ok]
  constructor
  · rintro ⟨_, h, rfl⟩
    exact h
  · intro h
    exact ⟨_, h, rfl⟩

theorem fromJson_toJson (h : IsValid X payload)
    (hdigests : ∀ hash entry, payload.entries.lookup hash = some entry →
      entry.narDigest.IsCanonical) :
    fromJson X payload.toJson = .ok payload := by
  have hentries : entriesFromJson X (entriesToJson payload.entries) = .ok payload.entries := by
    apply map_ofMap
    intro hash entry hlookup
    obtain ⟨hvalid, _, _, hstore⟩ := h.entries hash entry hlookup
    have hcanonical := IndexEntry.isCanonical_storeHash hstore
    unfold StoreHash.IsCanonical at hcanonical
    exact ⟨by simp [StoreHash.ofText, hcanonical],
      IndexEntry.fromJson_toJson hvalid (hdigests hash entry hlookup)⟩
  have hvalid : payload.validateStructure X = .ok () := validateStructure_eq_ok.mpr h
  unfold fromJson toJson
  rw [record_obj (by simp)]
  simp [field, List.lookup_cons, hentries, hvalid]

/-- A payload whose Merkle hash was computed holds canonical digests. -/
theorem isCanonical_of_computeMerkleHash {hash : String}
    (h : payload.computeMerkleHash X = .ok hash) :
    ∀ key entry, payload.entries.lookup key = some entry → entry.narDigest.IsCanonical := by
  intro key entry hlookup
  obtain ⟨_, leaves, hleaves, _⟩ := computeShardMerkleHash_eq_ok.mp h
  obtain ⟨leaf, _, hleaf⟩ := collect_mem hleaves (mem_sortedEntries.mpr hlookup)
  simp only [bind_eq_ok, entryLeafEncoding, canonicalDigestBytes_eq_ok] at hleaf
  obtain ⟨_, _, d, hd, _⟩ := hleaf
  rw [NarDigest.IsCanonical, hd, parse_formatDigest, ← hd]

/-- A valid payload with canonical digests has a Merkle hash. -/
theorem exists_computeMerkleHash (h : IsValid X payload)
    (hdigests : ∀ hash entry, payload.entries.lookup hash = some entry →
      ∃ digest, entry.narDigest.val = formatDigest digest) :
    ∃ hash, payload.computeMerkleHash X = .ok hash := by
  have hleaf : ∀ item ∈ sortedEntries payload.entries, ∃ leaf, (do
      validateEntryIdentity X item.1 item.2 payload.shardId
      entryLeafEncoding item.1 item.2) = .ok leaf := by
    rintro ⟨hash, entry⟩ hitem
    have hlookup := mem_sortedEntries.mp hitem
    obtain ⟨hvalid, hshard, _, hstore⟩ := h.entries hash entry hlookup
    obtain ⟨digest, hdigest⟩ := hdigests hash entry hlookup
    have hcanonical := IndexEntry.isCanonical_storeHash hstore
    simp only [bind_eq_ok, validateEntryIdentity, mapErr_eq_ok, ensure_eq_ok, entryLeafEncoding,
      canonicalDigestBytes_eq_ok, pure_eq_ok]
    exact ⟨_, (), ⟨hash, hcanonical, (), hvalid, (), hshard, hstore⟩, digest, hdigest, rfl⟩
  choose! leaf hleaves using hleaf
  have hcollect : shardLeafEncodings X payload.shardId payload.entries = .ok _ :=
    collect_of_map hleaves
  exact ⟨_, computeShardMerkleHash_eq_ok.mpr ⟨h.id, _, hcollect, rfl⟩⟩

end ShardDataPayload

end NixCache.Core
