import NixCache.Core.Proofs.ShardMerkle
import Mathlib.Data.List.Perm.Subperm
/-!
# Descriptor sets, their Merkle root and their difference

`index_shard_descriptors` accepts a list exactly when it is a permutation of one valid descriptor
for each shard in order.  The root and the difference are functions of that ordered list, and the
root determines it when the hash function does not collide on the messages hashed for it.
-/

namespace NixCache.Core

open NixCache.Lib NixCache.Lib.Result NixCache.Lib.Encoding NixCache.Lib.MerkleTree CanonicalEncoder

variable {X : Crates} {shards shards' ordered ordered' : List ShardDescriptor}

/-! ## Slotting -/

/-- The slots after the descriptors in `done` were placed. -/
def slotsOf (done : List ShardDescriptor) : Slots :=
  (List.range numShards).map fun id => done.find? fun descriptor => descriptor.shardId.toNat = id

theorem getElem?_slotsOf (done : List ShardDescriptor) {id : Nat} (h : id < numShards) :
    (slotsOf done)[id]? = some (done.find? fun descriptor => descriptor.shardId.toNat = id) := by
  rw [slotsOf, List.getElem?_map, List.getElem?_range h, Option.map_some]

theorem length_slotsOf (done : List ShardDescriptor) : (slotsOf done).length = numShards := by
  simp [slotsOf]

theorem slotsOf_nil : slotsOf [] = List.replicate numShards none := by
  simp [slotsOf, List.map_const']

theorem toNat_lt_numShards {id : UInt16} (h : id < 1024) : id.toNat < numShards := by
  simpa [numShards] using UInt16.lt_iff_toNat_lt.mp h

theorem getD_slotsOf_eq_none {done : List ShardDescriptor} {id : UInt16} (h : id < 1024) :
    (slotsOf done).getD id.toNat none = none ↔ ∀ other ∈ done, other.shardId ≠ id := by
  rw [List.getD_eq_getElem?_getD, getElem?_slotsOf done (toNat_lt_numShards h), Option.getD_some,
    List.find?_eq_none]
  simp [UInt16.toNat_inj]

theorem slotsOf_append {done : List ShardDescriptor} {descriptor : ShardDescriptor}
    (hfresh : ∀ other ∈ done, other.shardId ≠ descriptor.shardId) :
    slotsOf (done ++ [descriptor]) =
      (slotsOf done).set descriptor.shardId.toNat (some descriptor) := by
  apply List.ext_getElem?
  intro id
  rw [List.getElem?_set, length_slotsOf]
  by_cases hid : id < numShards
  · rw [getElem?_slotsOf _ hid, List.find?_append]
    by_cases heq : descriptor.shardId.toNat = id
    · have hnone : (done.find? fun other => other.shardId.toNat = id) = none := by
        rw [List.find?_eq_none]
        intro other hother
        have hne := hfresh other hother
        rw [← heq]
        simpa [UInt16.toNat_inj] using hne
      simp [hnone, heq, hid]
    · simp [heq, getElem?_slotsOf _ hid]
  · have hnone : ∀ done : List ShardDescriptor, (slotsOf done)[id]? = none := by
      intro done
      rw [List.getElem?_eq_none_iff, length_slotsOf]
      omega
    rw [hnone, hnone]
    split
    · rw [if_neg (by omega)]
    · rfl

-- From here on the 1024 slots are never computed.
attribute [local irreducible] slotsOf

/-- What the loop has to find true of the descriptors still to come. -/
def Placeable (X : Crates) (done rest : List ShardDescriptor) : Prop :=
  (∀ descriptor ∈ rest, descriptor.shardId < 1024 ∧ descriptor.validateStructure X = .ok ()) ∧
    (rest.map ShardDescriptor.shardId).Nodup ∧
    ∀ descriptor ∈ rest, ∀ other ∈ done, other.shardId ≠ descriptor.shardId

theorem fillSlot_eq_ok {done : List ShardDescriptor} {descriptor : ShardDescriptor} {slots : Slots} :
    fillSlot X (slotsOf done) descriptor = .ok slots ↔
      descriptor.shardId < 1024 ∧ (∀ other ∈ done, other.shardId ≠ descriptor.shardId) ∧
        descriptor.validateStructure X = .ok () ∧ slots = slotsOf (done ++ [descriptor]) := by
  simp only [fillSlot, validateShardId, bind_eq_ok, ensure_eq_ok, pure_eq_ok]
  constructor
  · rintro ⟨-, hid, -, hfree, _, hvalid, rfl⟩
    have hfresh := (getD_slotsOf_eq_none hid).mp hfree
    exact ⟨hid, hfresh, hvalid, (slotsOf_append hfresh).symm⟩
  · rintro ⟨hid, hfresh, hvalid, rfl⟩
    exact ⟨(), hid, (), (getD_slotsOf_eq_none hid).mpr hfresh, (), hvalid,
      (slotsOf_append hfresh).symm⟩

theorem foldM_fillSlot_eq_ok {done rest : List ShardDescriptor} {slots : Slots} :
    foldM (fillSlot X) (slotsOf done) rest = .ok slots ↔
      Placeable X done rest ∧ slots = slotsOf (done ++ rest) := by
  induction rest generalizing done with
  | nil => simp [foldM, Placeable, eq_comm]
  | cons descriptor rest ih =>
      simp only [foldM, bind_eq_ok, fillSlot_eq_ok]
      constructor
      · rintro ⟨_, ⟨hid, hfresh, hvalid, rfl⟩, hrest⟩
        obtain ⟨⟨hvalids, hnodup, hdone⟩, rfl⟩ := ih.mp hrest
        refine ⟨⟨?_, ?_, ?_⟩, by rw [List.append_assoc]; rfl⟩
        · intro d hd
          rcases List.mem_cons.mp hd with rfl | hd
          · exact ⟨hid, hvalid⟩
          · exact hvalids d hd
        · rw [List.map_cons, List.nodup_cons]
          refine ⟨fun hmem => ?_, hnodup⟩
          obtain ⟨d, hd, hsame⟩ := List.mem_map.mp hmem
          exact hdone d hd descriptor (by simp) hsame.symm
        · intro d hd other hother
          rcases List.mem_cons.mp hd with rfl | hd
          · exact hfresh other hother
          · exact hdone d hd other (by simp [hother])
      · rintro ⟨⟨hvalids, hnodup, hdone⟩, rfl⟩
        rw [List.map_cons, List.nodup_cons] at hnodup
        have hhead := hvalids descriptor (by simp)
        refine ⟨_, ⟨hhead.1, hdone descriptor (by simp), hhead.2, rfl⟩, ih.mpr ⟨⟨?_, hnodup.2, ?_⟩,
          by rw [List.append_assoc]; rfl⟩⟩
        · exact fun d hd => hvalids d (by simp [hd])
        · intro d hd other hother
          rcases List.mem_append.mp hother with hother | hother
          · exact hdone d (by simp [hd]) other hother
          · rw [List.mem_singleton] at hother
            subst hother
            exact fun hsame => hnodup.1 (List.mem_map.mpr ⟨d, hd, hsame.symm⟩)

theorem collect_slots_eq_ok {slots : Slots} {n : Nat} :
    collect (fun slot => okOr (CoreError.invalidShardSet
        ("missing shard id " ++ toString slot.2)) slot.1) (slots.zipIdx n) = .ok ordered ↔
      slots = ordered.map some := by
  induction slots generalizing ordered n with
  | nil =>
      rw [List.zipIdx_nil, collect, Except.ok.injEq, eq_comm, eq_comm (a := []), List.map_eq_nil_iff]
  | cons slot slots ih =>
      simp only [List.zipIdx_cons, collect, bind_eq_ok, okOr_eq_ok, pure_eq_ok, ih]
      constructor
      · rintro ⟨d, rfl, rest, rfl, rfl⟩
        rfl
      · intro h
        cases ordered with
        | nil => simp at h
        | cons d rest =>
            rw [List.map_cons, List.cons.injEq] at h
            exact ⟨d, h.1, rest, h.2, rfl⟩

/-! ## Ordered descriptor lists -/

/-- One valid descriptor for each shard, in order. -/
structure IsIndexed (X : Crates) (ordered : List ShardDescriptor) : Prop where
  length : ordered.length = numShards
  ids : ordered.map (fun descriptor => descriptor.shardId.toNat) = List.range numShards
  valid : ∀ descriptor ∈ ordered, descriptor.validateStructure X = .ok ()

namespace IsIndexed

theorem nodup_ids (h : IsIndexed X ordered) : (ordered.map ShardDescriptor.shardId).Nodup := by
  have hnodup : (ordered.map fun descriptor => descriptor.shardId.toNat).Nodup := by
    rw [h.ids]
    exact List.nodup_range
  refine List.Nodup.of_map UInt16.toNat ?_
  rw [List.map_map]
  exact hnodup

theorem lt (h : IsIndexed X ordered) {descriptor : ShardDescriptor} (hmem : descriptor ∈ ordered) :
    descriptor.shardId < 1024 := by
  have : descriptor.shardId.toNat ∈ List.range numShards := by
    rw [← h.ids]
    exact List.mem_map.mpr ⟨descriptor, hmem, rfl⟩
  rw [UInt16.lt_iff_toNat_lt]
  simpa [numShards] using this

theorem pairwise_lt (h : IsIndexed X ordered) :
    ordered.Pairwise fun left right => left.shardId < right.shardId := by
  have hrange : (ordered.map fun descriptor => descriptor.shardId.toNat).Pairwise (· < ·) := by
    rw [h.ids]
    exact List.pairwise_lt_range
  exact (List.pairwise_map.mp hrange).imp fun hlt => UInt16.lt_iff_toNat_lt.mpr hlt

/-- Two descriptors of one list with one id are the same descriptor. -/
theorem eq_of_shardId (h : IsIndexed X ordered) {a b : ShardDescriptor} (ha : a ∈ ordered)
    (hb : b ∈ ordered) (hid : a.shardId = b.shardId) : a = b :=
  List.inj_on_of_nodup_map h.nodup_ids ha hb hid

theorem slotsOf_eq (h : IsIndexed X ordered) (hperm : shards.Perm ordered) :
    slotsOf shards = ordered.map some := by
  apply List.ext_getElem
  · rw [length_slotsOf, List.length_map, h.length]
  intro i hi hi'
  rw [List.length_map] at hi'
  have hnum : i < numShards := by rwa [h.length] at hi'
  have hslot := getElem?_slotsOf shards hnum
  rw [List.getElem?_eq_getElem hi, Option.some.injEq] at hslot
  rw [hslot, List.getElem_map]
  have hid : (ordered[i]).shardId.toNat = i := by
    have := List.getElem_of_eq h.ids (i := i) (by simpa using hi')
    simpa using this
  have hmem : ordered[i] ∈ ordered := List.getElem_mem hi'
  cases hfind : shards.find? fun descriptor => descriptor.shardId.toNat = i with
  | none =>
      rw [List.find?_eq_none] at hfind
      exact absurd hid (by simpa using hfind _ (hperm.mem_iff.mpr hmem))
  | some found =>
      have hfoundId : found.shardId.toNat = i := by simpa using List.find?_some hfind
      have hfoundMem := hperm.mem_iff.mp (List.mem_of_find?_eq_some hfind)
      rw [h.eq_of_shardId hfoundMem hmem (UInt16.toNat_inj.mp (by rw [hfoundId, hid]))]

end IsIndexed

/-- The accepted lists are the permutations of ordered ones. -/
theorem indexShardDescriptors_eq_ok :
    indexShardDescriptors X shards = .ok ordered ↔ IsIndexed X ordered ∧ shards.Perm ordered := by
  rw [indexShardDescriptors, ← slotsOf_nil]
  simp only [bind_eq_ok, ensure_eq_ok, foldM_fillSlot_eq_ok, List.nil_append, collect_slots_eq_ok]
  constructor
  · rintro ⟨-, hlength, _, ⟨⟨hvalid, hnodup, -⟩, rfl⟩, hslots⟩
    have hcount : ordered.length = numShards := by
      rw [← length_slotsOf shards, hslots, List.length_map]
    have hfind : ∀ i (hi : i < ordered.length),
        (shards.find? fun descriptor => descriptor.shardId.toNat = i) = some ordered[i] := by
      intro i hi
      have hslot := getElem?_slotsOf shards (show i < numShards by omega)
      rw [hslots, List.getElem?_map, List.getElem?_eq_getElem hi, Option.map_some,
        Option.some.injEq] at hslot
      exact hslot.symm
    have hids : ordered.map (fun descriptor => descriptor.shardId.toNat) =
        List.range numShards := by
      apply List.ext_getElem
      · rw [List.length_map, List.length_range, hcount]
      · intro i hi _
        rw [List.length_map] at hi
        simpa using List.find?_some (hfind i hi)
    have hsubset : ordered ⊆ shards := by
      intro d hd
      obtain ⟨i, hi, rfl⟩ := List.getElem_of_mem hd
      exact List.mem_of_find?_eq_some (hfind i hi)
    have hindexed : IsIndexed X ordered :=
      ⟨hcount, hids, fun d hd => (hvalid d (hsubset hd)).2⟩
    refine ⟨hindexed, ?_⟩
    exact (((hindexed.nodup_ids.of_map _).subperm hsubset).perm_of_length_le
      (by rw [hlength, hcount])).symm
  · rintro ⟨hindexed, hperm⟩
    refine ⟨(), by rw [hperm.length_eq, hindexed.length], _, ⟨⟨?_, ?_, by simp⟩, rfl⟩,
      hindexed.slotsOf_eq hperm⟩
    · intro d hd
      have hmem := hperm.mem_iff.mp hd
      exact ⟨hindexed.lt hmem, hindexed.valid d hmem⟩
    · exact ((hperm.map _).nodup_iff).mpr hindexed.nodup_ids

/-- A leaf and the descriptor it was made from. -/
def IsDescriptorLeaf (descriptor : ShardDescriptor) (leaf : List UInt8) : Prop :=
  ∃ blobDigest merkleHash,
    (match blobDigest with
      | none => descriptor.blobDigest = ""
      | some d => descriptor.blobDigest = formatDigest d) ∧
    descriptor.merkleHash = formatDigest merkleHash ∧
    leaf = descriptorLeafMessage descriptor blobDigest merkleHash

theorem isEmpty_iff {text : String} : Str.isEmpty text = true ↔ text = "" := by
  rw [Str.isEmpty, List.isEmpty_iff]
  constructor
  · intro h
    exact String.toList_inj.mp (by rw [h]; rfl)
  · rintro rfl
    rfl

theorem descriptorLeafEncoding_eq_ok {descriptor : ShardDescriptor} {leaf : List UInt8} :
    descriptorLeafEncoding descriptor = .ok leaf ↔ IsDescriptorLeaf descriptor leaf := by
  unfold descriptorLeafEncoding IsDescriptorLeaf
  by_cases hempty : Str.isEmpty descriptor.blobDigest = true
  · have hblob := isEmpty_iff.mp hempty
    simp only [hempty, if_true, bind_eq_ok, pure_eq_ok, canonicalDigestBytes_eq_ok]
    constructor
    · rintro ⟨_, rfl, d, hd, rfl⟩
      exact ⟨none, d, hblob, hd, rfl⟩
    · rintro ⟨blobDigest, d, hmatch, hd, rfl⟩
      cases blobDigest with
      | none => exact ⟨none, rfl, d, hd, rfl⟩
      | some b =>
          simp only at hmatch
          rw [hmatch, formatDigest_ne_empty] at hempty
          exact absurd hempty (by simp)
  · rw [if_neg hempty]
    simp only [bind_eq_ok, map_eq_ok, pure_eq_ok, canonicalDigestBytes_eq_ok]
    constructor
    · rintro ⟨_, ⟨b, hb, rfl⟩, d, hd, rfl⟩
      exact ⟨some b, d, hb, hd, rfl⟩
    · rintro ⟨blobDigest, d, hmatch, hd, rfl⟩
      cases blobDigest with
      | none => exact absurd (isEmpty_iff.mpr hmatch) hempty
      | some b => exact ⟨some b, ⟨b, hmatch, rfl⟩, d, hd, rfl⟩

theorem shardPrefix_of_valid {descriptor : ShardDescriptor}
    (h : descriptor.validateStructure X = .ok ()) :
    descriptor.shardPrefix = shardIdToPrefix descriptor.shardId := by
  simp only [ShardDescriptor.validateStructure, bind_eq_ok, ensure_eq_ok] at h
  obtain ⟨-, -, -, htext, -⟩ := h
  exact htext

theorem IsDescriptorLeaf.unique {a b : ShardDescriptor} {leaf : List UInt8}
    (ha : IsDescriptorLeaf a leaf) (hb : IsDescriptorLeaf b leaf)
    (hvalid : a.validateStructure X = .ok ()) (hvalid' : b.validateStructure X = .ok ()) :
    a = b := by
  obtain ⟨blob, merkle, hblob, hmerkle, rfl⟩ := ha
  obtain ⟨blob', merkle', hblob', hmerkle', h⟩ := hb
  have h := message_inj h
  simp only [List.flatten_cons] at h
  obtain ⟨hid, h⟩ := u16_inj h
  have htext : a.shardPrefix = b.shardPrefix := by
    rw [shardPrefix_of_valid hvalid, shardPrefix_of_valid hvalid', hid]
  rw [htext] at h
  have h := List.append_cancel_left h
  obtain ⟨hblobs, h⟩ := optionDigest_inj h
  obtain ⟨hcompressed, h⟩ := u64_inj h
  obtain ⟨huncompressed, h⟩ := u64_inj h
  obtain ⟨hcount, h⟩ := u64_inj h
  obtain ⟨hdigest, -⟩ := digest_inj h
  have hblobText : a.blobDigest = b.blobDigest := by
    subst hblobs
    cases blob with
    | none => rw [hblob, hblob']
    | some d => rw [hblob, hblob']
  exact ShardDescriptor.ext hid htext hblobText hcompressed huncompressed hcount
    (by rw [hmerkle, hmerkle', hdigest])

theorem computeMerkleRoot_eq_ok {root : String} :
    computeMerkleRoot X shards = .ok root ↔
      ∃ ordered leaves, indexShardDescriptors X shards = .ok ordered ∧
        List.Forall₂ IsDescriptorLeaf ordered leaves ∧
        root = formatDigest (X.sha256 (rootRootEncoding
          (layeredRoot X (leaves.map X.sha256) rootNodeDomain))) := by
  simp only [computeMerkleRoot, bind_eq_ok, collect_eq_ok, descriptorLeafEncoding_eq_ok, pure_eq_ok]
  constructor
  · rintro ⟨ordered, hordered, leaves, hleaves, rfl⟩
    exact ⟨ordered, leaves, hordered, hleaves, rfl⟩
  · rintro ⟨ordered, leaves, hordered, hleaves, rfl⟩
    exact ⟨ordered, hordered, leaves, hleaves, rfl⟩

end NixCache.Core
