import NixCache.Core.Proofs.CanonicalEncoder
import NixCache.Core.Proofs.Purge
/-!
# The Merkle hash of a shard is the identity of its content

If the hash function does not collide on the messages that two computations hash, their results
are equal exactly when they are about the same shard and the same map of entries.
-/

namespace NixCache.Core

open NixCache.Lib NixCache.Lib.Result NixCache.Lib.Encoding NixCache.Lib.MerkleTree CanonicalEncoder

variable {X : Crates} {shardId shardId' : UInt16} {entries entries' : HashMap StoreHash IndexEntry}

/-! ## Sorting does not see the iteration order -/

theorem sortedEntries_perm (entries : HashMap StoreHash IndexEntry) :
    (sortedEntries entries).Perm entries.toList :=
  List.perm_insertionSort _ _

theorem mem_sortedEntries {hash : StoreHash} {entry : IndexEntry} :
    (hash, entry) ∈ sortedEntries entries ↔ entries.lookup hash = some entry := by
  rw [(sortedEntries_perm entries).mem_iff, HashMap.mem_toList_iff]

theorem length_sortedEntries (entries : HashMap StoreHash IndexEntry) :
    (sortedEntries entries).length = entries.size := by
  rw [(sortedEntries_perm entries).length_eq, HashMap.toList, List.length_map, HashMap.size]

theorem sortedEntries_pairwise (entries : HashMap StoreHash IndexEntry) :
    (sortedEntries entries).Pairwise fun left right => left.1.val ≤ right.1.val := by
  have htotal : Std.Total fun left right : StoreHash × IndexEntry => left.1 ≤ right.1 :=
    ⟨fun left right => le_total left.1.val right.1.val⟩
  have htrans : IsTrans _ fun left right : StoreHash × IndexEntry => left.1 ≤ right.1 :=
    ⟨fun _ _ _ (hab : _ ≤ _) (hbc : _ ≤ _) => le_trans (α := String) hab hbc⟩
  exact List.pairwise_insertionSort _ _

theorem sortedEntries_congr (h : ∀ hash, entries.lookup hash = entries'.lookup hash) :
    sortedEntries entries = sortedEntries entries' := by
  refine List.Perm.eq_of_pairwise ?_ (sortedEntries_pairwise entries)
    (sortedEntries_pairwise entries') ?_
  · rintro ⟨a, e⟩ ⟨b, e'⟩ ha hb hab hba
    have hkey : a = b := by
      obtain ⟨a⟩ := a
      obtain ⟨b⟩ := b
      exact congrArg _ (le_antisymm (α := String) hab hba)
    subst hkey
    rw [mem_sortedEntries, h] at ha
    rw [mem_sortedEntries, ha] at hb
    rw [Option.some.inj hb]
  · refine (sortedEntries_perm entries).trans (.trans ?_ (sortedEntries_perm entries').symm)
    exact (HashMap.entries_perm_of_lookup_eq h).map _

theorem lookup_eq_of_sortedEntries (h : sortedEntries entries = sortedEntries entries')
    (hash : StoreHash) : entries.lookup hash = entries'.lookup hash := by
  apply Option.ext
  intro entry
  rw [← mem_sortedEntries, h, mem_sortedEntries]

/-! ## What is hashed -/

/-- Every message that `compute_shard_merkle_hash` hashes. -/
def shardMessages (X : Crates) (shardId : UInt16) (entries : HashMap StoreHash IndexEntry) :
    List (List UInt8) :=
  match shardLeafEncodings X shardId entries with
  | .error _ => []
  | .ok leaves =>
      shardRootEncoding shardId entries.size
          (layeredRoot X (leaves.map X.sha256) shardNodeDomain) ::
        (leaves ++ layeredEncodings X (leaves.map X.sha256) shardNodeDomain)

theorem computeShardMerkleHash_eq_ok {hash : String} :
    computeShardMerkleHash X shardId entries = .ok hash ↔
      shardId < 1024 ∧ ∃ leaves, shardLeafEncodings X shardId entries = .ok leaves ∧
        hash = formatDigest (X.sha256 (shardRootEncoding shardId entries.size
          (layeredRoot X (leaves.map X.sha256) shardNodeDomain))) := by
  simp only [computeShardMerkleHash, computeShardRootBytes, validateShardId, bind_eq_ok,
    ensure_eq_ok, pure_eq_ok]
  constructor
  · rintro ⟨root, ⟨-, hid, leaves, hleaves, rfl⟩, rfl⟩
    exact ⟨hid, leaves, hleaves, rfl⟩
  · rintro ⟨hid, leaves, hleaves, rfl⟩
    exact ⟨_, ⟨(), hid, leaves, hleaves, rfl⟩, rfl⟩

theorem len_of_parse {text : String} {hash : StoreHash} (h : StoreHash.parse text = .ok hash) :
    Str.len hash.val = 32 := by
  simp only [StoreHash.parse, bind_eq_ok, ensure_eq_ok, pure_eq_ok] at h
  obtain ⟨-, hlen, -, -, rfl⟩ := h
  exact hlen

theorem validateStorePathBasename_parse {value : String} {hash : StoreHash}
    (h : validateStorePathBasename value = .ok hash) : ∃ text, StoreHash.parse text = .ok hash := by
  simp only [validateStorePathBasename, bind_eq_ok, okOr_eq_ok, ensure_eq_ok] at h
  obtain ⟨⟨text, name⟩, -, -, -, hparse⟩ := h
  exact ⟨text, hparse⟩

theorem validateStorePath_parse {value : String} {hash : StoreHash}
    (h : validateStorePath value = .ok hash) : ∃ text, StoreHash.parse text = .ok hash := by
  simp only [validateStorePath, bind_eq_ok, okOr_eq_ok, ensure_eq_ok] at h
  obtain ⟨basename, -, -, -, hbasename⟩ := h
  exact validateStorePathBasename_parse hbasename

/-- A key that is the store hash of its entry has 32 bytes. -/
theorem textFits_of_storeHash {entry : IndexEntry} {hash : StoreHash}
    (h : entry.storeHash = some hash) : TextFits hash.val := by
  rw [IndexEntry.storeHash, NarInfoMeta.storeHash] at h
  cases hpath : validateStorePath entry.narinfoMeta.storePath with
  | error error => simp [hpath, Except.toOption] at h
  | ok hash' =>
      obtain rfl : hash' = hash := by simpa [hpath, Except.toOption] using h
      obtain ⟨text, hparse⟩ := validateStorePath_parse hpath
      rw [TextFits, len_of_parse hparse]
      decide

/-- A leaf and the entry it was made from. -/
def IsLeafOf (X : Crates) (shardId : UInt16) (item : StoreHash × IndexEntry)
    (leaf : List UInt8) : Prop :=
  validateEntryIdentity X item.1 item.2 shardId = .ok () ∧
    ∃ d, item.2.narDigest.val = formatDigest d ∧ leaf = entryLeafMessage item.1 item.2 d

theorem shardLeafEncodings_eq_ok {leaves : List (List UInt8)} :
    shardLeafEncodings X shardId entries = .ok leaves ↔
      List.Forall₂ (IsLeafOf X shardId) (sortedEntries entries) leaves := by
  have hitem : ∀ item leaf, (do
      validateEntryIdentity X item.1 item.2 shardId
      entryLeafEncoding item.1 item.2) = .ok leaf ↔ IsLeafOf X shardId item leaf := by
    intro item leaf
    simp only [bind_eq_ok, entryLeafEncoding, canonicalDigestBytes_eq_ok, pure_eq_ok, IsLeafOf]
    constructor
    · rintro ⟨_, hvalid, d, hd, rfl⟩
      exact ⟨hvalid, d, hd, rfl⟩
    · rintro ⟨hvalid, d, hd, rfl⟩
      exact ⟨(), hvalid, d, hd, rfl⟩
  simp only [shardLeafEncodings, collect_eq_ok, hitem]

theorem IsLeafOf.storeHash {item : StoreHash × IndexEntry} {leaf : List UInt8}
    (h : IsLeafOf X shardId item leaf) : item.2.storeHash = some item.1 := by
  have hvalid := h.1
  simp only [validateEntryIdentity, bind_eq_ok, mapErr_eq_ok, ensure_eq_ok] at hvalid
  obtain ⟨-, -, -, -, -, -, hstore⟩ := hvalid
  exact hstore

theorem IsLeafOf.unique {item item' : StoreHash × IndexEntry} {leaf : List UInt8}
    (h : IsLeafOf X shardId item leaf) (h' : IsLeafOf X shardId' item' leaf)
    (hmem : item.2.InMemory) (hmem' : item'.2.InMemory) : item = item' := by
  obtain ⟨-, d, hd, hleaf⟩ := id h
  obtain ⟨-, d', hd', hleaf'⟩ := id h'
  rw [hleaf] at hleaf'
  obtain ⟨hkey, hentry⟩ := entryLeafMessage_inj (textFits_of_storeHash h.storeHash)
    (textFits_of_storeHash h'.storeHash) hmem hmem' hd hd' hleaf'
  exact Prod.ext hkey hentry

theorem forall₂_isLeafOf_unique {items items' : List (StoreHash × IndexEntry)}
    {leaves : List (List UInt8)} (h : List.Forall₂ (IsLeafOf X shardId) items leaves)
    (h' : List.Forall₂ (IsLeafOf X shardId') items' leaves)
    (hmem : ∀ item ∈ items, item.2.InMemory) (hmem' : ∀ item ∈ items', item.2.InMemory) :
    items = items' := by
  induction h generalizing items' with
  | nil =>
      cases h'
      rfl
  | cons hleaf _ ih =>
      cases h' with
      | cons hleaf' htail' =>
          rw [hleaf.unique hleaf' (hmem _ (by simp)) (hmem' _ (by simp)),
            ih htail' (fun item hi => hmem item (by simp [hi]))
              (fun item hi => hmem' item (by simp [hi]))]

theorem shardRootEncoding_inj {count count' : Nat} {root root' : DigestBytes}
    (hcount : count < 2 ^ 64) (hcount' : count' < 2 ^ 64)
    (h : shardRootEncoding shardId count root = shardRootEncoding shardId' count' root') :
    shardId = shardId' ∧ count = count' ∧ root = root' := by
  have h := message_inj h
  simp only [List.flatten_cons] at h
  obtain ⟨hid, h⟩ := u16_inj h
  subst hid
  have h := List.append_cancel_left h
  obtain ⟨hcounts, h⟩ := selfDelimiting_bigEndian 8 _ _ _ _ hcount hcount' h
  exact ⟨rfl, hcounts, (digest_inj h).1⟩

/-- The hash depends on the map, not on its iteration order. -/
theorem computeShardMerkleHash_congr (h : ∀ hash, entries.lookup hash = entries'.lookup hash) :
    computeShardMerkleHash X shardId entries = computeShardMerkleHash X shardId entries' := by
  rw [computeShardMerkleHash, computeShardMerkleHash, computeShardRootBytes, computeShardRootBytes,
    shardLeafEncodings, shardLeafEncodings, sortedEntries_congr h, HashMap.size_eq_of_lookup_eq h]

theorem lookup_eq_of_computeShardMerkleHash {hash : String}
    (h : computeShardMerkleHash X shardId entries = .ok hash)
    (h' : computeShardMerkleHash X shardId' entries' = .ok hash)
    (hmem : InMemory entries) (hmem' : InMemory entries')
    (hfree : CollisionFree X.sha256
      (shardMessages X shardId entries ++ shardMessages X shardId' entries')) :
    shardId = shardId' ∧ ∀ key, entries.lookup key = entries'.lookup key := by
  obtain ⟨-, leaves, hleaves, hroot⟩ := computeShardMerkleHash_eq_ok.mp h
  obtain ⟨-, leaves', hleaves', hroot'⟩ := computeShardMerkleHash_eq_ok.mp h'
  simp only [shardMessages, hleaves, hleaves'] at hfree
  rw [hroot] at hroot'
  have hmessage := hfree _ (by simp) _ (by simp) (formatDigest_injective hroot')
  obtain ⟨hid, hcount, htree⟩ := shardRootEncoding_inj hmem.1 hmem'.1 hmessage
  rw [shardLeafEncodings_eq_ok] at hleaves hleaves'
  have hlength : leaves.length = leaves'.length := by
    rw [← hleaves.length_eq, ← hleaves'.length_eq, length_sortedEntries, length_sortedEntries,
      hcount]
  have hdigests := layeredRoot_injective (by simpa using hlength) (hfree.mono fun z hz => by
    rcases List.mem_append.mp hz with hz | hz <;> simp [hz]) htree
  have hsame := (hfree.mono fun z hz => by
    rcases List.mem_append.mp hz with hz | hz <;> simp [hz] :
      CollisionFree X.sha256 (leaves ++ leaves')).map_inj hdigests
  subst hsame
  refine ⟨hid, lookup_eq_of_sortedEntries (forall₂_isLeafOf_unique hleaves hleaves' ?_ ?_)⟩
  · rintro ⟨key, entry⟩ hitem
    exact hmem.2 key entry (mem_sortedEntries.mp hitem)
  · rintro ⟨key, entry⟩ hitem
    exact hmem'.2 key entry (mem_sortedEntries.mp hitem)

/-- Two accepted shards have the same Merkle hash exactly when they are the same shard with the same
entries, whatever the order in which their maps iterate. -/
theorem computeShardMerkleHash_eq_iff {hash hash' : String}
    (h : computeShardMerkleHash X shardId entries = .ok hash)
    (h' : computeShardMerkleHash X shardId' entries' = .ok hash')
    (hmem : InMemory entries) (hmem' : InMemory entries')
    (hfree : CollisionFree X.sha256
      (shardMessages X shardId entries ++ shardMessages X shardId' entries')) :
    hash = hash' ↔ shardId = shardId' ∧ ∀ key, entries.lookup key = entries'.lookup key := by
  constructor
  · rintro rfl
    exact lookup_eq_of_computeShardMerkleHash h h' hmem hmem' hfree
  · rintro ⟨rfl, hlookup⟩
    rw [computeShardMerkleHash_congr hlookup, h'] at h
    exact (Except.ok.inj h).symm

def singleEntry : HashMap StoreHash IndexEntry :=
  HashMap.ofList [(sampleHash '1', sampleEntry '1' [sampleHash '2'])]

theorem inMemory_singleEntry : InMemory singleEntry := by
  refine ⟨by decide, fun hash entry h => ?_⟩
  obtain ⟨-, rfl⟩ : hash = sampleHash '1' ∧ entry = sampleEntry '1' [sampleHash '2'] := by
    have hmem := (HashMap.lookup_ofList (by decide)).mp h
    simpa using hmem
  constructor <;> decide

/-- SHA-256 on a shard with one entry and on the empty shard with the same id. -/
theorem computeShardMerkleHash_eq_iff_singleEntry :
    ∃ hash hash', computeShardMerkleHash sampleCrates 33 singleEntry = .ok hash ∧
      computeShardMerkleHash sampleCrates 33 ∅ = .ok hash' ∧
      (hash = hash' ↔ (33 : UInt16) = 33 ∧
        ∀ key, singleEntry.lookup key = (∅ : HashMap StoreHash IndexEntry).lookup key) := by
  refine ⟨_, _, rfl, rfl, computeShardMerkleHash_eq_iff rfl rfl inMemory_singleEntry
    ⟨by decide, by simp⟩ (.of_nodup (fun d => d.bytes.take 4) ?_)⟩
  have hparts : (shardMessages sampleCrates 33 singleEntry ++ shardMessages sampleCrates 33 ∅).map
      (fun m => (sampleCrates.sha256 m).bytes.take 4) =
        [[120, 72, 56, 219], [60, 42, 216, 179], [91, 23, 128, 83], [162, 156, 178, 206]] := by
    decide +kernel
  rw [hparts]
  decide

end NixCache.Core
