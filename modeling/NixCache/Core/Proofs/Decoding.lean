import NixCache.Core.Lookup
import NixCache.Core.Proofs.Index
import NixCache.Core.Proofs.NarinfoRoundTrip
import NixCache.Lib.Text
/-!
# What the decoders return

Every hash, digest and entry that a decoder returns has passed its own check, and a name that has
passed it is looked up as it is.
-/

namespace NixCache.Core

open NixCache.Lib NixCache.Lib.Result NixCache.Lib.Json

variable {X : Crates}

/-- What the parser returns, it parses to itself. -/
theorem NarDigest.isCanonical_of_parse {text : String} {digest : NarDigest}
    (h : parse text = .ok digest) : digest.IsCanonical := by
  obtain ⟨bytes, hbytes⟩ := parse_eq_ok h
  rw [IsCanonical, hbytes, parse_formatDigest, ← hbytes]

/-! ## What a decoder returns -/

theorem StoreHash.isCanonical_of_ofText {text : String} {hash : StoreHash}
    (h : ofText text = .ok hash) : hash.IsCanonical := by
  simp only [ofText, customError_eq_ok, liftType_eq_ok] at h
  exact isCanonical_of_parse h

theorem StoreHash.isCanonical_of_fromJson {json : Json} {hash : StoreHash}
    (h : fromJson json = .ok hash) : hash.IsCanonical := by
  simp only [fromJson, bind_eq_ok] at h
  obtain ⟨text, _, hparse⟩ := h
  exact isCanonical_of_ofText hparse

theorem NarDigest.isCanonical_of_fromJson {json : Json} {digest : NarDigest}
    (h : fromJson json = .ok digest) : digest.IsCanonical := by
  simp only [fromJson, bind_eq_ok, customError_eq_ok, liftType_eq_ok] at h
  obtain ⟨text, _, hparse⟩ := h
  exact isCanonical_of_parse hparse

/-- The entry passes its check, and the decoder returns its digest as it is. -/
structure IndexEntry.IsReadable (X : Crates) (entry : IndexEntry) : Prop where
  valid : entry.validateStructure X = .ok ()
  digest : entry.narDigest.IsCanonical

theorem IndexEntry.isReadable_of_fromJson {json : Json} {entry : IndexEntry}
    (h : fromJson X json = .ok entry) : entry.IsReadable X := by
  simp only [fromJson, bind_eq_ok, customError_eq_ok, pure_eq_ok, field] at h
  obtain ⟨_, _, _, _, _, _, _, _, _, ⟨_, _, hdigest⟩, _, _, _, _, _, _, _, hvalid, rfl⟩ := h
  exact ⟨hvalid, NarDigest.isCanonical_of_fromJson hdigest⟩

theorem entries_of_entriesFromJson {json : Json} {entries : HashMap StoreHash IndexEntry}
    (h : entriesFromJson X json = .ok entries) {hash : StoreHash} {entry : IndexEntry}
    (hlookup : entries.lookup hash = some entry) : hash.IsCanonical ∧ entry.IsReadable X := by
  unfold entriesFromJson Json.map at h
  split at h
  · simp only [bind_eq_ok, pure_eq_ok] at h
    obtain ⟨pairs, hpairs, rfl⟩ := h
    obtain ⟨field, _, hfield⟩ := exists_of_mem_collect hpairs (HashMap.mem_of_lookup_ofList hlookup)
    simp only [bind_eq_ok, pure_eq_ok, Prod.mk.injEq] at hfield
    obtain ⟨_, hkey, _, hvalue, rfl, rfl⟩ := hfield
    exact ⟨StoreHash.isCanonical_of_ofText hkey, IndexEntry.isReadable_of_fromJson hvalue⟩
  · cases h

/-! ## Names -/

/-- The reverse map answers for the name of every entry. -/
theorem exists_lookup_buildNarLookupMap {entries : HashMap StoreHash IndexEntry} {hash : StoreHash}
    {entry : IndexEntry} (h : entries.lookup hash = some entry)
    (hname : Str.isEmpty entry.narBasename = false) :
    ∃ digest, (buildNarLookupMap entries).lookup entry.narBasename = some digest := by
  suffices hgen : ∀ (values : List IndexEntry) (names : HashMap String NarDigest),
      entry ∈ values ∨ (∃ digest, names.lookup entry.narBasename = some digest) →
        ∃ digest, (values.foldl insertNar names).lookup entry.narBasename = some digest from
    hgen entries.values ∅ (Or.inl (HashMap.mem_values_iff.mpr ⟨hash, h⟩))
  intro values
  induction values with
  | nil =>
      rintro names (hmem | hnames)
      · cases hmem
      · exact hnames
  | cons other values ih =>
      intro names hcases
      apply ih
      by_cases hmem : entry ∈ values
      · exact Or.inl hmem
      · refine Or.inr ?_
        have hother : other.narBasename = entry.narBasename ∨
            ∃ digest, names.lookup entry.narBasename = some digest := by
          rcases hcases with hhead | hnames
          · rcases List.mem_cons.mp hhead with rfl | htail
            · exact Or.inl rfl
            · exact absurd htail hmem
          · exact Or.inr hnames
        unfold insertNar
        by_cases hsame : other.narBasename = entry.narBasename
        · rw [hsame, hname]
          exact ⟨other.narDigest, AList.lookup_insert _⟩
        · obtain ⟨digest, hdigest⟩ := hother.resolve_left hsame
          split
          · exact ⟨digest, hdigest⟩
          · exact ⟨digest, by rw [AList.lookup_insert_ne (Ne.symm hsame), hdigest]⟩

theorem IndexEntry.validateNarBasename_of_valid {entry : IndexEntry}
    (h : entry.validateStructure X = .ok ()) : validateNarBasename entry.narBasename = .ok () := by
  simp only [validateStructure, bind_eq_ok] at h
  obtain ⟨_, _, _, _, _, hinfo, _⟩ := h
  exact (NarInfoMeta.validateStructure_eq_ok.mp hinfo).narBasename

theorem isEmpty_of_validateNarBasename {name : String} (h : validateNarBasename name = .ok ()) :
    Str.isEmpty name = false := by
  obtain ⟨hword, _⟩ := validateNarBasename_eq_ok.mp h
  rw [Bool.eq_false_iff]
  exact fun hempty => hword.1 (isEmpty_iff_toList.mp hempty)

/-- Roots and payloads that pass their check are read back as they were written, when their hashes
and digests come from the parsers. -/
theorem wireFormat_roundTrips (X : Crates) :
    (∀ root : ShardedArchCacheIndexData, root.validateStructure X = .ok () →
      (∀ hash ∈ root.gcRoots, ∃ text, StoreHash.parse text = .ok hash) →
      ShardedArchCacheIndexData.fromJson X root.toJson = .ok root) ∧
    ∀ payload : ShardDataPayload, payload.validateStructure X = .ok () →
      (∀ hash entry, payload.entries.lookup hash = some entry →
        (∃ text, StoreHash.parse text = .ok hash) ∧
          ∃ text, NarDigest.parse text = .ok entry.narDigest) →
      ShardDataPayload.fromJson X payload.toJson = .ok payload := by
  refine ⟨?_, ?_⟩
  · intro root hvalid hparsed
    apply ShardedArchCacheIndexData.fromJson_toJson
    · exact ShardedArchCacheIndexData.validateStructure_eq_ok.mp hvalid
    · intro hash hmem
      obtain ⟨text, htext⟩ := hparsed hash hmem
      exact StoreHash.isCanonical_of_parse htext
  · intro payload hvalid hparsed
    apply ShardDataPayload.fromJson_toJson
    · exact ShardDataPayload.validateStructure_eq_ok.mp hvalid
    · intro hash entry hlookup
      obtain ⟨_, text, htext⟩ := hparsed hash entry hlookup
      exact NarDigest.isCanonical_of_parse htext

def rootWithGcRoot : ShardedArchCacheIndexData :=
  { freshRoot stampCrates .x86_64Linux "owner/repo" "ghcr.io" "2024-01-01T00:00:00Z" with
    gcRoots := [sampleHash '1'] }

def payloadWithEntry : ShardDataPayload :=
  ⟨schemaVersionV8, 33, shardIdToPrefix 33, HashMap.ofList [(sampleHash '1', sampleEntry '1' [])]⟩

/-- The theorem on a root with a GC root and on a payload with an entry. -/
theorem wireFormat_roundTrips_sample :
    ShardedArchCacheIndexData.fromJson stampCrates rootWithGcRoot.toJson = .ok rootWithGcRoot ∧
      ShardDataPayload.fromJson stampCrates payloadWithEntry.toJson = .ok payloadWithEntry := by
  obtain ⟨hroots, hpayloads⟩ := wireFormat_roundTrips stampCrates
  have hparse : StoreHash.parse (sampleHash '1').val = .ok (sampleHash '1') := by decide
  refine ⟨hroots _ ?_ ?_, hpayloads _ ?_ ?_⟩
  · have hshards : rootWithGcRoot.shards = freshShards stampCrates := by
      rw [rootWithGcRoot, freshRoot]
    have hmerkle : rootWithGcRoot.merkleRoot = freshMerkleRoot stampCrates := by
      rw [rootWithGcRoot, freshRoot]
    apply ShardedArchCacheIndexData.validateStructure_eq_ok.mpr
    refine ⟨rfl, rfl, by decide, by decide, ?_, ?_⟩
    · rw [hshards]
      exact isIndexed_freshShards stampCrates
    · rw [hshards, hmerkle]
      exact computeMerkleRoot_freshShards stampCrates
  · intro hash hmem
    obtain rfl : hash = sampleHash '1' := by simpa [rootWithGcRoot] using hmem
    exact ⟨_, hparse⟩
  · decide +kernel
  · intro hash entry hlookup
    have hmem := (HashMap.lookup_ofList (by simp)).mp hlookup
    obtain ⟨rfl, rfl⟩ : hash = sampleHash '1' ∧ entry = sampleEntry '1' [] := by simpa using hmem
    exact ⟨⟨_, hparse⟩, _, parse_formatDigest ⟨List.replicate 32 0, rfl⟩⟩

end NixCache.Core
