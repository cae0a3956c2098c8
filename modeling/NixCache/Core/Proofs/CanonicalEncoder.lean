import NixCache.Core.Proofs.Digest
/-!
# The canonical encoder can be read back

Each method of the encoder is self-delimiting on values that fit in memory, so a message determines
the record it was made from.
-/

namespace NixCache.Core

open NixCache.Lib NixCache.Lib.Encoding NixCache.Lib.MerkleTree CanonicalEncoder

/-! ## Sizes

No Rust allocation is longer than `isize::MAX`, so every length fits in the `u64` it is cast to. -/

def TextFits (text : String) : Prop := Str.len text < 2 ^ 64

def OptionFits (text : Option String) : Prop := ∀ value ∈ text, TextFits value

def ListFits (texts : List String) : Prop := texts.length < 2 ^ 64 ∧ ∀ text ∈ texts, TextFits text

instance (text : String) : Decidable (TextFits text) := inferInstanceAs (Decidable (_ < _))

instance (text : Option String) : Decidable (OptionFits text) :=
  inferInstanceAs (Decidable (∀ _ ∈ _, _))

instance (texts : List String) : Decidable (ListFits texts) := inferInstanceAs (Decidable (_ ∧ _))

structure IndexEntry.InMemory (entry : IndexEntry) : Prop where
  name : TextFits entry.name
  storePath : TextFits entry.narinfoMeta.storePath
  narBasename : TextFits entry.narinfoMeta.narBasename
  compression : OptionFits entry.narinfoMeta.compression
  fileHash : OptionFits entry.narinfoMeta.fileHash
  narHash : TextFits entry.narinfoMeta.narHash
  references : ListFits entry.narinfoMeta.references
  deriver : OptionFits entry.narinfoMeta.deriver
  signatures : ListFits entry.narinfoMeta.signatures
  ca : OptionFits entry.narinfoMeta.ca
  added : TextFits entry.added
  jobId : ∀ origin ∈ entry.origin, OptionFits origin.jobId

/-- A map of entries that a program can hold. -/
def InMemory (entries : HashMap StoreHash IndexEntry) : Prop :=
  entries.size < 2 ^ 64 ∧ ∀ hash entry, entries.lookup hash = some entry → entry.InMemory

/-! ## Primitive values -/

section Primitives

variable {r s : List UInt8}

theorem u8_inj {a b : UInt8} (h : u8 a ++ r = u8 b ++ s) : a = b ∧ r = s := by
  obtain ⟨hab, hrs⟩ := selfDelimiting_bigEndian 1 _ _ _ _ a.toNat_lt b.toNat_lt h
  exact ⟨UInt8.toNat_inj.mp hab, hrs⟩

theorem u16_inj {a b : UInt16} (h : u16 a ++ r = u16 b ++ s) : a = b ∧ r = s := by
  obtain ⟨hab, hrs⟩ := selfDelimiting_bigEndian 2 _ _ _ _ a.toNat_lt b.toNat_lt h
  exact ⟨UInt16.toNat_inj.mp hab, hrs⟩

theorem selfDelimiting_u64 : SelfDelimiting (fun _ => True) u64 := by
  intro a b r s _ _ h
  obtain ⟨hab, hrs⟩ := selfDelimiting_bigEndian 8 _ _ _ _ a.toNat_lt b.toNat_lt h
  exact ⟨UInt64.toNat_inj.mp hab, hrs⟩

theorem u64_inj {a b : UInt64} (h : u64 a ++ r = u64 b ++ s) : a = b ∧ r = s :=
  selfDelimiting_u64 a b r s trivial trivial h

theorem optionU64_inj {a b : Option UInt64} (h : optionU64 a ++ r = optionU64 b ++ s) :
    a = b ∧ r = s :=
  selfDelimiting_u64.optional a b r s (fun _ _ => trivial) (fun _ _ => trivial) h

theorem selfDelimiting_string : SelfDelimiting TextFits string := by
  intro a b r s ha hb h
  rw [TextFits, ← Str.length_asBytes] at ha hb
  obtain ⟨hab, hrs⟩ := selfDelimiting_lengthPrefixed _ _ _ _ ha hb h
  exact ⟨Str.asBytes_injective hab, hrs⟩

theorem string_inj {a b : String} (ha : TextFits a) (hb : TextFits b)
    (h : string a ++ r = string b ++ s) : a = b ∧ r = s :=
  selfDelimiting_string a b r s ha hb h

theorem optionString_inj {a b : Option String} (ha : OptionFits a) (hb : OptionFits b)
    (h : optionString a ++ r = optionString b ++ s) : a = b ∧ r = s :=
  selfDelimiting_string.optional a b r s ha hb h

theorem stringVec_inj {a b : List String} (ha : ListFits a) (hb : ListFits b)
    (h : stringVec a ++ r = stringVec b ++ s) : a = b ∧ r = s :=
  selfDelimiting_string.vector a b r s ha hb h

theorem selfDelimiting_digest : SelfDelimiting (fun _ => True) digest :=
  selfDelimiting_of_length (fun d => d.size) fun _ _ h => DigestBytes.ext h

theorem digest_inj {a b : DigestBytes} (h : digest a ++ r = digest b ++ s) : a = b ∧ r = s :=
  selfDelimiting_digest a b r s trivial trivial h

theorem optionDigest_inj {a b : Option DigestBytes} (h : optionDigest a ++ r = optionDigest b ++ s) :
    a = b ∧ r = s :=
  selfDelimiting_digest.optional a b r s (fun _ _ => trivial) (fun _ _ => trivial) h

theorem message_inj {domain : String} {fields fields' : List (List UInt8)}
    (h : message domain fields = message domain fields') : fields.flatten = fields'.flatten := by
  rw [message, message, List.flatten_cons, List.flatten_cons] at h
  exact List.append_cancel_left h

end Primitives

/-! ## Nodes -/

theorem nodeEncoding_inj {domain : String} {level : Nat} {l l' : DigestBytes}
    {r r' : Option DigestBytes} (h : nodeEncoding domain level l r = nodeEncoding domain level l' r') :
    l = l' ∧ r = r' := by
  have h := message_inj h
  simp only [List.flatten_cons, List.flatten_nil, List.append_nil] at h
  have h := List.append_cancel_left h
  obtain ⟨harity, h⟩ := u8_inj h
  obtain ⟨hleft, h⟩ := digest_inj h
  refine ⟨hleft, ?_⟩
  cases r with
  | none =>
      cases r' with
      | none => rfl
      | some r' => simp at harity
  | some r =>
      cases r' with
      | none => simp at harity
      | some r' =>
          simp only [Option.map_some, Option.getD_some, digest] at h
          rw [DigestBytes.ext h]

/-- Lists of one length with the same root are equal. -/
theorem layeredRoot_injective {X : Crates} {domain : String} {leaves leaves' : List DigestBytes}
    (hlength : leaves.length = leaves'.length)
    (hfree : CollisionFree X.sha256
      (layeredEncodings X leaves domain ++ layeredEncodings X leaves' domain))
    (h : layeredRoot X leaves domain = layeredRoot X leaves' domain) : leaves = leaves' := by
  match leaves, leaves' with
  | [], [] => rfl
  | leaf :: rest, leaf' :: rest' =>
      simp only [List.length_cons, Nat.add_right_cancel_iff] at hlength
      rw [layeredEncodings, layeredEncodings, hlength] at hfree
      rw [layeredRoot, layeredRoot, hlength] at h
      refine climb_injective (nodeEncoding domain) (fun _ _ _ _ _ => nodeEncoding_inj) _ 1
        _ _ (by simp [hlength]) hfree ?_
      have hone : ∀ digests : List DigestBytes, digests ≠ [] → digests.length ≤ rest'.length + 1 →
          (climb X.sha256 (nodeEncoding domain) (rest'.length + 1) 1 digests).length = 1 :=
        fun digests => length_climb 1
      obtain ⟨root, hroot⟩ :=
        List.length_eq_one_iff.mp (hone (leaf :: rest) (by simp) (by simp [hlength]))
      obtain ⟨root', hroot'⟩ := List.length_eq_one_iff.mp (hone (leaf' :: rest') (by simp) (by simp))
      rw [hroot, hroot'] at h ⊢
      simp only [List.headD_cons] at h
      rw [h]

/-! ## Entries -/

theorem textFits_asStr (system : SystemArch) : TextFits system.asStr := by
  cases system <;> decide

theorem originEncoding_inj {a b : Option OriginMetadata} {r s : List UInt8}
    (ha : ∀ origin ∈ a, OptionFits origin.jobId) (hb : ∀ origin ∈ b, OptionFits origin.jobId)
    (h : originEncoding a ++ r = originEncoding b ++ s) : a = b ∧ r = s := by
  cases a with
  | none =>
      cases b with
      | none => exact ⟨rfl, (u8_inj h).2⟩
      | some b =>
          simp only [originEncoding, List.flatten_cons, List.append_assoc] at h
          exact absurd (u8_inj h).1 (by decide)
  | some a =>
      cases b with
      | none =>
          simp only [originEncoding, List.flatten_cons, List.append_assoc] at h
          exact absurd (u8_inj h).1 (by decide)
      | some b =>
          simp only [originEncoding, List.flatten_cons, List.append_assoc, List.flatten_nil,
            List.nil_append] at h
          obtain ⟨-, h⟩ := u8_inj h
          obtain ⟨hrun, h⟩ := optionU64_inj h
          obtain ⟨hjob, hrest⟩ := optionString_inj (ha a rfl) (hb b rfl) h
          exact ⟨congrArg some (OriginMetadata.ext hrun hjob), hrest⟩

/-- A leaf message determines the key and, with the decoded digest, the entry. -/
theorem entryLeafMessage_inj {hash hash' : StoreHash} {entry entry' : IndexEntry}
    {d d' : DigestBytes} (hkey : TextFits hash.val) (hkey' : TextFits hash'.val)
    (hmem : entry.InMemory) (hmem' : entry'.InMemory)
    (hd : entry.narDigest.val = formatDigest d) (hd' : entry'.narDigest.val = formatDigest d')
    (h : entryLeafMessage hash entry d = entryLeafMessage hash' entry' d') :
    hash = hash' ∧ entry = entry' := by
  have h := message_inj h
  simp only [List.flatten_cons] at h
  obtain ⟨hhash, h⟩ := string_inj (a := hash.val) (b := hash'.val) hkey hkey' h
  obtain ⟨hname, h⟩ := string_inj hmem.name hmem'.name h
  obtain ⟨hsystem, h⟩ := optionString_inj (by
    intro text htext
    obtain ⟨system, -, rfl⟩ := Option.map_eq_some_iff.mp htext
    exact textFits_asStr system) (by
    intro text htext
    obtain ⟨system, -, rfl⟩ := Option.map_eq_some_iff.mp htext
    exact textFits_asStr system) h
  obtain ⟨hpath, h⟩ := string_inj hmem.storePath hmem'.storePath h
  obtain ⟨hbase, h⟩ := string_inj hmem.narBasename hmem'.narBasename h
  obtain ⟨hcompression, h⟩ := optionString_inj hmem.compression hmem'.compression h
  obtain ⟨hfileHash, h⟩ := optionString_inj hmem.fileHash hmem'.fileHash h
  obtain ⟨hfileSize, h⟩ := optionU64_inj h
  obtain ⟨hnarHash, h⟩ := string_inj hmem.narHash hmem'.narHash h
  obtain ⟨hreferences, h⟩ := stringVec_inj hmem.references hmem'.references h
  obtain ⟨hderiver, h⟩ := optionString_inj hmem.deriver hmem'.deriver h
  obtain ⟨hsignatures, h⟩ := stringVec_inj hmem.signatures hmem'.signatures h
  obtain ⟨hca, h⟩ := optionString_inj hmem.ca hmem'.ca h
  obtain ⟨hdigest, h⟩ := digest_inj h
  obtain ⟨hsize, h⟩ := u64_inj h
  obtain ⟨hadded, h⟩ := string_inj hmem.added hmem'.added h
  obtain ⟨horigin, -⟩ := originEncoding_inj hmem.jobId hmem'.jobId h
  have hsystem := Option.map_injective SystemArch.asStr_injective hsystem
  have hnar : entry.narDigest.val = entry'.narDigest.val := by rw [hd, hd', hdigest]
  exact ⟨StoreHash.ext hhash, IndexEntry.ext hname hsystem
    (NarInfoMeta.ext hpath hbase hcompression hfileHash hfileSize hnarHash hreferences hderiver
      hsignatures hca)
    (NarDigest.ext hnar) hsize hadded horigin⟩

end NixCache.Core
