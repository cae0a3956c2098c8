import NixCache.Core.Wire
import NixCache.Core.Proofs.ShardMerkle
/-!
# Written documents are read back

Each decoder returns the value its encoder was given, when the value passes its structural check
and its hashes are in the form their parsers produce.
-/

namespace NixCache.Core

open NixCache.Lib NixCache.Lib.Result NixCache.Lib.Json

@[simp] theorem customError_eq_ok {α : Type} {x : Except CoreError α} {value : α} :
    customError x = .ok value ↔ x = .ok value := mapErr_eq_ok

@[simp] theorem liftType_eq_ok {α : Type} {x : Except TypeError α} {value : α} :
    liftType x = .ok value ↔ x = .ok value := mapErr_eq_ok

theorem NarInfoMeta.fromJson_toJson {info : NarInfoMeta} (h : info.validateStructure = .ok ()) :
    fromJson info.toJson = .ok info := by
  unfold fromJson toJson
  rw [record_obj (by simp)]
  simp [field, optionField, List.lookup_cons, h]

theorem OriginMetadata.fromJson_toJson {origin : OriginMetadata}
    (h : origin.validateStructure = .ok ()) : fromJson origin.toJson = .ok origin := by
  unfold fromJson toJson
  rw [record_obj (by simp)]
  simp [optionField, List.lookup_cons, h]

theorem OriginMetadata.requiredOption_ofOption {origin : Option OriginMetadata}
    (h : ∀ value ∈ origin, value.validateStructure = .ok ()) :
    requiredOption (ofOption toJson origin) = .ok origin := by
  cases origin with
  | none => rfl
  | some value =>
      change some <$> fromJson value.toJson = _
      rw [fromJson_toJson (h value rfl)]
      rfl

@[simp] theorem SystemArch.fromJson_toJson (system : SystemArch) :
    fromJson system.toJson = .ok system := by
  simp [fromJson, toJson, ofStr_asStr]

@[simp] theorem SystemArch.option_toJson (system : Option SystemArch) :
    option fromJson (ofOption toJson system) = .ok system :=
  option_ofOption (by simp [toJson]) fun value _ => fromJson_toJson value

/-! ## Canonical hashes -/

/-- The text is in the form the parser produces. -/
def StoreHash.IsCanonical (hash : StoreHash) : Prop := parse hash.val = .ok hash

def NarDigest.IsCanonical (digest : NarDigest) : Prop := parse digest.val = .ok digest

theorem StoreHash.isBase32_not_whitespace {c : Char} (h : isBase32 c = true) :
    Str.isWhitespace c = false := by
  unfold isBase32 at h
  unfold Str.isWhitespace
  simp only [Char.le_def, UInt32.le_iff_toNat_le, decide_eq_true_eq] at h
  simp only [decide_eq_false_iff_not]
  have hval : c.toNat = c.val.toNat := rfl
  simp at h
  omega

theorem StoreHash.checkChars_eq_ok {cs : List Char} {u : Unit} :
    checkChars cs = .ok u ↔ ∀ c ∈ cs, isBase32 c = true := by
  simp only [checkChars, checkAll_eq_ok, ensure_eq_ok]
  constructor
  · intro h c hc
    obtain ⟨i, hi, rfl⟩ := List.getElem_of_mem hc
    exact h (cs[i], i) (by simp [List.mk_mem_zipIdx_iff_getElem?, hi])
  · rintro h ⟨c, i⟩ hmem
    exact h c (List.fst_mem_of_mem_zipIdx hmem)

/-- What the parser returns, it parses to itself. -/
theorem StoreHash.isCanonical_of_parse {text : String} {hash : StoreHash}
    (h : parse text = .ok hash) : hash.IsCanonical := by
  simp only [parse, bind_eq_ok, ensure_eq_ok, pure_eq_ok, checkChars_eq_ok] at h
  obtain ⟨_, hlen, _, hchars, rfl⟩ := h
  have htrim : Str.trim (Str.trim text) = Str.trim text := by
    have hne : (Str.trim text).toList ≠ [] := by
      intro hnil
      rw [← String.ofList_toList (s := Str.trim text), hnil] at hlen
      exact absurd hlen (by decide)
    obtain ⟨first, rest, hfirst⟩ := List.exists_cons_of_ne_nil hne
    have hlast := List.dropLast_append_getLast hne
    exact Str.trim_eq_self hfirst hlast.symm
      (isBase32_not_whitespace (hchars first (by simp [hfirst])))
      (isBase32_not_whitespace (hchars _ (List.getLast_mem hne)))
  simp only [IsCanonical, parse, htrim, bind_eq_ok, ensure_eq_ok, pure_eq_ok, checkChars_eq_ok]
  exact ⟨(), hlen, (), hchars, trivial⟩

theorem StoreHash.fromJson_toJson {hash : StoreHash} (h : hash.IsCanonical) :
    fromJson hash.toJson = .ok hash := by
  unfold IsCanonical at h
  simp [fromJson, toJson, ofText, h]

theorem NarDigest.fromJson_toJson {digest : NarDigest} (h : digest.IsCanonical) :
    fromJson digest.toJson = .ok digest := by
  unfold IsCanonical at h
  simp [fromJson, toJson, h]

/-- The store hash of an entry comes from the parser. -/
theorem IndexEntry.isCanonical_storeHash {entry : IndexEntry} {hash : StoreHash}
    (h : entry.storeHash = some hash) : hash.IsCanonical := by
  rw [IndexEntry.storeHash, NarInfoMeta.storeHash] at h
  cases hpath : validateStorePath entry.narinfoMeta.storePath with
  | error error => simp [hpath, Except.toOption] at h
  | ok hash' =>
      obtain rfl : hash' = hash := by simpa [hpath, Except.toOption] using h
      obtain ⟨text, hparse⟩ := validateStorePath_parse hpath
      exact StoreHash.isCanonical_of_parse hparse

/-! ## Entries and indexes -/

theorem IndexEntry.fromJson_toJson {X : Crates} {entry : IndexEntry}
    (h : entry.validateStructure X = .ok ()) (hdigest : entry.narDigest.IsCanonical) :
    fromJson X entry.toJson = .ok entry := by
  have hparts := h
  simp only [validateStructure, bind_eq_ok] at hparts
  obtain ⟨_, _, _, _, _, hinfo, _, _, _, _, _, _, horigin⟩ := hparts
  have horigin' : ∀ value ∈ entry.origin, value.validateStructure = .ok () := by
    intro value hvalue
    rw [Option.mem_def.mp hvalue] at horigin
    exact liftType_eq_ok.mp horigin
  unfold fromJson toJson
  rw [record_obj (by simp)]
  simp [field, optionField, List.lookup_cons, h, NarInfoMeta.fromJson_toJson hinfo,
    NarDigest.fromJson_toJson hdigest, OriginMetadata.requiredOption_ofOption horigin']

theorem ShardDescriptor.fromJson_toJson {X : Crates} {descriptor : ShardDescriptor}
    (h : descriptor.validateStructure X = .ok ()) : fromJson X descriptor.toJson = .ok descriptor := by
  unfold fromJson toJson
  rw [record_obj (by simp)]
  simp [field, List.lookup_cons, h]

end NixCache.Core
