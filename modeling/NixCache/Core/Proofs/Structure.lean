import NixCache.Core.Types
import NixCache.Lib.Lines
import NixCache.Lib.Number
/-!
# What the structural checks accept

The checks of store paths, references, NAR names and Nix hashes, as statements about the characters
of the text.
-/

namespace NixCache.Core

open NixCache.Lib NixCache.Lib.Result

/-! ## Store paths and references -/

theorem isEmpty_iff_toList {s : String} : Str.isEmpty s = true ↔ s.toList = [] := List.isEmpty_iff

theorem containsChar_iff {s : String} {c : Char} : Str.containsChar s c = true ↔ c ∈ s.toList :=
  List.contains_iff_mem

/-- The last part of a store path. -/
structure IsReference (value : String) : Prop where
  parses : ∃ hash, validateStorePathBasename value = .ok hash
  noSlash : '/' ∉ value.toList
  noBackslash : '\\' ∉ value.toList

theorem exists_name_of_validateStorePathBasename {value : String} {hash : StoreHash}
    (h : validateStorePathBasename value = .ok hash) :
    ∃ digits name, value.toList = digits ++ '-' :: name ∧ name ≠ [] ∧
      ∀ c ∈ name, Str.isWhitespace c = false := by
  simp only [validateStorePathBasename, bind_eq_ok, okOr_eq_ok, ensure_eq_ok] at h
  obtain ⟨⟨front, back⟩, hsplit, _, hname, -⟩ := h
  obtain ⟨⟨digits, name⟩, hchars, hp⟩ := Option.map_eq_some_iff.mp hsplit
  cases hp
  refine ⟨digits, name, (Str.splitOnceChars_eq_some.mp hchars).1, ?_, fun c hc => ?_⟩
  · rintro rfl
    exact hname (Or.inl rfl)
  · by_contra hblank
    refine hname (Or.inr (Or.inr (Or.inr ?_)))
    rw [List.any_eq_true]
    exact ⟨c, by simpa using hc, by simp [Bool.not_eq_false _ ▸ hblank]⟩

theorem IsReference.ne_nil {value : String} (h : IsReference value) : value.toList ≠ [] := by
  obtain ⟨hash, hparse⟩ := h.parses
  obtain ⟨digits, name, hvalue, -⟩ := exists_name_of_validateStorePathBasename hparse
  simp [hvalue]

theorem IsReference.last_not_blank {value : String} (h : IsReference value) :
    ∀ c ∈ value.toList.getLast?, Str.isWhitespace c = false := by
  obtain ⟨hash, hparse⟩ := h.parses
  obtain ⟨digits, name, hvalue, hne, hname⟩ := exists_name_of_validateStorePathBasename hparse
  intro c hc
  rw [hvalue, List.getLast?_append_of_ne_nil _ (by simp), List.getLast?_cons_of_ne_nil hne] at hc
  exact hname c (List.mem_of_getLast? hc)

theorem validateStorePath_isOk_iff {value : String} :
    (∃ hash, validateStorePath value = .ok hash) ↔
      ∃ basename, value = "/nix/store/" ++ basename ∧ IsReference basename := by
  simp only [validateStorePath, bind_eq_ok, okOr_eq_ok, ensure_eq_ok, Str.stripPrefix_eq_some,
    isEmpty_iff_toList, containsChar_iff, not_or]
  constructor
  · rintro ⟨hash, basename, hvalue, _, ⟨-, hslash, hbackslash⟩, hparse⟩
    exact ⟨basename, hvalue, ⟨hash, hparse⟩, hslash, hbackslash⟩
  · rintro ⟨basename, hvalue, hbasename⟩
    obtain ⟨hash, hparse⟩ := hbasename.parses
    exact ⟨hash, basename, hvalue, (), ⟨hbasename.ne_nil, hbasename.noSlash,
      hbasename.noBackslash⟩, hparse⟩

theorem IsReference.not_path {value rest : String} (h : IsReference value) :
    value ≠ "/nix/store/" ++ rest := by
  rintro rfl
  exact h.noSlash (by simp)

/-- A reference is the last part of a store path, given alone or with the path. -/
theorem normalizeStoreReference_eq_ok {value basename : String} :
    normalizeStoreReference value = .ok basename ↔
      IsReference basename ∧ (value = basename ∨ value = "/nix/store/" ++ basename) := by
  unfold normalizeStoreReference
  cases hstrip : Str.stripPrefix value "/nix/store/" with
  | some rest =>
      rw [Str.stripPrefix_eq_some] at hstrip
      subst hstrip
      simp only [bind_eq_ok, pure_eq_ok]
      constructor
      · rintro ⟨hash, hparse, rfl⟩
        obtain ⟨rest', hrest, href⟩ := validateStorePath_isOk_iff.mp ⟨hash, hparse⟩
        obtain rfl := (String.append_right_inj _).mp hrest
        exact ⟨href, Or.inr rfl⟩
      · rintro ⟨href, hvalue | hvalue⟩
        · exact absurd hvalue.symm href.not_path
        · obtain rfl := (String.append_right_inj _).mp hvalue
          obtain ⟨hash, hparse⟩ := validateStorePath_isOk_iff.mpr ⟨rest, rfl, href⟩
          exact ⟨hash, hparse, rfl⟩
  | none =>
      have hnot : ∀ rest, value ≠ "/nix/store/" ++ rest := by
        intro rest hvalue
        rw [Str.stripPrefix_eq_some.mpr hvalue] at hstrip
        cases hstrip
      simp only [bind_eq_ok, pure_eq_ok, ensure_eq_ok, containsChar_iff, not_or]
      constructor
      · rintro ⟨_, ⟨hslash, hbackslash⟩, hash, hparse, rfl⟩
        exact ⟨⟨⟨hash, hparse⟩, hslash, hbackslash⟩, Or.inl rfl⟩
      · rintro ⟨href, rfl | hvalue⟩
        · obtain ⟨hash, hparse⟩ := href.parses
          exact ⟨(), ⟨href.noSlash, href.noBackslash⟩, hash, hparse, rfl⟩
        · exact absurd hvalue (hnot _)

theorem IsReference.normalize {value : String} (h : IsReference value) :
    normalizeStoreReference value = .ok value :=
  normalizeStoreReference_eq_ok.mpr ⟨h, Or.inl rfl⟩

/-! ## NAR names -/

theorem validateNarBasename_eq_ok {value : String} :
    validateNarBasename value = .ok () ↔ Str.IsWord value ∧ value ≠ "." ∧ value ≠ ".." ∧
      Str.containsStr value ".." = false ∧ '/' ∉ value.toList ∧ '\\' ∉ value.toList ∧
      ∀ c ∈ value.toList, Str.isControl c = false := by
  simp only [validateNarBasename, ensure_eq_ok, isEmpty_iff_toList, containsChar_iff, not_or,
    List.any_eq_true, Bool.or_eq_true, not_exists, not_and, Bool.not_eq_true, Str.IsWord]
  constructor
  · rintro ⟨hne, hdot, hdots, hcontains, hslash, hbackslash, hchars⟩
    exact ⟨⟨hne, fun c hc => (hchars c hc).2⟩, hdot, hdots, hcontains, hslash, hbackslash,
      fun c hc => (hchars c hc).1⟩
  · rintro ⟨⟨hne, hblank⟩, hdot, hdots, hcontains, hslash, hbackslash, hcontrol⟩
    exact ⟨hne, hdot, hdots, hcontains, hslash, hbackslash,
      fun c hc => ⟨hcontrol c hc, hblank c hc⟩⟩

/-! ## Nix hashes -/

/-- A printable ASCII character other than the blank. -/
def IsGraphic (c : Char) : Prop := 0x20 < c.toNat ∧ c.toNat < 0x7F

instance : DecidablePred IsGraphic := fun c =>
  inferInstanceAs (Decidable (0x20 < c.toNat ∧ c.toNat < 0x7F))

theorem IsGraphic.not_isWhitespace {c : Char} (h : IsGraphic c) : Str.isWhitespace c = false := by
  simp only [IsGraphic] at h
  simp only [Str.isWhitespace, decide_eq_false_iff_not]
  omega

theorem isGraphic_of_isBase32 {c : Char} (h : StoreHash.isBase32 c = true) : IsGraphic c := by
  simp only [StoreHash.isBase32, Char.le_def, UInt32.le_iff_toNat_le, decide_eq_true_eq] at h
  simp at h
  unfold IsGraphic
  omega

theorem isGraphic_of_isLowerHexDigit {c : Char} (h : Str.isLowerHexDigit c = true) :
    IsGraphic c := by
  simp only [Str.isLowerHexDigit, Str.isAsciiDigit, Char.le_def, UInt32.le_iff_toNat_le,
    decide_eq_true_eq] at h
  simp at h
  unfold IsGraphic
  omega

theorem isGraphic_of_isAsciiAlphanumeric {c : Char} (h : Str.isAsciiAlphanumeric c = true) :
    IsGraphic c := by
  simp only [Str.isAsciiAlphanumeric, Str.isAsciiDigit, Char.le_def, UInt32.le_iff_toNat_le,
    decide_eq_true_eq] at h
  simp at h
  unfold IsGraphic
  omega

theorem isGraphic_of_isBase64Byte {b : UInt8} (h : isBase64Byte b = true) :
    IsGraphic (Char.ofNat b.toNat) := by
  simp only [isBase64Byte, decide_eq_true_eq] at h
  rcases h with h | rfl | rfl
  · exact isGraphic_of_isAsciiAlphanumeric h
  · exact ⟨by decide, by decide⟩
  · exact ⟨by decide, by decide⟩

theorem toNat_ofNat_byte (b : UInt8) : (Char.ofNat b.toNat).toNat = b.toNat := by
  have hlt : b.toNat < 256 := b.toNat_lt
  rw [Char.ofNat, dif_pos (Or.inl (by omega))]
  rfl

/-- A text whose bytes are graphic has graphic characters. -/
theorem isGraphic_of_bytes {s : String}
    (h : ∀ b ∈ Str.asBytes s, IsGraphic (Char.ofNat b.toNat)) : ∀ c ∈ s.toList, IsGraphic c := by
  have hascii : ∀ b ∈ Str.asBytes s, b.toNat < 128 := by
    intro b hb
    have hgraphic := (h b hb).2
    rw [toNat_ofNat_byte] at hgraphic
    omega
  intro c hc
  rw [Str.eq_ofList_of_ascii hascii, String.toList_ofList] at hc
  obtain ⟨b, hb, rfl⟩ := List.mem_map.mp hc
  exact h b hb

/-- The algorithm and the encoded text, around `:` or `-`. -/
theorem toList_of_splitNixHash {value algorithm encoded : String} {separator : Char}
    (h : splitNixHash value = some (algorithm, separator, encoded)) :
    value.toList = algorithm.toList ++ separator :: encoded.toList ∧
      (separator = ':' ∨ separator = '-') := by
  have hsplit : ∀ sep, Str.splitOnce value sep = some (algorithm, encoded) →
      value.toList = algorithm.toList ++ sep :: encoded.toList := by
    intro sep hsome
    obtain ⟨⟨front, back⟩, hchars, hp⟩ := Option.map_eq_some_iff.mp hsome
    cases hp
    simpa using (Str.splitOnceChars_eq_some.mp hchars).1
  unfold splitNixHash at h
  split at h
  · rename_i hcolon
    cases h
    exact ⟨hsplit _ hcolon, Or.inl rfl⟩
  · obtain ⟨⟨front, back⟩, hdash, hp⟩ := Option.map_eq_some_iff.mp h
    cases hp
    exact ⟨hsplit _ hdash, Or.inr rfl⟩

/-- Every encoding of a hash uses graphic characters only. -/
theorem isWord_of_validateNixHash {value : String} (h : validateNixHash value = .ok ()) :
    Str.IsWord value := by
  simp only [validateNixHash, bind_eq_ok, okOr_eq_ok, ensure_eq_ok] at h
  obtain ⟨⟨algorithm, separator, encoded⟩, hsplit, _, halgorithm, hencoded⟩ := h
  dsimp only at halgorithm hencoded
  subst halgorithm
  have hbytes : ∀ b ∈ Str.asBytes encoded, IsGraphic (Char.ofNat b.toNat) := by
    split at hencoded
    · rename_i hbase64
      obtain ⟨-, hlength, hpad, hdigits⟩ := hbase64
      intro b hb
      rw [← List.take_append_drop 43 (Str.asBytes encoded), List.mem_append] at hb
      rcases hb with hb | hb
      · exact isGraphic_of_isBase64Byte (List.all_eq_true.mp hdigits b hb)
      · have hlast : (Str.asBytes encoded).drop 43 = [(Str.asBytes encoded).getD 43 0] := by
          rw [List.drop_eq_getElem_cons (by omega), List.drop_of_length_le (by omega),
            List.getD_eq_getElem?_getD, List.getElem?_eq_getElem (by omega), Option.getD_some]
        rw [hlast, List.mem_singleton, hpad] at hb
        subst hb
        exact ⟨by decide, by decide⟩
    · split at hencoded
      · intro b hb
        obtain ⟨i, hi, rfl⟩ := List.getElem_of_mem hb
        have hdigit := checkAll_eq_ok.mp hencoded ((Str.asBytes encoded)[i], i)
          (by simp [List.mk_mem_zipIdx_iff_getElem?, hi])
        exact isGraphic_of_isBase32 (ensure_eq_ok.mp hdigit)
      · intro b hb
        have hall := (ensure_eq_ok.mp hencoded).2
        exact isGraphic_of_isLowerHexDigit (List.all_eq_true.mp hall b hb)
  obtain ⟨hvalue, hseparator⟩ := toList_of_splitNixHash hsplit
  refine ⟨by simp [hvalue], fun c hc => IsGraphic.not_isWhitespace ?_⟩
  rw [hvalue, List.mem_append, List.mem_cons] at hc
  rcases hc with hc | rfl | hc
  · revert c
    decide
  · rcases hseparator with rfl | rfl <;> exact ⟨by decide, by decide⟩
  · exact isGraphic_of_bytes hbytes c hc

end NixCache.Core
