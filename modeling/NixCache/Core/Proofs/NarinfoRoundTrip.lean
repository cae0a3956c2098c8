import NixCache.Core.Proofs.Rendering
/-!
# Narinfo round trips

`validate_structure` is the only check between metadata and its rendered text.  It leaves several
fields free to hold newlines and outer white space, or a full store path where the parser keeps a
basename.  Exactly the metadata without such values comes back from its text, and a parsed text
only lacks that property when its deriver was a path with white space before the hash.
-/

namespace NixCache.Core

open NixCache.Lib NixCache.Lib.Result

/-! ## The structural check -/

namespace NarInfoMeta

/-- What `validate_structure` says of each field. -/
structure Checked (info : NarInfoMeta) : Prop where
  storePath : ∃ hash, validateStorePath info.storePath = .ok hash
  narBasename : validateNarBasename info.narBasename = .ok ()
  fileHash : ∀ hash ∈ info.fileHash, validateNixHash hash = .ok ()
  compression : ∀ name ∈ info.compression, name.toList ≠ []
  ca : ∀ address ∈ info.ca, address.toList ≠ []
  fileSize : ∀ size ∈ info.fileSize, size ≠ 0
  narHash : validateNixHash info.narHash = .ok ()
  references : ∀ reference ∈ info.references,
    ∃ basename, normalizeStoreReference reference = .ok basename
  deriver : ∀ deriver ∈ info.deriver, ∃ basename,
    normalizeStoreReference deriver = .ok basename ∧ Str.endsWith basename ".drv" = true

theorem whenSome_eq_ok {α : Type} {field : Option α} {check : α → Except CoreError Unit}
    {u : Unit} : whenSome field check = .ok u ↔ ∀ value ∈ field, check value = .ok () := by
  cases field <;> simp [whenSome]

theorem validateStructure_eq_ok {info : NarInfoMeta} :
    info.validateStructure = .ok () ↔ info.Checked := by
  have hempty : ∀ field : Option String,
      ¬ field.any Str.isEmpty = true ↔ ∀ value ∈ field, value.toList ≠ [] := by
    intro field
    cases field <;> simp [isEmpty_iff_toList]
  have hsize : info.fileSize ≠ some 0 ↔ ∀ size ∈ info.fileSize, size ≠ 0 := by
    cases info.fileSize <;> simp
  simp only [validateStructure, validateReference, validateDeriver, bind_eq_ok, mapErr_eq_ok,
    whenSome_eq_ok, ensure_eq_ok, pure_eq_ok, checkAll_eq_ok, hempty, hsize, isEmpty_iff_toList,
    exists_const, and_true]
  constructor
  · rintro ⟨hash, hpath, _, hbasename, hfileHash, hcompression, hca, hfileSize, _, hnarHash, hrefs,
      hderiver⟩
    exact ⟨⟨hash, hpath⟩, hbasename, fun hash h => (hfileHash hash h).2, hcompression, hca,
      hfileSize, hnarHash, hrefs, hderiver⟩
  · rintro ⟨⟨hash, hpath⟩, hbasename, hfileHash, hcompression, hca, hfileSize, hnarHash, hrefs,
      hderiver⟩
    exact ⟨hash, hpath, (), hbasename,
      fun hash h => ⟨(isWord_of_validateNixHash (hfileHash hash h)).1, hfileHash hash h⟩,
      hcompression, hca, hfileSize, (), hnarHash, hrefs, hderiver⟩

end NarInfoMeta

/-! ## Reading what was rendered -/

theorem nonEmptyField_eq_ok {key : NarInfoKey} {value : String} {u : Unit} :
    nonEmptyField key value = .ok u ↔ value.toList ≠ [] := by
  rw [nonEmptyField, ensure_eq_ok, isEmpty_iff_toList]

theorem isValue_of_isWord {s : String} (h : Str.IsWord s) : IsValue s := by
  refine ⟨Str.trimmed_of_forall h.2, fun hnewline => ?_⟩
  have hblank := h.2 _ hnewline
  cases hblank

theorem trim_storePath {path : String} (h : ∃ hash, validateStorePath path = .ok hash) :
    Str.trim path = path := by
  obtain ⟨basename, rfl, hbasename⟩ := validateStorePath_isOk_iff.mp h
  rw [Str.trim_eq_self_iff, String.toList_append]
  exact .append (by decide) (by decide) hbasename.last_not_blank hbasename.ne_nil

theorem readStorePath_trim {path : String} (h : ∃ hash, validateStorePath path = .ok hash) :
    readStorePath (Str.trim path) = .ok path := by
  obtain ⟨hash, hparse⟩ := h
  rw [trim_storePath ⟨hash, hparse⟩]
  simp only [readStorePath, bind_eq_ok, nonEmptyField_eq_ok, mapErr_eq_ok, pure_eq_ok,
    exists_const]
  refine ⟨?_, hash, hparse, trivial⟩
  obtain ⟨basename, rfl, -⟩ := validateStorePath_isOk_iff.mp ⟨hash, hparse⟩
  simp

theorem firstWord_of_isWord {s : String} (h : Str.IsWord s) : firstWord s = s := by
  have hword : (s.toList.dropWhile Str.isWhitespace).takeWhile
      (fun c => ¬ Str.isWhitespace c) = s.toList := by
    rw [Str.dropWhile_eq_self_of_head fun c hc => h.2 c (List.mem_of_head? hc),
      List.takeWhile_eq_self_iff.mpr]
    intro c hc
    simp [h.2 c hc]
  rw [firstWord, hword]
  cases hs : s.toList with
  | nil => exact absurd hs h.1
  | cons c cs =>
      change String.ofList (c :: cs) = s
      rw [← hs, String.ofList_toList]

theorem isWord_narUrl {basename : String} (h : Str.IsWord basename) :
    Str.IsWord ("nar/" ++ basename) := by
  constructor
  · simp
  · intro c hc
    rw [String.toList_append, List.mem_append] at hc
    rcases hc with hc | hc
    · revert c
      decide
    · exact h.2 c hc

theorem extractNarBasename_narUrl {basename : String} (h : Str.IsWord basename) :
    extractNarBasename ("nar/" ++ basename) = basename := by
  have hstrip : ∀ pre : String, (∃ rest, pre.toList = 'U' :: rest) →
      Str.stripPrefix ("nar/" ++ basename) pre = none := by
    rintro pre ⟨rest, hpre⟩
    have hstart : Str.startsWith ("nar/" ++ basename) pre = false := by
      simp [Str.startsWith, hpre, List.isPrefixOf]
    rw [Str.stripPrefix, if_neg (by simp [hstart])]
  rw [extractNarBasename, Str.IsWord.trim (isWord_narUrl h), hstrip "URL: nar/" ⟨_, rfl⟩,
    hstrip "URL: " ⟨_, rfl⟩, Str.stripPrefix_eq_some.mpr rfl]
  exact firstWord_of_isWord h

theorem parseNarUrl_trim {basename : String} (h : validateNarBasename basename = .ok ()) :
    parseNarUrl (Str.trim ("nar/" ++ basename)) = .ok basename := by
  obtain ⟨hword, hdot, hdots, -, hslash, hbackslash, hcontrol⟩ := validateNarBasename_eq_ok.mp h
  have hurl := isWord_narUrl hword
  have hsplit : ("nar/" ++ basename).toList.splitOn '/' = [['n', 'a', 'r'], basename.toList] := by
    have happ : ("nar/" ++ basename).toList = ['n', 'a', 'r'] ++ '/' :: basename.toList := by
      rw [String.toList_append]
      rfl
    rw [happ, List.splitOn_append_cons_self_of_not_mem (by decide),
      List.splitOn_eq_singleton hslash]
  have hparts : basename.toList ≠ ['.'] ∧ basename.toList ≠ ['.', '.'] :=
    ⟨fun hone => hdot (String.toList_inj.mp hone), fun htwo => hdots (String.toList_inj.mp htwo)⟩
  rw [Str.IsWord.trim hurl]
  simp only [parseNarUrl, bind_eq_ok, nonEmptyField_eq_ok, ensure_eq_ok, mapErr_eq_ok, pure_eq_ok,
    extractNarBasename_narUrl hword, exists_const]
  refine ⟨hurl.1, ?_, ?_, (), h, trivial⟩
  · rw [not_or, List.any_eq_true, containsChar_iff]
    constructor
    · rintro ⟨c, hc, hbad⟩
      rw [String.toList_append, List.mem_append] at hc
      rcases hc with hc | hc
      · revert hbad
        revert c
        decide
      · simp [hcontrol c hc, hword.2 c hc] at hbad
    · rw [String.toList_append, List.mem_append, not_or]
      exact ⟨by decide, hbackslash⟩
  · rw [hsplit]
    simp [hparts]

theorem readCompression_eq_ok {value : String} {compression : Option String} :
    readCompression value = .ok compression ↔
      value.toList ≠ [] ∧ (if value ≠ "none" then some value else none) = compression := by
  simp only [readCompression, bind_eq_ok, nonEmptyField_eq_ok, pure_eq_ok, exists_const]

theorem readHash_trim {key : NarInfoKey} {hash : String} (h : validateNixHash hash = .ok ()) :
    readHash key (Str.trim hash) = .ok hash := by
  have hword := isWord_of_validateNixHash h
  rw [Str.IsWord.trim hword]
  simp only [readHash, bind_eq_ok, nonEmptyField_eq_ok, mapErr_eq_ok, pure_eq_ok, exists_const,
    and_true]
  exact ⟨hword.1, (), h⟩

theorem isWord_toString (n : Nat) : Str.IsWord (toString n) := by
  have hdigits : (toString n).toList = Nat.toDigits 10 n := by
    rw [Nat.toString_eq_ofList_toDigits, String.toList_ofList]
  rw [Str.IsWord, hdigits]
  refine ⟨Nat.toDigits_ne_nil, fun c hc => Str.not_isWhitespace_of_isAsciiDigit ?_⟩
  rw [Str.isAsciiDigit_eq_isDigit]
  exact Nat.isDigit_of_mem_toDigits (by omega) (by omega) hc

theorem readSize_trim {key : NarInfoKey} {size : UInt64} (h : size ≠ 0) :
    readSize key (Str.trim (toString size.toNat)) = .ok size := by
  have hword := isWord_toString size.toNat
  rw [Str.IsWord.trim hword]
  simp only [readSize, bind_eq_ok, nonEmptyField_eq_ok, mapErr_eq_ok, ensure_eq_ok, pure_eq_ok,
    exists_const]
  exact ⟨hword.1, size, Str.parseU64_toString size, h, rfl⟩

theorem trimmed_intercalate {words : List String} (h : ∀ word ∈ words, Str.IsWord word) :
    Str.Trimmed (String.intercalate " " words).toList := by
  have hparts : ∀ parts : List (List Char),
      (∀ part ∈ parts, part ≠ [] ∧ ∀ c ∈ part, Str.isWhitespace c = false) → parts ≠ [] →
        Str.Trimmed ([' '].intercalate parts) ∧ [' '].intercalate parts ≠ [] := by
    intro parts hall hne
    induction parts with
    | nil => exact absurd rfl hne
    | cons part parts ih =>
        obtain ⟨⟨hpart, hword⟩, hrest⟩ := List.forall_mem_cons.mp hall
        cases parts with
        | nil =>
            rw [List.intercalate_singleton]
            exact ⟨Str.trimmed_of_forall hword, hpart⟩
        | cons next rest =>
            obtain ⟨htrimmed, hne'⟩ := ih hrest (by simp)
            rw [List.intercalate_cons_cons, List.append_assoc]
            refine ⟨.append (Str.trimmed_of_forall hword).1 hpart ?_ (by simp), by simp [hpart]⟩
            rw [List.getLast?_append_of_ne_nil _ hne']
            exact htrimmed.2
  rw [String.toList_intercalate]
  by_cases hnil : words = []
  · subst hnil
    exact Str.trimmed_nil
  · refine (hparts (words.map String.toList) ?_ (by simpa using hnil)).1
    intro part hpart
    obtain ⟨word, hword, rfl⟩ := List.mem_map.mp hpart
    exact h word hword

theorem readReferences_trim {references : List String}
    (hwords : ∀ reference ∈ references, Str.IsWord reference)
    (hrefs : ∀ reference ∈ references, IsReference reference) :
    readReferences (Str.trim (String.intercalate " " references)) = .ok references := by
  rw [Str.trim_eq_self_iff.mpr (trimmed_intercalate hwords), readReferences,
    Str.splitWhitespace_intercalate hwords, collect_eq_ok, List.forall₂_same]
  intro reference hmem
  rw [mapErr_eq_ok]
  exact (hrefs reference hmem).normalize

theorem readDeriver_eq_ok {value deriver : String} :
    readDeriver value = .ok deriver ↔
      normalizeStoreReference value = .ok deriver ∧ Str.endsWith deriver ".drv" = true := by
  simp only [readDeriver, bind_eq_ok, nonEmptyField_eq_ok, mapErr_eq_ok, ensure_eq_ok, pure_eq_ok,
    exists_const]
  constructor
  · rintro ⟨-, basename, hnormalize, hdrv, rfl⟩
    exact ⟨hnormalize, hdrv⟩
  · rintro ⟨hnormalize, hdrv⟩
    obtain ⟨hreference, hvalue⟩ := normalizeStoreReference_eq_ok.mp hnormalize
    refine ⟨?_, deriver, hnormalize, hdrv, rfl⟩
    rcases hvalue with rfl | rfl
    · exact hreference.ne_nil
    · simp

theorem readSig_eq_some {value signature : String} :
    readSig value = some signature ↔ value.toList ≠ [] ∧ value = signature := by
  unfold readSig
  split
  · rename_i hempty
    simp [isEmpty_iff_toList.mp hempty]
  · rename_i hempty
    rw [isEmpty_iff_toList] at hempty
    simp [hempty]

theorem readCa_eq_ok {value address : String} :
    readCa value = .ok address ↔ value.toList ≠ [] ∧ value = address := by
  simp only [readCa, bind_eq_ok, nonEmptyField_eq_ok, pure_eq_ok, exists_const]

/-! ## Metadata that comes back -/

namespace NarInfoMeta

/-- No value ends its line or its item of a list, loses white space or is a full path. -/
structure LineSafe (info : NarInfoMeta) : Prop where
  storePath : '\n' ∉ info.storePath.toList
  compression : ∀ name ∈ info.compression, IsValue name
  references : ∀ reference ∈ info.references,
    (∀ c ∈ reference.toList, Str.isWhitespace c = false) ∧
      Str.startsWith reference "/nix/store/" = false
  deriver : ∀ deriver ∈ info.deriver,
    '\n' ∉ deriver.toList ∧ Str.startsWith deriver "/nix/store/" = false
  signatures : ∀ signature ∈ info.signatures, signature.toList ≠ [] ∧ IsValue signature
  ca : ∀ address ∈ info.ca, IsValue address

/-- Line-safe, and no white space around the deriver either. -/
structure Renderable (info : NarInfoMeta) : Prop extends LineSafe info where
  trimmedDeriver : ∀ deriver ∈ info.deriver, Str.Trimmed deriver.toList

/-- The same metadata, with no compression for the compression `none`. -/
def withoutNone (info : NarInfoMeta) : NarInfoMeta :=
  { info with compression := info.compression.filter (· ≠ "none") }

/-- The text of the metadata is read as the metadata, and its lines are those of the fields. -/
structure RoundTrips (info : NarInfoMeta) (narSize : UInt64) : Prop where
  parses : ∃ parsed, NarInfo.parse (info.render narSize) = .ok parsed ∧
    parsed.narinfoMeta.withoutNone = info.withoutNone ∧ parsed.narSize = narSize
  lines : (Str.lines (info.render narSize)).map keyValue =
    (info.renderedFields narSize).map fun field => some (field.1.name, field.2)

variable {info : NarInfoMeta} {narSize : UInt64}

theorem isReference_of_normalize {value basename : String}
    (h : normalizeStoreReference value = .ok basename)
    (hpath : Str.startsWith value "/nix/store/" = false) : IsReference value := by
  obtain ⟨hreference, rfl | rfl⟩ := normalizeStoreReference_eq_ok.mp h
  · exact hreference
  · rw [Str.startsWith_iff.mpr ⟨basename.toList, String.toList_append⟩] at hpath
    cases hpath

theorem IsReference.not_startsWith {value : String} (h : IsReference value) :
    Str.startsWith value "/nix/store/" = false := by
  rw [← Bool.not_eq_true, Str.startsWith_iff]
  rintro ⟨rest, hvalue⟩
  exact h.noSlash (by simp [hvalue])

theorem LineSafe.isReference (hchecked : info.Checked) (h : info.LineSafe) :
    ∀ reference ∈ info.references, IsReference reference := by
  intro reference hmem
  obtain ⟨basename, hnormalize⟩ := hchecked.references reference hmem
  exact isReference_of_normalize hnormalize (h.references reference hmem).2

theorem LineSafe.isWord (hchecked : info.Checked) (h : info.LineSafe) :
    ∀ reference ∈ info.references, Str.IsWord reference := fun reference hmem =>
  ⟨(h.isReference hchecked reference hmem).ne_nil, (h.references reference hmem).1⟩

theorem LineSafe.deriver_isReference (hchecked : info.Checked) (h : info.LineSafe)
    {deriver : String} (hmem : deriver ∈ info.deriver) :
    IsReference deriver ∧ Str.endsWith deriver ".drv" = true := by
  obtain ⟨basename, hnormalize, hdrv⟩ := hchecked.deriver deriver hmem
  have hreference := isReference_of_normalize hnormalize (h.deriver deriver hmem).2
  rw [hreference.normalize] at hnormalize
  cases hnormalize
  exact ⟨hreference, hdrv⟩

/-- The words of a list joined by blanks stay on their line. -/
theorem newline_not_mem_intercalate {words : List String} (h : ∀ word ∈ words, Str.IsWord word) :
    '\n' ∉ (String.intercalate " " words).toList := by
  rw [String.toList_intercalate]
  intro hmem
  rcases Str.mem_intercalate hmem with hblank | ⟨part, hpart, hnewline⟩
  · revert hblank
    decide
  · obtain ⟨word, hword, rfl⟩ := List.mem_map.mp hpart
    exact (isValue_of_isWord (h word hword)).oneLine hnewline

theorem LineSafe.isOneLine (hchecked : info.Checked) (h : info.LineSafe) :
    info.IsOneLine narSize := by
  have hword : ∀ {s : String}, Str.IsWord s → '\n' ∉ s.toList :=
    fun hs => (isValue_of_isWord hs).oneLine
  intro key value hvalue
  cases key with
  | storePath =>
      rw [List.mem_singleton.mp hvalue]
      exact h.storePath
  | url =>
      rw [List.mem_singleton.mp hvalue]
      exact hword (isWord_narUrl (validateNarBasename_eq_ok.mp hchecked.narBasename).1)
  | compression => exact (h.compression value (Option.mem_toList.mp hvalue)).oneLine
  | fileHash =>
      have hvalid := hchecked.fileHash value (Option.mem_toList.mp hvalue)
      exact hword (isWord_of_validateNixHash hvalid)
  | fileSize =>
      obtain ⟨size, -, rfl⟩ := List.mem_map.mp hvalue
      exact hword (isWord_toString _)
  | narHash =>
      rw [List.mem_singleton.mp hvalue]
      exact hword (isWord_of_validateNixHash hchecked.narHash)
  | narSize =>
      rw [List.mem_singleton.mp hvalue]
      exact hword (isWord_toString _)
  | references =>
      rw [renderedValues] at hvalue
      split at hvalue
      · cases hvalue
      · rw [List.mem_singleton.mp hvalue]
        exact newline_not_mem_intercalate (h.isWord hchecked)
  | deriver => exact (h.deriver value (Option.mem_toList.mp hvalue)).1
  | sig => exact (h.signatures value hvalue).2.oneLine
  | ca => exact (h.ca value (Option.mem_toList.mp hvalue)).oneLine

theorem checked_withoutNone (h : info.Checked) : info.withoutNone.Checked := by
  refine { h with compression := fun name hname => h.compression name ?_ }
  exact (Option.mem_filter_iff.mp hname).1

theorem single_of_option {α : Type} {read : String → Except NarInfoParseError α}
    {f : α → String} {field : Option α}
    (h : ∀ value ∈ field, read (Str.trim (f value)) = .ok value) :
    Single read ((field.toList.map f).map Str.trim) field := by
  cases field with
  | none => exact Single.nil_iff.mpr rfl
  | some value => exact Single.singleton_iff.mpr ⟨value, h value rfl, rfl⟩

/-- Line-safe metadata is read from its text when its deriver is read from what stands there for
it. -/
theorem parse_render_of_deriver (hchecked : info.Checked) (hsize : narSize ≠ 0) (h : info.LineSafe)
    {deriver : Option String} (hline : ∀ value ∈ deriver, '\n' ∉ value.toList)
    (hderiver : Single readDeriver (deriver.toList.map Str.trim) info.deriver) :
    NarInfo.parse (NarInfoMeta.render { info with deriver := deriver } narSize) =
      .ok ⟨info.withoutNone, narSize⟩ := by
  have hone {α : Type} {read : String → Except NarInfoParseError α} {value : String} {result : α}
      (hread : read (Str.trim value) = .ok result) :
      Single read (List.map Str.trim [value]) (some result) :=
    Single.singleton_iff.mpr ⟨result, hread, rfl⟩
  have hoption {read : String → Except NarInfoParseError String} {field : Option String}
      (hread : ∀ value ∈ field, read (Str.trim value) = .ok value) :
      Single read (field.toList.map Str.trim) field := by
    have hsingle := single_of_option (f := id) hread
    rwa [List.map_id] at hsingle
  have hvalues : ∀ key ≠ NarInfoKey.deriver,
      renderedValues { info with deriver := deriver } narSize key =
        info.renderedValues narSize key := by
    intro key hkey
    cases key <;> first | rfl | exact absurd rfl hkey
  have honeLine : IsOneLine { info with deriver := deriver } narSize := by
    intro key value hvalue
    by_cases hkey : key = .deriver
    · subst hkey
      exact hline value (Option.mem_toList.mp hvalue)
    · rw [hvalues key hkey] at hvalue
      exact h.isOneLine hchecked key value hvalue
  rw [parse_render_iff honeLine, validateStructure_eq_ok]
  refine ⟨checked_withoutNone hchecked, fun key => ?_⟩
  by_cases hkey : key = .deriver
  · subst hkey
    exact hderiver
  rw [hvalues key hkey]
  cases key with
  | storePath => exact hone (readStorePath_trim hchecked.storePath)
  | url => exact hone (parseNarUrl_trim hchecked.narBasename)
  | compression =>
      cases hcompression : info.compression with
      | none =>
          rw [renderedValues, hcompression]
          exact ⟨none, Single.nil_iff.mpr rfl, by simp [NarInfo.fields, withoutNone, hcompression]⟩
      | some name =>
          have hvalue := h.compression name hcompression
          have htrim := Str.trim_eq_self_iff.mpr hvalue.trimmed
          refine ⟨some (if name ≠ "none" then some name else none), ?_, ?_⟩
          · rw [renderedValues, hcompression, Option.toList_some]
            refine hone (readCompression_eq_ok.mpr ?_)
            rw [htrim]
            exact ⟨hchecked.compression name hcompression, rfl⟩
          · by_cases hnone : name = "none" <;>
              simp [NarInfo.fields, withoutNone, hcompression, hnone]
  | fileHash => exact hoption fun hash hmem => readHash_trim (hchecked.fileHash hash hmem)
  | fileSize =>
      have hread : ∀ size ∈ info.fileSize,
          readSize .fileSize (Str.trim (toString size.toNat)) = .ok size :=
        fun size hmem => readSize_trim (hchecked.fileSize size hmem)
      exact single_of_option hread
  | narHash => exact hone (readHash_trim hchecked.narHash)
  | narSize => exact hone (readSize_trim hsize)
  | references =>
      by_cases hnil : info.references = []
      · rw [renderedValues, if_pos (by simpa using hnil)]
        exact ⟨none, Single.nil_iff.mpr rfl, by simp [NarInfo.fields, withoutNone, hnil]⟩
      · refine ⟨some info.references, ?_, rfl⟩
        rw [renderedValues, if_neg (by simpa using hnil)]
        exact hone (readReferences_trim (h.isWord hchecked) (h.isReference hchecked))
  | deriver => exact absurd rfl hkey
  | sig =>
      change info.signatures = (info.signatures.map Str.trim).filterMap readSig
      have hread : ∀ signature ∈ info.signatures,
          readSig (Str.trim signature) = some signature := by
        intro signature hmem
        obtain ⟨hne, hvalue⟩ := h.signatures signature hmem
        rw [Str.trim_eq_self_iff.mpr hvalue.trimmed]
        exact readSig_eq_some.mpr ⟨hne, rfl⟩
      have hmap : (info.signatures.map Str.trim).filterMap readSig =
          info.signatures.filterMap some := by
        rw [List.filterMap_map]
        refine List.filterMap_congr fun signature hmem => ?_
        rw [Function.comp_apply, hread signature hmem]
      rw [hmap, List.filterMap_some]
  | ca =>
      refine hoption fun address hmem => readCa_eq_ok.mpr ?_
      rw [Str.trim_eq_self_iff.mpr (h.ca address hmem).trimmed]
      exact ⟨hchecked.ca address hmem, rfl⟩

/-- Renderable metadata comes back from its text. -/
theorem parse_render (hchecked : info.Checked) (hsize : narSize ≠ 0) (h : info.Renderable) :
    NarInfo.parse (info.render narSize) = .ok ⟨info.withoutNone, narSize⟩ := by
  have hread : ∀ deriver ∈ info.deriver, readDeriver (Str.trim (id deriver)) = .ok deriver := by
    intro deriver hmem
    obtain ⟨hreference, hdrv⟩ := h.toLineSafe.deriver_isReference hchecked hmem
    rw [id, Str.trim_eq_self_iff.mpr (h.trimmedDeriver deriver hmem)]
    exact readDeriver_eq_ok.mpr ⟨hreference.normalize, hdrv⟩
  have hderiver := single_of_option hread
  rw [List.map_id] at hderiver
  exact parse_render_of_deriver hchecked hsize h.toLineSafe
    (fun deriver hmem => (h.deriver deriver hmem).1) hderiver

/-- The lines of renderable metadata are its fields. -/
theorem map_keyValue_lines (hchecked : info.Checked) (h : info.Renderable) :
    (Str.lines (info.render narSize)).map keyValue =
      (info.renderedFields narSize).map fun field => some (field.1.name, field.2) := by
  have htrim : ∀ key, ∀ value ∈ info.renderedValues narSize key, Str.trim value = value := by
    intro key value hvalue
    cases key with
    | storePath =>
        rw [List.mem_singleton.mp hvalue]
        exact trim_storePath hchecked.storePath
    | url =>
        rw [List.mem_singleton.mp hvalue]
        exact (isWord_narUrl (validateNarBasename_eq_ok.mp hchecked.narBasename).1).trim
    | compression =>
        exact Str.trim_eq_self_iff.mpr (h.compression value (Option.mem_toList.mp hvalue)).trimmed
    | fileHash =>
        have hvalid := hchecked.fileHash value (Option.mem_toList.mp hvalue)
        exact (isWord_of_validateNixHash hvalid).trim
    | fileSize =>
        obtain ⟨size, -, rfl⟩ := List.mem_map.mp hvalue
        exact (isWord_toString _).trim
    | narHash =>
        rw [List.mem_singleton.mp hvalue]
        exact (isWord_of_validateNixHash hchecked.narHash).trim
    | narSize =>
        rw [List.mem_singleton.mp hvalue]
        exact (isWord_toString _).trim
    | references =>
        rw [renderedValues] at hvalue
        split at hvalue
        · cases hvalue
        · rw [List.mem_singleton.mp hvalue]
          exact Str.trim_eq_self_iff.mpr (trimmed_intercalate (h.toLineSafe.isWord hchecked))
    | deriver =>
        exact Str.trim_eq_self_iff.mpr (h.trimmedDeriver value (Option.mem_toList.mp hvalue))
    | sig => exact Str.trim_eq_self_iff.mpr (h.signatures value hvalue).2.trimmed
    | ca => exact Str.trim_eq_self_iff.mpr (h.ca value (Option.mem_toList.mp hvalue)).trimmed
  rw [lines_render (h.toLineSafe.isOneLine hchecked), List.map_map]
  refine List.map_congr_left fun field hfield => ?_
  have hvalue : field.2 ∈ info.renderedValues narSize field.1 := by
    rw [← valuesOf_renderedFields]
    exact mem_valuesOf.mpr hfield
  rw [Function.comp_apply, ← keyValue_trim, trim_dropReturn, keyValue_trim, keyValue_renderLine,
    htrim field.1 field.2 hvalue]

end NarInfoMeta

/-! ## What a parsed text holds -/

theorem mem_toList_of_startsWith {s pre : String} (h : Str.startsWith s pre = true) {c : Char}
    (hc : c ∈ pre.toList) : c ∈ s.toList := by
  obtain ⟨rest, hs⟩ := Str.startsWith_iff.mp h
  simp [hs, hc]

namespace NarInfo

variable {text : String} {info : NarInfo}

/-- The metadata of a parsed text is line-safe, and its compression is not `none`. -/
theorem lineSafe_of_parse (h : parse text = .ok info) :
    info.narinfoMeta.LineSafe ∧ info.narinfoMeta.withoutNone = info.narinfoMeta := by
  obtain ⟨-, -, -, hholds⟩ := parse_eq_ok_iff.mp h
  have hvalue {key : NarInfoKey} {value : String}
      (hmem : value ∈ valuesOf key (fieldsOf text)) : IsValue value := isValue_of_mem_valuesOf hmem
  obtain ⟨compression, hcompression, hjoin⟩ := hholds .compression
  have hname : ∀ name ∈ info.narinfoMeta.compression, IsValue name ∧ name ≠ "none" := by
    intro name hname
    have hsome : compression = some (some name) := by
      rw [← Option.join_eq_some_iff, ← hjoin]
      exact hname
    rw [hsome] at hcompression
    obtain ⟨value, hvalues, hread⟩ := Single.some_iff.mp hcompression
    obtain ⟨-, hif⟩ := readCompression_eq_ok.mp hread
    split at hif
    · rename_i hnone
      cases hif
      exact ⟨hvalue (hvalues ▸ List.mem_singleton_self _), hnone⟩
    · cases hif
  refine ⟨⟨?_, fun name h => (hname name h).1, ?_, ?_, ?_, ?_⟩, ?_⟩
  · obtain ⟨value, hvalues, hread⟩ := Single.some_iff.mp (hholds .storePath)
    simp only [readStorePath, bind_eq_ok, pure_eq_ok] at hread
    obtain ⟨-, -, -, -, rfl⟩ := hread
    exact (hvalue (hvalues ▸ List.mem_singleton_self _)).oneLine
  · intro reference hmem
    obtain ⟨part, hpart, hgetD⟩ := hholds .references
    cases part with
    | none =>
        rw [show info.narinfoMeta.references = [] from hgetD] at hmem
        cases hmem
    | some references =>
        rw [show info.narinfoMeta.references = references from hgetD] at hmem
        obtain ⟨value, -, hread⟩ := Single.some_iff.mp hpart
        obtain ⟨token, htoken, hnormalize⟩ := exists_of_mem_collect hread hmem
        obtain ⟨hreference, hword⟩ := normalizeStoreReference_eq_ok.mp (mapErr_eq_ok.mp hnormalize)
        refine ⟨fun c hc => (Str.isWord_of_mem_splitWhitespace htoken).2 c ?_,
          NarInfoMeta.IsReference.not_startsWith hreference⟩
        rcases hword with rfl | rfl
        · exact hc
        · simp [hc]
  · intro deriver hmem
    obtain ⟨value, hvalues, hread⟩ := Single.exists_of_mem (hholds .deriver) hmem
    obtain ⟨hreference, hword⟩ := normalizeStoreReference_eq_ok.mp (readDeriver_eq_ok.mp hread).1
    refine ⟨fun hnewline => (hvalue (hvalues ▸ List.mem_singleton_self _)).oneLine ?_,
      NarInfoMeta.IsReference.not_startsWith hreference⟩
    rcases hword with rfl | rfl
    · exact hnewline
    · simp [hnewline]
  · intro signature hmem
    rw [show info.narinfoMeta.signatures = _ from hholds .sig, List.mem_filterMap] at hmem
    obtain ⟨value, hmem, hread⟩ := hmem
    obtain ⟨hne, rfl⟩ := readSig_eq_some.mp hread
    exact ⟨hne, hvalue hmem⟩
  · intro address hmem
    obtain ⟨value, hvalues, hread⟩ := Single.exists_of_mem (hholds .ca) hmem
    obtain ⟨-, rfl⟩ := readCa_eq_ok.mp hread
    exact hvalue (hvalues ▸ List.mem_singleton_self _)
  · have hfilter : info.narinfoMeta.compression.filter (· ≠ "none") =
        info.narinfoMeta.compression := by
      cases hcomp : info.narinfoMeta.compression with
      | none => rfl
      | some name => simp [(hname name hcomp).2]
    rw [NarInfoMeta.withoutNone, hfilter]

theorem checked_of_parse (h : parse text = .ok info) : info.narinfoMeta.Checked :=
  NarInfoMeta.validateStructure_eq_ok.mp (parse_eq_ok_iff.mp h).2.2.1

theorem narSize_ne_zero_of_parse (h : parse text = .ok info) : info.narSize ≠ 0 := by
  obtain ⟨-, -, -, hholds⟩ := parse_eq_ok_iff.mp h
  obtain ⟨value, -, hread⟩ := Single.some_iff.mp (hholds .narSize)
  simp only [readSize, bind_eq_ok, ensure_eq_ok, pure_eq_ok] at hread
  obtain ⟨-, -, size, -, -, hne, rfl⟩ := hread
  exact hne

/-- A line is read as its key and its value. -/
theorem lineField_eq_some_iff {line : String} {key : NarInfoKey} {value : String} :
    lineField line = .ok (some (key, value)) ↔ keyValue line = some (key.name, value) := by
  rw [lineField_eq_some, keyValue_trim]
  refine ⟨fun h => h.2.2, fun h => ?_⟩
  obtain ⟨⟨front, back⟩, hsplit, hp⟩ := Option.map_eq_some_iff.mp ((keyValue_trim line).trans h)
  obtain ⟨⟨before, after⟩, hchars, hq⟩ := Option.map_eq_some_iff.mp hsplit
  cases hq
  simp only [Prod.mk.injEq] at hp
  obtain ⟨hline, -⟩ := Str.splitOnceChars_eq_some.mp hchars
  refine ⟨by simp [hline], ?_, h⟩
  -- a line that starts with `#` has a key that does
  obtain ⟨-, -, -, first, rest, hname, -, hcomment⟩ := key.name_shape
  cases before with
  | nil => simp [Str.startsWith, hline, List.isPrefixOf]
  | cons c before =>
      have hne : c ≠ '#' := by
        rintro rfl
        obtain ⟨rest', htrim⟩ := Str.exists_trimChars_cons (c := '#') before rfl
        have hkey := congrArg String.toList hp.1
        rw [Str.toList_trim, String.toList_ofList, htrim, hname] at hkey
        exact hcomment (List.cons.inj hkey).1.symm
      simp [Str.startsWith, hline, List.isPrefixOf, Ne.symm hne]

theorem mem_fieldsOf_iff {key : NarInfoKey} {value : String} :
    (key, value) ∈ fieldsOf text ↔
      ∃ line ∈ Str.lines text, keyValue line = some (key.name, value) := by
  simp only [mem_fieldsOf, lineField_eq_some_iff]

end NarInfo

/-! ## The round trip of the metadata -/

theorem length_trimChars_le (cs : List Char) : (Str.trimChars cs).length ≤ cs.length := by
  obtain ⟨before, after, -, -, -, hcs⟩ := Str.exists_around_trimChars cs
  have hlength := congrArg List.length hcs
  rw [List.length_append, List.length_append] at hlength
  omega

namespace NarInfoMeta

variable {info : NarInfoMeta} {narSize : UInt64}

/-- A deriver that comes back has no white space around it. -/
theorem LineSafe.trimmed_deriver (h : info.LineSafe) (hchecked : info.Checked) {parsed : NarInfo}
    (hparse : NarInfo.parse (info.render narSize) = .ok parsed)
    (hsame : parsed.narinfoMeta.deriver = info.deriver) :
    ∀ deriver ∈ info.deriver, Str.Trimmed deriver.toList := by
  intro deriver hmem
  obtain ⟨-, hholds⟩ := (parse_render_iff (h.isOneLine hchecked)).mp hparse
  have hderiver := hholds .deriver
  change Single readDeriver (info.deriver.toList.map Str.trim)
    parsed.narinfoMeta.deriver at hderiver
  rw [hsame, Option.mem_def.mp hmem] at hderiver
  obtain ⟨value, hvalue, hread⟩ := Single.some_iff.mp hderiver
  obtain rfl : Str.trim deriver = value := by simpa using hvalue
  obtain ⟨-, htrim | hpath⟩ := normalizeStoreReference_eq_ok.mp (readDeriver_eq_ok.mp hread).1
  · exact Str.trim_eq_self_iff.mp htrim
  · -- trimming adds no path
    have hlength := congrArg (fun s : String => s.toList.length) hpath
    have hle := length_trimChars_le deriver.toList
    simp only [Str.toList_trim, String.toList_append, List.length_append] at hlength
    have hpre : "/nix/store/".toList.length = 11 := rfl
    omega

theorem LineSafe.of_withoutNone {other : NarInfoMeta} (h : other.LineSafe)
    (hsame : other.withoutNone = info.withoutNone) : info.LineSafe := by
  simp only [withoutNone, NarInfoMeta.mk.injEq] at hsame
  obtain ⟨hpath, -, hcompression, -, -, -, hreferences, hderiver, hsignatures, hca⟩ := hsame
  refine ⟨hpath ▸ h.storePath, fun name hname => ?_, hreferences ▸ h.references,
    hderiver ▸ h.deriver, hsignatures ▸ h.signatures, hca ▸ h.ca⟩
  by_cases hnone : name = "none"
  · subst hnone
    exact isValue_of_isWord ⟨by decide, by decide⟩
  · have hfilter : name ∈ info.compression.filter (· ≠ "none") :=
      Option.mem_filter_iff.mpr ⟨hname, by simpa using hnone⟩
    rw [← hcompression] at hfilter
    exact h.compression name (Option.mem_filter_iff.mp hfilter).1

theorem RoundTrips.lineSafe (h : info.RoundTrips narSize) : info.LineSafe := by
  obtain ⟨parsed, hparse, hsame, -⟩ := h.parses
  exact (NarInfo.lineSafe_of_parse hparse).1.of_withoutNone hsame

/-- Metadata that passes the structural check comes back from its text, line by line, exactly when
it is renderable. -/
theorem roundTrips_iff (hvalid : info.validateStructure = .ok ()) (hsize : narSize ≠ 0) :
    info.RoundTrips narSize ↔ info.Renderable := by
  have hchecked := validateStructure_eq_ok.mp hvalid
  constructor
  · intro h
    obtain ⟨parsed, hparse, hsame, -⟩ := h.parses
    have hsafe := h.lineSafe
    have hderiver : parsed.narinfoMeta.withoutNone.deriver = info.withoutNone.deriver :=
      congrArg NarInfoMeta.deriver hsame
    exact ⟨hsafe, hsafe.trimmed_deriver hchecked hparse hderiver⟩
  · intro h
    refine ⟨⟨_, parse_render hchecked hsize h, ?_, rfl⟩, map_keyValue_lines hchecked h⟩
    simp [withoutNone, Option.filter_filter]

/-- A store path with its NAR and nothing optional. -/
def plain : NarInfoMeta where
  storePath := "/nix/store/00000000000000000000000000000000-a"
  narBasename := "a.nar"
  compression := none
  fileHash := none
  fileSize := none
  narHash := "sha256:0000000000000000000000000000000000000000000000000000"
  references := []
  deriver := none
  signatures := []
  ca := none

theorem checked_plain : plain.Checked := validateStructure_eq_ok.mp (by decide)

theorem checked_plain_compression {name : String} (h : name.toList ≠ []) :
    Checked { plain with compression := some name } :=
  { checked_plain with
    compression := fun name' hmem => by
      obtain rfl := Option.some.inj hmem
      exact h }

theorem lineSafe_plain : plain.LineSafe :=
  ⟨by decide, by simp [plain], by simp [plain], by simp [plain], by simp [plain], by simp [plain]⟩

theorem renderable_plain : plain.Renderable := ⟨lineSafe_plain, by simp [plain]⟩

theorem roundTrips_iff_plain : plain.RoundTrips 1 ↔ plain.Renderable :=
  roundTrips_iff (validateStructure_eq_ok.mpr checked_plain) (by decide)

/-- A compression with a newline in it adds a signature to the text. -/
def forged : NarInfoMeta := { plain with compression := some "xz\nSig: forged" }

theorem forged_accepted_not_roundTrips :
    forged.validateStructure = .ok () ∧ ¬ forged.RoundTrips 1 := by
  refine ⟨validateStructure_eq_ok.mpr (checked_plain_compression (by decide)), fun h => ?_⟩
  have hvalue := h.lineSafe.compression "xz\nSig: forged" rfl
  exact hvalue.oneLine (by decide)

end NarInfoMeta

/-! ## The round trip of a parsed text -/

namespace NarInfo

variable {text : String} {info : NarInfo}

/-- A `Deriver` line gives a store path with white space before the hash. -/
def HasPaddedDeriver (text : String) : Prop :=
  ∃ line ∈ Str.lines text, ∃ c rest, Str.isWhitespace c = true ∧
    keyValue line = some ("Deriver", "/nix/store/" ++ String.ofList (c :: rest))

theorem trimmed_deriver_iff (h : parse text = .ok info) :
    (∀ deriver ∈ info.narinfoMeta.deriver, Str.Trimmed deriver.toList) ↔
      ¬ HasPaddedDeriver text := by
  obtain ⟨-, -, -, hholds⟩ := parse_eq_ok_iff.mp h
  have hderiver := hholds .deriver
  change Single readDeriver _ info.narinfoMeta.deriver at hderiver
  constructor
  · rintro htrimmed ⟨line, hline, c, rest, hblank, hkey⟩
    have hmem : (NarInfoKey.deriver, "/nix/store/" ++ String.ofList (c :: rest)) ∈ fieldsOf text :=
      mem_fieldsOf_iff.mpr ⟨line, hline, hkey⟩
    obtain ⟨deriver, hsome, hread⟩ := hderiver.exists_of_mem_values (mem_valuesOf.mpr hmem)
    obtain ⟨hreference, hself | hpath⟩ :=
      normalizeStoreReference_eq_ok.mp (readDeriver_eq_ok.mp hread).1
    · exact hreference.not_path hself.symm
    · obtain rfl := (String.append_right_inj _).mp hpath
      have hfirst := (htrimmed _ hsome).1 c (by simp)
      rw [hblank] at hfirst
      cases hfirst
  · intro hnone deriver hmem
    obtain ⟨value, hvalues, hread⟩ := hderiver.exists_of_mem hmem
    have hfield : (NarInfoKey.deriver, value) ∈ fieldsOf text :=
      mem_valuesOf.mp (hvalues ▸ List.mem_singleton_self _)
    obtain ⟨hreference, rfl | rfl⟩ :=
      normalizeStoreReference_eq_ok.mp (readDeriver_eq_ok.mp hread).1
    · exact (isValue_of_mem_fieldsOf hfield).trimmed
    · refine ⟨fun c hc => ?_, hreference.last_not_blank⟩
      obtain ⟨line, hline, hkey⟩ := mem_fieldsOf_iff.mp hfield
      obtain ⟨rest, hrest⟩ : ∃ rest, deriver.toList = c :: rest := by
        cases hchars : deriver.toList with
        | nil => simp [hchars] at hc
        | cons d rest =>
            rw [hchars, List.head?_cons, Option.mem_some_iff] at hc
            exact ⟨rest, by rw [hc]⟩
      by_contra hblank
      refine hnone ⟨line, hline, c, rest, by simpa using hblank, ?_⟩
      rw [← hrest, String.ofList_toList]
      exact hkey

/-- A parsed text comes back from its rendering exactly when none of its lines gives the deriver as
a store path with white space before the hash. -/
theorem parse_toNarinfoString_iff (h : parse text = .ok info) :
    parse info.toNarinfoString = .ok info ↔ ¬ HasPaddedDeriver text := by
  have hchecked := checked_of_parse h
  obtain ⟨hsafe, hnone⟩ := lineSafe_of_parse h
  rw [← trimmed_deriver_iff h]
  constructor
  · intro hparse
    exact hsafe.trimmed_deriver hchecked hparse rfl
  · intro htrimmed
    have hparse := NarInfoMeta.parse_render hchecked (narSize_ne_zero_of_parse h)
      ⟨hsafe, htrimmed⟩
    rwa [hnone] at hparse

theorem parse_plain : parse (NarInfoMeta.plain.render 1) = .ok ⟨NarInfoMeta.plain, 1⟩ :=
  NarInfoMeta.parse_render NarInfoMeta.checked_plain (by decide) NarInfoMeta.renderable_plain

theorem parse_toNarinfoString_iff_plain :
    parse (toNarinfoString ⟨NarInfoMeta.plain, 1⟩) = .ok ⟨NarInfoMeta.plain, 1⟩ ↔
      ¬ HasPaddedDeriver (NarInfoMeta.plain.render 1) :=
  parse_toNarinfoString_iff parse_plain

/-- The text says `Deriver: /nix/store/ 00000000000000000000000000000000-a.drv`; the blank after
the store directory is in the parsed deriver, and lost when that is parsed again. -/
theorem parse_loses_paddedDeriver :
    ∃ info, parse (NarInfoMeta.render { NarInfoMeta.plain with
        deriver := some "/nix/store/ 00000000000000000000000000000000-a.drv" } 1) = .ok info ∧
      parse info.toNarinfoString ≠ .ok info := by
  let padded : NarInfoMeta :=
    { NarInfoMeta.plain with deriver := some " 00000000000000000000000000000000-a.drv" }
  have hread : readDeriver "/nix/store/ 00000000000000000000000000000000-a.drv" =
      .ok " 00000000000000000000000000000000-a.drv" := by decide
  have hchecked : padded.Checked :=
    { NarInfoMeta.checked_plain with
      deriver := fun deriver hmem => by
        obtain rfl := Option.some.inj hmem
        obtain ⟨hnormalize, hdrv⟩ := readDeriver_eq_ok.mp hread
        have hreference := (normalizeStoreReference_eq_ok.mp hnormalize).1
        exact ⟨_, hreference.normalize, hdrv⟩ }
  have hsafe : padded.LineSafe :=
    { NarInfoMeta.lineSafe_plain with
      deriver := fun deriver hmem => by
        obtain rfl := Option.some.inj hmem
        exact ⟨by decide, by decide⟩ }
  have htrim : Str.trim "/nix/store/ 00000000000000000000000000000000-a.drv" =
      "/nix/store/ 00000000000000000000000000000000-a.drv" := by decide
  refine ⟨⟨padded, 1⟩, ?_, fun hparse => ?_⟩
  · refine NarInfoMeta.parse_render_of_deriver hchecked (by decide) hsafe ?_ ?_
    · intro deriver hmem
      obtain rfl := Option.some.inj hmem
      decide
    · rw [Option.toList_some, List.map_singleton, htrim]
      exact Single.singleton_iff.mpr ⟨_, hread, rfl⟩
  · have htrimmed := hsafe.trimmed_deriver hchecked hparse rfl _ rfl
    have hblank := htrimmed.1 ' ' (by decide)
    cases hblank

/-! ## The compression a client reads -/

/-- The value of a `Compression` line. -/
def compressionOf (line : String) : Option String :=
  (keyValue line).bind fun p => if p.1 = "Compression" then some p.2 else none

/-- The compression that a Nix client reads: the value of the `Compression` line, and `bzip2`
without such a line. -/
def nixCompression (text : String) : String :=
  ((Str.lines text).findSome? compressionOf).getD "bzip2"

theorem compressionOf_eq (line : String) :
    compressionOf line = (lineField line).toOption.join.bind fun field =>
      if field.1 = NarInfoKey.compression then some field.2 else none := by
  have hvalue : ∀ value, compressionOf line = some value ↔
      lineField line = .ok (some (.compression, value)) := by
    intro value
    rw [lineField_eq_some_iff]
    simp [compressionOf, Option.bind_eq_some_iff, NarInfoKey.name]
  apply Option.ext
  intro value
  rw [hvalue]
  cases hread : lineField line with
  | error error => simp [Except.toOption]
  | ok field =>
      rcases field with _ | ⟨key, value'⟩
      · simp [Except.toOption]
      · simp [Except.toOption]

theorem nixCompression_eq (text : String) :
    nixCompression text = (valuesOf .compression (fieldsOf text)).head?.getD "bzip2" := by
  rw [nixCompression, valuesOf, fieldsOf, List.filterMap_filterMap, List.head?_filterMap,
    funext compressionOf_eq]

theorem nixCompression_render {info : NarInfoMeta} {narSize : UInt64} (hchecked : info.Checked)
    (h : info.LineSafe) :
    nixCompression (info.render narSize) = info.compression.getD "bzip2" := by
  rw [nixCompression_eq, NarInfoMeta.fieldsOf_render (h.isOneLine hchecked),
    NarInfoMeta.valuesOf_map_trim, NarInfoMeta.valuesOf_renderedFields]
  cases hcompression : info.compression with
  | none => simp [NarInfoMeta.renderedValues, hcompression]
  | some name =>
      have htrim := Str.trim_eq_self_iff.mpr (h.compression name hcompression).trimmed
      simp [NarInfoMeta.renderedValues, hcompression, htrim]

/-- The rendered text of a parsed one says the same compression exactly when no line of the text
says `none`. -/
theorem nixCompression_toNarinfoString_iff (h : parse text = .ok info) :
    nixCompression info.toNarinfoString = nixCompression text ↔
      ∀ line ∈ Str.lines text, keyValue line ≠ some ("Compression", "none") := by
  have hsafe := (lineSafe_of_parse h).1
  obtain ⟨-, -, -, hholds⟩ := parse_eq_ok_iff.mp h
  obtain ⟨part, hpart, hjoin⟩ := hholds .compression
  change info.narinfoMeta.compression = part.join at hjoin
  have hlines : (∀ line ∈ Str.lines text, keyValue line ≠ some ("Compression", "none")) ↔
      "none" ∉ valuesOf .compression (fieldsOf text) := by
    rw [mem_valuesOf, mem_fieldsOf_iff]
    simp only [not_exists, not_and, NarInfoKey.name, ne_eq]
  have hrendered : nixCompression info.toNarinfoString =
      info.narinfoMeta.compression.getD "bzip2" :=
    nixCompression_render (checked_of_parse h) hsafe
  rw [hlines, hrendered, nixCompression_eq, hjoin]
  cases part with
  | none =>
      have hnil : valuesOf .compression (fieldsOf text) = [] := by
        simpa [Single] using hpart
      simp [hnil]
  | some compression =>
      obtain ⟨value, hvalues, hread⟩ := Single.some_iff.mp hpart
      obtain ⟨-, rfl⟩ := readCompression_eq_ok.mp hread
      rw [hvalues]
      by_cases hnone : value = "none"
      · subst hnone
        simp
      · simp [hnone, Ne.symm hnone]

theorem nixCompression_toNarinfoString_iff_plain :
    nixCompression (toNarinfoString ⟨NarInfoMeta.plain, 1⟩) =
        nixCompression (NarInfoMeta.plain.render 1) ↔
      ∀ line ∈ Str.lines (NarInfoMeta.plain.render 1),
        keyValue line ≠ some ("Compression", "none") :=
  nixCompression_toNarinfoString_iff parse_plain

/-- The text says `Compression: none`; the rendered one has no such line, which means `bzip2`. -/
theorem nixCompression_none_becomes_bzip2 :
    ∃ info, parse (NarInfoMeta.render { NarInfoMeta.plain with compression := some "none" } 1) =
        .ok info ∧
      nixCompression (NarInfoMeta.render { NarInfoMeta.plain with compression := some "none" } 1) =
        "none" ∧
      nixCompression info.toNarinfoString = "bzip2" := by
  let uncompressed : NarInfoMeta := { NarInfoMeta.plain with compression := some "none" }
  have hchecked : uncompressed.Checked := NarInfoMeta.checked_plain_compression (by decide)
  have hsafe : uncompressed.LineSafe :=
    { NarInfoMeta.lineSafe_plain with
      compression := fun name hmem => by
        obtain rfl := Option.some.inj hmem
        exact isValue_of_isWord ⟨by decide, by decide⟩ }
  have hrenderable : uncompressed.Renderable := ⟨hsafe, NarInfoMeta.renderable_plain.trimmedDeriver⟩
  refine ⟨⟨NarInfoMeta.plain, 1⟩, NarInfoMeta.parse_render hchecked (by decide) hrenderable, ?_, ?_⟩
  · exact nixCompression_render hchecked hsafe
  · exact nixCompression_render NarInfoMeta.checked_plain NarInfoMeta.lineSafe_plain

end NarInfo

end NixCache.Core
