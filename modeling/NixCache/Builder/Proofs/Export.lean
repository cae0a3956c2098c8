import NixCache.Builder.Export
import NixCache.Core.Proofs.NarinfoRoundTrip
import NixCache.Core.Proofs.StorePath
import NixCache.Oci.Proofs.Faithful
/-!
# The sizes of an exported path

An entry holds the larger of the size of the upload and the size of the NAR, and its narinfo states
that one as the size of the NAR.
-/

namespace NixCache.Builder

open NixCache.Lib NixCache.Lib.Result NixCache.Core NixCache.Oci

/-! ## What a narinfo states -/

/-- The value of the first line of a key. -/
def stated (key : NarInfoKey) (text : String) : Option String :=
  (valuesOf key (fieldsOf text)).head?

/-- The fields of an exported entry up to the size of the NAR. -/
def leadingFields (info : NarInfoMeta) (fileHash : String) (fileSize narSize : UInt64) :
    List (NarInfoKey × String) :=
  [(.storePath, info.storePath), (.url, "nar/" ++ info.narBasename), (.compression, "zstd"),
    (.fileHash, fileHash), (.fileSize, toString fileSize.toNat), (.narHash, info.narHash),
    (.narSize, toString narSize.toNat)]

section

variable {info : NarInfoMeta} {fileHash : String} {fileSize narSize : UInt64}

theorem exists_renderedFields (hcompression : info.compression = some "zstd")
    (hfileHash : info.fileHash = some fileHash) (hfileSize : info.fileSize = some fileSize) :
    ∃ rest, info.renderedFields narSize = leadingFields info fileHash fileSize narSize ++ rest := by
  rw [NarInfoMeta.renderedFields, hcompression, hfileHash, hfileSize]
  simp only [Option.toList_some, List.map_singleton, List.append_assoc]
  exact ⟨_, rfl⟩

/-- The checks of an entry leave no line break before the references. -/
theorem leadingFields_oneLine (hchecked : info.Checked) (hpath : '\n' ∉ info.storePath.toList)
    (hfileHash : info.fileHash = some fileHash) :
    ∀ field ∈ leadingFields info fileHash fileSize narSize, '\n' ∉ (renderLine field).toList := by
  have hword : ∀ {s : String}, Str.IsWord s → '\n' ∉ s.toList :=
    fun hs => (isValue_of_isWord hs).oneLine
  have hurl : '\n' ∉ ("nar/" ++ info.narBasename).toList :=
    hword (isWord_narUrl (validateNarBasename_eq_ok.mp hchecked.narBasename).1)
  have hvalues : ∀ field ∈ leadingFields info fileHash fileSize narSize,
      '\n' ∉ field.2.toList := by
    simp only [leadingFields, List.forall_mem_cons, List.not_mem_nil, false_imp_iff,
      implies_true, and_true]
    exact ⟨hpath, hurl, by decide,
      hword (isWord_of_validateNixHash (hchecked.fileHash fileHash hfileHash)),
      hword (isWord_toString _), hword (isWord_of_validateNixHash hchecked.narHash),
      hword (isWord_toString _)⟩
  intro field hfield
  rw [toList_renderLine]
  have hname := field.1.name_shape.2.2.1
  simp [hname, hvalues field hfield]

/-- The sizes that the text states are the ones it was rendered with. -/
theorem stated_render (hchecked : info.Checked) (hpath : '\n' ∉ info.storePath.toList)
    (hcompression : info.compression = some "zstd") (hfileHash : info.fileHash = some fileHash)
    (hfileSize : info.fileSize = some fileSize) :
    stated .narSize (info.render narSize) = some (toString narSize.toNat) ∧
      stated .fileSize (info.render narSize) = some (toString fileSize.toNat) := by
  obtain ⟨rest, hfields⟩ := @exists_renderedFields info fileHash fileSize narSize
    hcompression hfileHash hfileSize
  have htext := NarInfoMeta.toList_render info narSize
  rw [hfields, List.map_append, List.flatMap_append] at htext
  have hread := NarInfoMeta.fieldsOf_of_renderLines
    (leadingFields_oneLine hchecked hpath hfileHash) htext
  have hvalue : ∀ (key : NarInfoKey) (n : Nat),
      valuesOf key ((leadingFields info fileHash fileSize narSize).map fun field =>
        (field.1, Str.trim field.2)) = [Str.trim (toString n)] →
      stated key (info.render narSize) = some (toString n) := by
    intro key n hvalues
    rw [stated, hread, valuesOf_append, hvalues, (isWord_toString n).trim]
    rfl
  exact ⟨hvalue .narSize _ rfl, hvalue .fileSize _ rfl⟩

end

/-! ## The entry -/

/-- The checks of the name leave nothing around the hash of the path. -/
theorem newline_not_mem_of_readFileName {path text : String} {storeHash : StoreHash}
    (hread : readFileName path = .ok (text, storeHash))
    (hpath : ∃ hash, validateStorePath path = .ok hash) : '\n' ∉ path.toList := by
  obtain ⟨hash, hvalid⟩ := hpath
  obtain ⟨before, after, name, hpadded⟩ := validateStorePath_eq_ok.mp hvalid
  simp only [readFileName, bind_eq_ok, okOr_eq_ok, ensure_eq_ok, mapErr_eq_ok, pure_eq_ok,
    hpadded.fileName_eq, Option.some.injEq, exists_eq_left', String.toList_ofList] at hread
  obtain ⟨_, -, front, hslice, _, hparse, _, hdash, -⟩ := hread
  obtain ⟨rfl, rfl⟩ := hpadded.slice_eq hslice hparse
  have hafter : after = [] := by
    rw [List.nil_append, List.append_assoc, List.drop_left] at hdash
    cases after with
    | nil => rfl
    | cons c after =>
        rw [List.cons_append, List.head?_cons] at hdash
        have hblank := hpadded.blankAfter c (by simp)
        rw [Option.some.inj hdash] at hblank
        cases hblank
  rw [hpadded.text, hafter]
  simp only [List.nil_append, List.append_nil, List.mem_append, List.mem_cons, not_or]
  refine ⟨by decide, hpadded.digits.not_mem rfl, by decide, ?_⟩
  intro hmem
  have hplain := (hpadded.isName.plain _ hmem).2
  cases hplain

/-- The entry of an upload: the fields that its sizes depend on. -/
theorem buildEntry_eq_ok {X : Crates} {item : NixPathInfoItem} {hash : String}
    {digest : ContentDigest} {narSize : UInt64} {now : String} {system : SystemArch}
    {origin : Option OriginMetadata} {entry : IndexEntry}
    (h : buildEntry X item hash digest narSize now system origin = .ok entry) :
    entry.narSize = max narSize item.narSize ∧ entry.narinfoMeta.Checked ∧
      entry.narinfoMeta.storePath = item.path ∧ entry.narinfoMeta.compression = some "zstd" ∧
      entry.narinfoMeta.fileHash = some entry.narDigest.val ∧
      entry.narinfoMeta.fileSize = some narSize := by
  simp only [buildEntry, bind_eq_ok, mapErr_eq_ok, pure_eq_ok] at h
  obtain ⟨narDigest, -, deriver, -, name, -, _, hvalid, rfl⟩ := h
  simp only [IndexEntry.validateStructure, bind_eq_ok] at hvalid
  obtain ⟨_, -, _, -, _, hinfo, -⟩ := hvalid
  exact ⟨rfl, NarInfoMeta.validateStructure_eq_ok.mp hinfo, rfl, rfl, rfl, rfl⟩

/-! ## The export -/

section

variable {X : OciCrates} {client : OciClient} {config : UploadConfig} {run : ExportRun}
  {item : NixPathInfoItem} {system : SystemArch} {origin : Option OriginMetadata}
  {trace : Program.Trace UploadRequest Reply} {exported : ExportedStorePath}

/-- The narinfo of an exported path states the size of the NAR and that of the uploaded stream
exactly if the stream is not longer than the NAR. -/
theorem exportSingleItemStream_sizes_iff
    (hruns : (exportSingleItemStream X client config run item system origin).Runs trace
      (.ok exported)) :
    ∃ chunks : List Bytes, run.stream = chunks.map Except.ok ∧
      (stated .narSize exported.indexEntry.toNarinfoString = some (toString item.narSize.toNat) ∧
          stated .fileSize exported.indexEntry.toNarinfoString =
            some (toString chunks.flatten.length) ↔
        chunks.flatten.length ≤ item.narSize.toNat) := by
  unfold exportSingleItemStream at hruns
  rw [Action.runs_ofExcept_bind_ok] at hruns
  obtain ⟨⟨text, storeHash⟩, hread, hruns⟩ := hruns
  dsimp only at hruns
  rw [Action.runs_ofExcept_bind_ok] at hruns
  obtain ⟨_, -, hruns⟩ := hruns
  obtain ⟨upload, rest, ⟨digest, size⟩, rfl, hupload, hruns⟩ := Action.runs_bind_ok.mp hruns
  simp only [Action.runs_ofExcept_bind_ok, Action.runs_pure] at hruns
  obtain ⟨_, -, _, -, entry, hentry, -, hexported⟩ := hruns
  obtain ⟨rfl⟩ := Except.ok.inj hexported
  have hbytes : ∃ chunks : List Bytes, run.stream = chunks.map Except.ok ∧
      Faithful X client config (fun _ => 0) (fun _ => []) chunks.flatten upload digest size :=
    faithful_of_runs (Action.runs_mapErr_ok.mp hupload)
  obtain ⟨chunks, hchunks, hfaithful⟩ := hbytes
  refine ⟨chunks, hchunks, ?_⟩
  obtain ⟨hmax, hchecked, hpath, hcompression, hfileHash, hfileSize⟩ := buildEntry_eq_ok hentry
  have hline : '\n' ∉ entry.narinfoMeta.storePath.toList := by
    rw [hpath]
    exact newline_not_mem_of_readFileName hread (hpath ▸ hchecked.storePath)
  obtain ⟨hnarSize, hfile⟩ := @stated_render _ _ _ entry.narSize hchecked hline hcompression
    hfileHash hfileSize
  show stated .narSize (entry.narinfoMeta.render entry.narSize) = _ ∧
    stated .fileSize (entry.narinfoMeta.render entry.narSize) = _ ↔ _
  rw [hnarSize, hfile, Option.some.injEq, Option.some.injEq, Str.toString_inj, Str.toString_inj,
    hmax]
  have hitem := item.narSize.toNat_lt
  have hlarger : (max size item.narSize).toNat = max size.toNat item.narSize.toNat := by
    show (if size ≤ item.narSize then item.narSize else size).toNat = _
    split
    next hle =>
      have hle := UInt64.le_iff_toNat_le.mp hle
      omega
    next hgt =>
      have hgt := UInt64.lt_iff_toNat_lt.mp (UInt64.not_le.mp hgt)
      omega
  rw [hlarger, hfaithful.size_eq, UInt64.toNat_ofNat']
  omega

end

/-! ## Two exports of one stream -/

def sampleItem (narSize : UInt64) : NixPathInfoItem :=
  ⟨"/nix/store/" ++ zeros ++ "-hello",
    "sha256:0000000000000000000000000000000000000000000000000000", narSize, [], none, [], none⟩

/-- An export whose stream is one block of a mebibyte. -/
def sampleRun : ExportRun := ⟨.ok (), [.ok mebibyte], .ok (), .ok (), "2024-01-01T00:00:00Z"⟩

/-- The metadata of the sample with the digest of the block. -/
def sampleInfo (digest : DigestBytes) (fileSize : UInt64) : NarInfoMeta :=
  ⟨"/nix/store/" ++ zeros ++ "-hello", zeros ++ ".nar.zst", some "zstd",
    some (formatDigest digest), some fileSize,
    "sha256:0000000000000000000000000000000000000000000000000000", [], none, [], none⟩

theorem checked_sampleInfo (digest : DigestBytes) {fileSize : UInt64} (hsize : fileSize ≠ 0) :
    (sampleInfo digest fileSize).Checked where
  storePath := by
    show ∃ hash, validateStorePath ("/nix/store/" ++ zeros ++ "-hello") = .ok hash
    exact ⟨⟨zeros⟩, by decide⟩
  narBasename := by
    show validateNarBasename (zeros ++ ".nar.zst") = .ok ()
    decide
  fileHash := by
    intro hash hmem
    obtain rfl := Option.some.inj hmem
    exact validateNixHash_formatDigest digest
  compression := by
    intro name hmem
    obtain rfl := Option.some.inj hmem
    decide
  ca := by simp [sampleInfo]
  fileSize := by
    intro size hmem
    obtain rfl := Option.some.inj hmem
    exact hsize
  narHash := by
    show validateNixHash "sha256:0000000000000000000000000000000000000000000000000000" = .ok ()
    decide
  references := by simp [sampleInfo]
  deriver := by simp [sampleInfo]

def sampleExport (digest : DigestBytes) (fileSize narSize : UInt64) : IndexEntry :=
  ⟨"hello", some .x86_64Linux, sampleInfo digest fileSize, ⟨formatDigest digest⟩,
    max fileSize narSize, "2024-01-01T00:00:00Z", none⟩

theorem buildEntry_sample (digest : DigestBytes) {fileSize narSize : UInt64}
    (hsize : fileSize ≠ 0) (hmax : max fileSize narSize ≠ 0) :
    buildEntry sampleCrates (sampleItem narSize) zeros ⟨formatDigest digest⟩ fileSize
      "2024-01-01T00:00:00Z" .x86_64Linux none = .ok (sampleExport digest fileSize narSize) := by
  have hname : readName (sampleItem narSize).path = .ok "hello" := by
    show readName ("/nix/store/" ++ zeros ++ "-hello") = .ok "hello"
    decide
  have hvalid : (sampleExport digest fileSize narSize).validateStructure sampleCrates = .ok () := by
    have hadded : ¬ Str.isEmpty (Str.trim "2024-01-01T00:00:00Z") ∧
        (sampleCrates.parseFromRfc3339 "2024-01-01T00:00:00Z").isSome := by
      decide
    simp only [IndexEntry.validateStructure, bind_eq_ok, ensure_eq_ok, mapErr_eq_ok]
    exact ⟨(), by simp [sampleExport, isEmpty_iff_toList], (), by simp [sampleExport], (),
      NarInfoMeta.validateStructure_eq_ok.mpr (checked_sampleInfo digest hsize), _,
      parse_formatDigest digest, (), hmax, (), hadded, rfl⟩
  simp only [buildEntry, bind_eq_ok, mapErr_eq_ok, pure_eq_ok]
  exact ⟨_, parse_formatDigest digest, none, rfl, "hello", hname, (), hvalid, rfl⟩

theorem readFileName_sample :
    readFileName ("/nix/store/" ++ zeros ++ "-hello") = .ok (zeros, ⟨zeros⟩) := by
  decide

/-- An export of an upload. -/
theorem runs_export {X : OciCrates} {client : OciClient} {config : UploadConfig} {run : ExportRun}
    {item : NixPathInfoItem} {system : SystemArch} {origin : Option OriginMetadata} {hash : String}
    {storeHash : StoreHash} {trace : Program.Trace UploadRequest Reply} {digest : ContentDigest}
    {size : UInt64} {entry : IndexEntry} (hread : readFileName item.path = .ok (hash, storeHash))
    (hspawned : run.spawned = .ok ())
    (hpush : (pushResumable X client config run.stream).Runs trace (.ok (digest, size)))
    (hcompressed : run.compressed = .ok ()) (hdumped : run.dumped = .ok ())
    (hentry : buildEntry X.toCrates item hash digest size run.now system origin = .ok entry) :
    (exportSingleItemStream X client config run item system origin).Runs trace
      (.ok ⟨storeHash, entry, size⟩) := by
  unfold exportSingleItemStream
  rw [Action.ofExcept_bind_eq hread]
  dsimp only
  rw [Action.ofExcept_bind_eq hspawned, ← List.append_nil trace]
  refine Action.Runs.bind (Action.runs_mapErr_ok.mpr hpush) ?_
  dsimp only
  rw [Action.ofExcept_bind_eq hcompressed, Action.ofExcept_bind_eq hdumped,
    Action.ofExcept_bind_eq hentry]
  exact ⟨rfl, rfl⟩

/-- The run of the sample, whatever the size of its NAR. -/
theorem runs_sample (narSize : UInt64) (hmax : max 1048576 narSize ≠ 0) :
    ∃ trace digest, (exportSingleItemStream uploadCrates uploadClient (mebibyteChunks 0) sampleRun
      (sampleItem narSize) .x86_64Linux none).Runs trace
        (.ok ⟨⟨zeros⟩, sampleExport digest 1048576 narSize, 1048576⟩) := by
  have hsize : UInt64.ofNat mebibyte.length = 1048576 := by
    rw [length_mebibyte]
    rfl
  have hpush := runs_challenged length_mebibyte
  rw [hsize] at hpush
  have hentry := @buildEntry_sample (uploadCrates.sha256 mebibyte) 1048576 narSize
    (by decide) hmax
  exact ⟨_, _, runs_export readFileName_sample rfl hpush rfl rfl hentry⟩

/-- A NAR of 1048500 bytes whose stream has 1048576: its narinfo states the latter. -/
theorem exportSingleItemStream_states_upload :
    ∃ trace exported, (exportSingleItemStream uploadCrates uploadClient (mebibyteChunks 0) sampleRun
        (sampleItem 1048500) .x86_64Linux none).Runs trace (.ok exported) ∧
      stated .narSize exported.indexEntry.toNarinfoString = some (toString 1048576) ∧
      stated .narSize exported.indexEntry.toNarinfoString ≠
        some (toString (sampleItem 1048500).narSize.toNat) := by
  obtain ⟨trace, digest, hruns⟩ := runs_sample 1048500 (by decide)
  have hpath : '\n' ∉ ("/nix/store/" ++ zeros ++ "-hello").toList := by decide
  have hstated : stated .narSize ((sampleInfo digest 1048576).render (max 1048576 1048500)) =
      some (toString (max 1048576 1048500 : UInt64).toNat) :=
    (stated_render (checked_sampleInfo digest (by decide)) hpath rfl rfl rfl).1
  refine ⟨trace, _, hruns, hstated, ?_⟩
  show stated .narSize ((sampleInfo digest 1048576).render (max 1048576 1048500)) ≠ _
  rw [hstated]
  decide

/-- A NAR of 2097152 bytes with the same stream. -/
theorem exportSingleItemStream_sizes_iff_sample :
    ∃ trace exported, (exportSingleItemStream uploadCrates uploadClient (mebibyteChunks 0) sampleRun
        (sampleItem 2097152) .x86_64Linux none).Runs trace (.ok exported) ∧
      stated .narSize exported.indexEntry.toNarinfoString = some (toString 2097152) := by
  obtain ⟨trace, digest, hruns⟩ := runs_sample 2097152 (by decide)
  obtain ⟨chunks, hchunks, hsizes⟩ := exportSingleItemStream_sizes_iff hruns
  have hone : chunks = [mebibyte] := by
    cases chunks with
    | nil => cases hchunks
    | cons chunk chunks =>
        obtain ⟨hhead, htail⟩ := List.cons.inj hchunks
        rw [Except.ok.inj hhead, List.map_eq_nil_iff.mp htail.symm]
  have hlen : chunks.flatten.length ≤ (sampleItem 2097152).narSize.toNat := by
    rw [hone, List.flatten_singleton, length_mebibyte]
    decide
  exact ⟨trace, _, hruns, (hsizes.mpr hlen).1⟩

end NixCache.Builder
