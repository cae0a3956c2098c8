import NixCache.Builder.Promote
import NixCache.Core.Proofs.Decoding
import NixCache.Core.Proofs.Receipt
import NixCache.Oci.Proofs.Sample
/-!
# Receipts on their way to promotion

A worker writes the receipt that `BuildReceipt::new` returned, and promotion reads it with a decoder
that checks more than `new` does.  A receipt that it refuses is skipped.
-/

namespace NixCache.Core

open NixCache.Lib NixCache.Lib.Result NixCache.Lib.Json

variable {X : Crates}

@[simp] theorem BuildStats.fromJson_toJson (stats : BuildStats) :
    fromJson stats.toJson = .ok stats := by
  unfold fromJson toJson
  rw [record_obj (by simp)]
  simp [field, List.lookup_cons]

/-! ## Receipts -/

namespace BuildReceipt

variable {receipt final : BuildReceipt}

theorem validateStructure_eq_ok : receipt.validateStructure X = .ok () ↔
    receipt.version = receiptVersion ∧ receipt.system.isKnown = true ∧
      ¬ Str.isEmpty (Str.trim receipt.repo) = true ∧ isTimestamp X receipt.timestamp = true ∧
      receipt.HasOneOrigin ∧ ∀ hash entry, receipt.newEntries.lookup hash = some entry →
        entry.validateStructure X = .ok () := by
  unfold validateStructure HasOneOrigin
  simp only [bind_eq_ok, ensure_eq_ok, checkAll_eq_ok, mapErr_eq_ok, Unique.exists_iff, Prod.forall,
    HashMap.mem_toList_iff]

/-- The receipt is in the form that the decoder returns. -/
structure IsReadable (X : Crates) (receipt : BuildReceipt) : Prop where
  valid : receipt.validateStructure X = .ok ()
  entries : ∀ hash entry, receipt.newEntries.lookup hash = some entry →
    hash.IsCanonical ∧ entry.IsReadable X
  roots : ∀ hash ∈ receipt.activeGcRoots, hash.IsCanonical

theorem isReadable_of_fromJson {json : Json} (h : fromJson X json = .ok receipt) :
    receipt.IsReadable X := by
  simp only [fromJson, bind_eq_ok, customError_eq_ok, pure_eq_ok, field] at h
  obtain ⟨_, _, _, _, _, _, _, _, _, _, _, _, _, _, _, ⟨_, _, hentries⟩, _, ⟨_, _, hroots⟩, _, _, _,
    hvalid, rfl⟩ := h
  refine ⟨hvalid, fun _ _ => entries_of_entriesFromJson hentries, fun hash hmem => ?_⟩
  unfold Json.list at hroots
  split at hroots
  · obtain ⟨item, _, hitem⟩ := exists_of_mem_collect hroots hmem
    exact StoreHash.isCanonical_of_fromJson hitem
  · cases hroots

/-- A receipt in that form is decoded to itself. -/
theorem fromJson_toJson (h : receipt.IsReadable X) : fromJson X receipt.toJson = .ok receipt := by
  have hparts := validateStructure_eq_ok.mp h.valid
  have horigin := (hasOneOrigin_iff.mp hparts.2.2.2.2.1).1
  have horigin' : ∀ value ∈ receipt.origin, value.validateStructure = .ok () := by
    intro value hvalue
    rw [Option.mem_def.mp hvalue] at horigin
    exact liftType_eq_ok.mp horigin
  have hentries : entriesFromJson X (entriesToJson receipt.newEntries) = .ok receipt.newEntries := by
    apply map_ofMap
    intro hash entry hlookup
    obtain ⟨hhash, hentry⟩ := h.entries hash entry hlookup
    unfold StoreHash.IsCanonical at hhash
    exact ⟨by simp [StoreHash.ofText, hhash], IndexEntry.fromJson_toJson hentry.valid hentry.digest⟩
  have hroots : Json.list StoreHash.fromJson
      (.arr (receipt.activeGcRoots.map StoreHash.toJson)) = .ok receipt.activeGcRoots :=
    list_arr fun hash hmem => StoreHash.fromJson_toJson (h.roots hash hmem)
  unfold fromJson toJson
  rw [record_obj (by simp)]
  simp [field, optionField, List.lookup_cons, hentries, hroots, h.valid,
    OriginMetadata.requiredOption_ofOption horigin']

theorem system_of_fromJson (h : fromJson X receipt.toJson = .ok final) :
    final.system = receipt.system := by
  unfold fromJson toJson at h
  rw [record_obj (by simp)] at h
  simp only [bind_eq_ok, customError_eq_ok, pure_eq_ok, Except.ok.injEq, exists_eq_left'] at h
  obtain ⟨_, _, system, hsystem, _, _, _, _, _, _, _, _, _, _, _, _, _, _, _, _, rfl⟩ := h
  have heq : receipt.system = system := by simpa [field, List.lookup_cons] using hsystem
  exact heq.symm

/-- The arguments of `new` that the decoder accepts and returns as they are. -/
structure IsRestorable (X : Crates) (system : SystemArch) (repo timestamp : String)
    (newEntries : HashMap StoreHash IndexEntry) (activeGcRoots : List StoreHash) : Prop where
  system : system.isKnown = true
  repo : ¬ Str.isEmpty (Str.trim repo) = true
  timestamp : isTimestamp X timestamp = true
  entries : ∀ hash entry, newEntries.lookup hash = some entry →
    hash.IsCanonical ∧ entry.IsReadable X
  roots : ∀ hash ∈ activeGcRoots, hash.IsCanonical

theorem new_eq_ok {system : SystemArch} {repo timestamp : String} {publicKey : Option String}
    {newEntries : HashMap StoreHash IndexEntry} {activeGcRoots : List StoreHash}
    {stats : BuildStats} {origin : Option OriginMetadata} :
    new system repo timestamp publicKey newEntries activeGcRoots stats origin = .ok receipt ↔
      receipt = ⟨receiptVersion, system, repo, origin, timestamp, publicKey, newEntries,
        activeGcRoots, stats⟩ ∧ receipt.HasOneOrigin := by
  simp only [new, HasOneOrigin, bind_eq_ok, pure_eq_ok]
  constructor
  · rintro ⟨_, hconsistent, rfl⟩
    exact ⟨rfl, hconsistent⟩
  · rintro ⟨rfl, hconsistent⟩
    exact ⟨(), hconsistent, rfl⟩

section New

variable {system : SystemArch} {repo timestamp : String} {publicKey : Option String}
  {newEntries : HashMap StoreHash IndexEntry} {activeGcRoots : List StoreHash} {stats : BuildStats}
  {origin : Option OriginMetadata}

theorem isReadable_iff
    (h : new system repo timestamp publicKey newEntries activeGcRoots stats origin = .ok receipt) :
    receipt.IsReadable X ↔ IsRestorable X system repo timestamp newEntries activeGcRoots := by
  obtain ⟨rfl, hconsistent⟩ := new_eq_ok.mp h
  constructor
  · rintro ⟨hvalid, hentries, hroots⟩
    obtain ⟨_, hsystem, hrepo, htimestamp, _⟩ := validateStructure_eq_ok.mp hvalid
    exact ⟨hsystem, hrepo, htimestamp, hentries, hroots⟩
  · intro h
    refine ⟨validateStructure_eq_ok.mpr ⟨rfl, h.system, h.repo, h.timestamp, hconsistent, ?_⟩,
      h.entries, h.roots⟩
    intro hash entry hlookup
    exact (h.entries hash entry hlookup).2.valid

end New

/-- Equal receipts are in that form together. -/
theorem IsReadable.of_same (h : final.IsReadable X) (hsame : final.Same receipt)
    (hconsistent : receipt.HasOneOrigin) : receipt.IsReadable X := by
  obtain ⟨hversion, hsystem, hrepo, htimestamp, _, hentries⟩ := validateStructure_eq_ok.mp h.valid
  rw [hsame.version] at hversion
  rw [hsame.system] at hsystem
  rw [hsame.repo] at hrepo
  rw [hsame.timestamp] at htimestamp
  simp only [hsame.entries] at hentries
  refine ⟨validateStructure_eq_ok.mpr
    ⟨hversion, hsystem, hrepo, htimestamp, hconsistent, hentries⟩, ?_, ?_⟩
  · simpa only [hsame.entries] using h.entries
  · simpa only [hsame.roots] using h.roots

end BuildReceipt

end NixCache.Core

namespace NixCache.Builder

open NixCache.Lib NixCache.Lib.Result NixCache.Core NixCache.Oci

variable {X : OciCrates} {system : SystemArch} {repo timestamp : String} {publicKey : Option String}
  {newEntries : HashMap StoreHash IndexEntry} {activeGcRoots : List StoreHash} {stats : BuildStats}
  {origin : Option OriginMetadata} {receipt : BuildReceipt}

/-! ## What promotion loads -/

theorem loadReceipts_singleton (content : String) :
    loadReceipts X [some content] =
      (ManifestClient.parseJson X (BuildReceipt.fromJson X.toCrates) content).toOption.toList := by
  unfold loadReceipts
  generalize ManifestClient.parseJson X (BuildReceipt.fromJson X.toCrates) = parse
  simp only [List.filterMap_cons, List.filterMap_nil, Option.bind_eq_bind, Option.bind_some]
  cases parse content with
  | error error => rfl
  | ok loaded => rfl

theorem loadReceipts_written {document : Json} {loaded : BuildReceipt} (h : ReadsBack X document) :
    loadReceipts X [some (X.jsonText document)] = [loaded] ↔
      BuildReceipt.fromJson X.toCrates document = .ok loaded := by
  have hparse : ManifestClient.parseJson X (BuildReceipt.fromJson X.toCrates)
      (X.jsonText document) = liftJson (BuildReceipt.fromJson X.toCrates document) :=
    IndexCodec.decodeJson_toVec h _
  rw [loadReceipts_singleton, hparse]
  generalize BuildReceipt.fromJson X.toCrates document = decoded
  cases decoded with
  | error error => simp [liftJson, mapErr, Except.toOption]
  | ok value => simp [liftJson, mapErr, Except.toOption]

theorem loadReceipts_unknown (h : ReadsBack X receipt.toJson) (hsystem : receipt.system = .unknown) :
    loadReceipts X [some (X.jsonText receipt.toJson)] = [] := by
  have hlength : (loadReceipts X [some (X.jsonText receipt.toJson)]).length ≤ 1 :=
    List.length_filterMap_le _ _
  cases hloaded : loadReceipts X [some (X.jsonText receipt.toJson)] with
  | nil => rfl
  | cons loaded rest =>
      rw [hloaded, List.length_cons] at hlength
      obtain rfl : rest = [] := List.length_eq_zero_iff.mp (by omega)
      have hjson := (loadReceipts_written h).mp hloaded
      have hvalid := (BuildReceipt.isReadable_of_fromJson hjson).valid
      have hknown := (BuildReceipt.validateStructure_eq_ok.mp hvalid).2.1
      rw [BuildReceipt.system_of_fromJson hjson, hsystem] at hknown
      cases hknown

/-- The receipt of a worker is loaded as it was written exactly when its arguments are restorable;
`new` asks for the consistent origin only. -/
theorem loadReceipts_written_iff
    (hnew : BuildReceipt.new system repo timestamp publicKey newEntries activeGcRoots stats origin =
      .ok receipt)
    (hread : ReadsBack X receipt.toJson) :
    (∃ loaded, loadReceipts X [some (X.jsonText receipt.toJson)] = [loaded] ∧
        loaded.Same receipt) ↔
      BuildReceipt.IsRestorable X.toCrates system repo timestamp newEntries activeGcRoots := by
  rw [← BuildReceipt.isReadable_iff hnew]
  simp only [loadReceipts_written hread]
  constructor
  · rintro ⟨loaded, hloaded, hsame⟩
    have hreadable := BuildReceipt.isReadable_of_fromJson hloaded
    exact hreadable.of_same hsame (BuildReceipt.new_eq_ok.mp hnew).2
  · intro hreadable
    exact ⟨receipt, BuildReceipt.fromJson_toJson hreadable, BuildReceipt.Same.refl receipt⟩

/-! ## Two receipts with one entry -/

open NixCache.Lib.JsonText (isPlain arePlainFields)

theorem isPlain_receipt (receipt : BuildReceipt) : isPlain receipt.toJson = true := by
  have hentries : isPlain (entriesToJson receipt.newEntries) = true := by
    unfold entriesToJson Json.ofMap
    simp [isPlain, isPlain_entry]
  have horigin : ∀ origin : OriginMetadata, isPlain origin.toJson = true := by
    intro origin
    simp [OriginMetadata.toJson, isPlain, arePlainFields]
  simp [BuildReceipt.toJson, BuildStats.toJson, SystemArch.toJson, StoreHash.toJson, isPlain,
    arePlainFields, hentries, isPlain_ofOption horigin]

def sampleEntries : HashMap StoreHash IndexEntry :=
  HashMap.ofList [(sampleHash '1', sampleEntry '1' [])]

def receiptOf (system : SystemArch) : BuildReceipt :=
  ⟨receiptVersion, system, "owner/repo", none, "2024-01-01T00:00:00Z", none, sampleEntries,
    [sampleHash '1'], ⟨1, 1, 0, 1, 100⟩⟩

theorem new_receiptOf (system : SystemArch) :
    BuildReceipt.new system "owner/repo" "2024-01-01T00:00:00Z" none sampleEntries [sampleHash '1']
      ⟨1, 1, 0, 1, 100⟩ none = .ok (receiptOf system) := by
  rfl

theorem loadReceipts_written_iff_sample :
    (∃ loaded,
      loadReceipts (storingCrates sampleCrates)
          [some (JsonText.render (receiptOf .x86_64Linux).toJson)] = [loaded] ∧
        loaded.Same (receiptOf .x86_64Linux)) ↔
      BuildReceipt.IsRestorable sampleCrates .x86_64Linux "owner/repo" "2024-01-01T00:00:00Z"
        sampleEntries [sampleHash '1'] :=
  loadReceipts_written_iff (new_receiptOf .x86_64Linux) (readsBack_of_isPlain (isPlain_receipt _))

/-- `new` returns a receipt for a system that is not known, and promotion skips what was written. -/
theorem unknownReceipt_skipped :
    BuildReceipt.new .unknown "owner/repo" "2024-01-01T00:00:00Z" none sampleEntries [sampleHash '1']
        ⟨1, 1, 0, 1, 100⟩ none = .ok (receiptOf .unknown) ∧
      ReadsBack (storingCrates sampleCrates) (receiptOf .unknown).toJson ∧
      loadReceipts (storingCrates sampleCrates)
        [some (JsonText.render (receiptOf .unknown).toJson)] = [] := by
  have hread : ReadsBack (storingCrates sampleCrates) (receiptOf .unknown).toJson :=
    readsBack_of_isPlain (isPlain_receipt _)
  exact ⟨new_receiptOf .unknown, hread, loadReceipts_unknown hread rfl⟩

end NixCache.Builder
