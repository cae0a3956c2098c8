import NixCache.Core.Proofs.Index
import NixCache.Oci.Manifest
/-!
# Written manifests are read back

Each decoder returns the value its encoder was given, and a manifest is never taken for an index.
-/

namespace NixCache.Oci

open NixCache.Lib NixCache.Lib.Result NixCache.Lib.Json NixCache.Core

@[simp] theorem liftCore_eq_ok {α : Type} {x : Except CoreError α} {value : α} :
    liftCore x = .ok value ↔ x = .ok value := mapErr_eq_ok

@[simp] theorem liftJson_eq_ok {α : Type} {x : Except JsonError α} {value : α} :
    liftJson x = .ok value ↔ x = .ok value := mapErr_eq_ok

/-! ## Documents and their text -/

/-- `serde_json` reads the document back from the text it wrote for it. -/
def ReadsBack (X : OciCrates) (document : Json) : Prop :=
  X.fromSlice (IndexCodec.toVec X document) = .ok document

@[simp] theorem IndexCodec.decodeJson_eq_ok {X : OciCrates} {α : Type}
    {decode : Json → Except JsonError α} {bytes : Bytes} {value : α} :
    decodeJson X decode bytes = .ok value ↔
      ∃ document, X.fromSlice bytes = .ok document ∧ decode document = .ok value := by
  simp [decodeJson]

theorem IndexCodec.decodeJson_toVec {X : OciCrates} {α : Type} {document : Json}
    (h : ReadsBack X document) (decode : Json → Except JsonError α) :
    decodeJson X decode (toVec X document) = liftJson (decode document) := by
  rw [decodeJson, h]
  rfl

/-! ## Encoders and decoders -/

@[simp] theorem Annotations.fromJson_toJson (annotations : Annotations) :
    fromJson annotations.toJson = .ok annotations :=
  map_ofMap fun _ _ _ => ⟨rfl, rfl⟩

@[simp] theorem Annotations.option_toJson (annotations : Option Annotations) :
    option fromJson (ofOption toJson annotations) = .ok annotations :=
  option_ofOption (by simp [toJson, ofMap]) fun value _ => fromJson_toJson value

@[simp] theorem OciPlatform.fromJson_toJson (platform : OciPlatform) :
    fromJson platform.toJson = .ok platform := by
  unfold fromJson toJson
  rw [record_obj (by simp)]
  simp [field, optionField, List.lookup_cons]

@[simp] theorem OciPlatform.option_toJson (platform : Option OciPlatform) :
    option fromJson (ofOption toJson platform) = .ok platform :=
  option_ofOption (by simp [toJson]) fun value _ => fromJson_toJson value

@[simp] theorem OciDescriptor.fromJson_toJson (descriptor : OciDescriptor) :
    fromJson descriptor.toJson = .ok descriptor := by
  unfold fromJson toJson
  rw [record_obj (by simp)]
  simp [field, optionField, List.lookup_cons]

@[simp] theorem OciDescriptor.list_toJson (descriptors : List OciDescriptor) :
    Json.list fromJson (.arr (descriptors.map toJson)) = .ok descriptors :=
  list_arr fun descriptor _ => fromJson_toJson descriptor

@[simp] theorem OciImageIndex.fromJson_toJson (index : OciImageIndex) :
    fromJson index.toJson = .ok index := by
  unfold fromJson toJson
  rw [record_obj (by simp)]
  simp [field, optionField, List.lookup_cons]

@[simp] theorem OciImageManifest.fromJson_toJson (manifest : OciImageManifest) :
    fromJson manifest.toJson = .ok manifest := by
  unfold fromJson toJson
  rw [record_obj (by simp)]
  simp [field, optionField, List.lookup_cons]

namespace OciArtifactManifest

theorem fromJson_of_index {json : Json} {value : OciImageIndex}
    (h : OciImageIndex.fromJson json = .ok value) : fromJson json = .ok (index value) := by
  rw [fromJson, h]

theorem fromJson_of_manifest {json : Json} {value : OciImageManifest}
    (hindex : ∀ index, OciImageIndex.fromJson json ≠ .ok index)
    (h : OciImageManifest.fromJson json = .ok value) : fromJson json = .ok (manifest value) := by
  unfold fromJson
  cases hjson : OciImageIndex.fromJson json with
  | ok index => exact absurd hjson (hindex index)
  | error error => rw [h]

@[simp] theorem fromJson_index (value : OciImageIndex) :
    fromJson value.toJson = .ok (index value) :=
  fromJson_of_index (OciImageIndex.fromJson_toJson value)

/-- An image manifest has no `manifests`. -/
@[simp] theorem fromJson_manifest (value : OciImageManifest) :
    fromJson value.toJson = .ok (manifest value) := by
  apply fromJson_of_manifest _ (OciImageManifest.fromJson_toJson value)
  intro index h
  simp only [OciImageIndex.fromJson, OciImageManifest.toJson, bind_eq_ok] at h
  obtain ⟨fields, hfields, _, _, _, _, manifests, hmanifests, _⟩ := h
  rw [record_obj (by simp)] at hfields
  cases hfields
  simp [field, List.lookup_cons] at hmanifests

theorem fromJson_eq_manifest {json : Json} {value : OciImageManifest}
    (h : fromJson json = .ok (manifest value)) : OciImageManifest.fromJson json = .ok value := by
  unfold fromJson at h
  split at h
  · cases h
  · split at h
    · rename_i hvalue
      cases h
      exact hvalue
    · cases h

end OciArtifactManifest

end NixCache.Oci
