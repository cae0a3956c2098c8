import NixCache.Core.Proofs.FreshRoot
import NixCache.Lib.JsonText
import NixCache.Oci.Proofs.RoundTrip
/-!
# Crates for examples

Compact JSON text, `zstd` frames that store their content as it is, and URIs split at their
delimiters, over any hash function.
-/

namespace NixCache.Oci

open NixCache.Lib NixCache.Lib.Result NixCache.Core

/-- `http::Uri` on texts with a scheme. -/
def splitUri (text : String) : Except String Uri :=
  match Str.splitOnceStr text "://" with
  | none => .error "invalid uri"
  | some (_, rest) =>
      let authority := rest.toList.takeWhile fun c => c ≠ '/' ∧ c ≠ '?' ∧ c ≠ '#'
      let target := rest.toList.drop authority.length
      if authority.isEmpty then .error "empty authority"
      else
        match Str.splitOnceChars '?' target with
        | none =>
            .ok ⟨some (String.ofList authority),
              if target.isEmpty then "/" else String.ofList target, none⟩
        | some (path, query) =>
            .ok ⟨some (String.ofList authority), String.ofList path, some (String.ofList query)⟩

def storingCrates (X : Crates) : OciCrates where
  toCrates := X
  jsonText := JsonText.render
  fromSlice := JsonText.parse
  zstdCompress data := .ok (zstdMagic ++ data)
  zstdRead raw limit := .ok ((raw.drop 4).take limit)
  parseUri := splitUri
  toLowercase := Str.toAsciiLowercase
  parseWwwAuthenticate _ := .ok none

def sampleClient : OciClient :=
  ⟨⟨.https, "cache.azurecr.io", none, "cache.azurecr.io", ""⟩, "owner/repo", .azureAcr, {}⟩

section

open NixCache.Lib.JsonText (isPlain arePlain arePlainFields)

theorem readsBack_of_isPlain {X : Crates} {document : Json} (h : isPlain document = true) :
    ReadsBack (storingCrates X) document :=
  JsonText.parse_render h

@[simp] theorem arePlain_map {α : Type} (encode : α → Json) (values : List α) :
    arePlain (values.map encode) = values.all fun value => isPlain (encode value) := by
  induction values with
  | nil => rfl
  | cons value values ih => simp [arePlain, ih]

@[simp] theorem arePlainFields_map {α : Type} (name : α → String) (encode : α → Json)
    (values : List α) :
    arePlainFields (values.map fun value => (name value, encode value)) =
      values.all fun value => isPlain (encode value) := by
  induction values with
  | nil => rfl
  | cons value values ih => simp [arePlainFields, ih]

theorem isPlain_ofOption {α : Type} {encode : α → Json} (h : ∀ value, isPlain (encode value) = true)
    (value : Option α) : isPlain (Json.ofOption encode value) = true := by
  cases value with
  | none => rfl
  | some value => exact h value

@[simp] theorem isPlain_str (value : Option String) : isPlain (Json.ofOption .str value) = true :=
  isPlain_ofOption (fun _ => rfl) value

@[simp] theorem Annotations.isPlain_toJson (annotations : Annotations) :
    isPlain annotations.toJson = true := by
  unfold toJson Json.ofMap
  simp [isPlain]

@[simp] theorem OciPlatform.isPlain_toJson (platform : OciPlatform) :
    isPlain platform.toJson = true := by
  simp [toJson, isPlain, arePlainFields]

@[simp] theorem OciDescriptor.isPlain_toJson (descriptor : OciDescriptor) :
    isPlain descriptor.toJson = true := by
  simp [toJson, isPlain, arePlainFields, isPlain_ofOption]

@[simp] theorem OciImageManifest.isPlain_toJson (manifest : OciImageManifest) :
    isPlain manifest.toJson = true := by
  simp [toJson, isPlain, arePlainFields, isPlain_ofOption]

@[simp] theorem OciImageIndex.isPlain_toJson (index : OciImageIndex) :
    isPlain index.toJson = true := by
  simp [toJson, isPlain, arePlainFields, isPlain_ofOption]

@[simp] theorem isPlain_nat (value : Option UInt64) :
    isPlain (Json.ofOption (fun n => .int n.toNat) value) = true :=
  isPlain_ofOption (fun _ => rfl) value

theorem isPlain_descriptor (descriptor : ShardDescriptor) :
    isPlain descriptor.toJson = true := by
  simp [ShardDescriptor.toJson, isPlain, arePlainFields]

theorem isPlain_root (root : ShardedArchCacheIndexData) : isPlain root.toJson = true := by
  simp [ShardedArchCacheIndexData.toJson, SystemArch.toJson, StoreHash.toJson, isPlain,
    arePlainFields, isPlain_descriptor]

theorem isPlain_entry (entry : IndexEntry) : isPlain entry.toJson = true := by
  have horigin : ∀ origin : OriginMetadata, isPlain origin.toJson = true := by
    intro origin
    simp [OriginMetadata.toJson, isPlain, arePlainFields]
  have hsystem : ∀ system : SystemArch, isPlain system.toJson = true := fun _ => rfl
  simp [IndexEntry.toJson, NarInfoMeta.toJson, NarDigest.toJson, isPlain, arePlainFields,
    isPlain_ofOption horigin, isPlain_ofOption hsystem]

theorem isPlain_payload (payload : ShardDataPayload) : isPlain payload.toJson = true := by
  have hentries : isPlain (entriesToJson payload.entries) = true := by
    unfold entriesToJson Json.ofMap
    simp [isPlain, isPlain_entry]
  simp [ShardDataPayload.toJson, isPlain, arePlainFields, hentries]

theorem codecLaws_storingCrates (X : Crates) : CodecLaws (storingCrates X) where
  manifest _ := readsBack_of_isPlain (by simp)
  index _ := readsBack_of_isPlain (by simp)
  root _ := readsBack_of_isPlain (isPlain_root _)
  payload _ := readsBack_of_isPlain (isPlain_payload _)
  magic := by
    rintro data raw h
    cases h
    simp [ZstdCodec.isValidMagic, zstdMagic]
  content := by
    rintro data raw limit h
    cases h
    rfl

end

/-! ## The documents of a fresh root are short -/

section

open NixCache.Lib.JsonText (weight weightItems weightFields)

theorem weight_nat_le {n : Nat} (h : n < 18446744073709551616) :
    weight (.int n) ≤ 66 := by
  have hsize : n.size ≤ 64 := Nat.size_le.mpr h
  rw [weight, Int.natAbs_natCast]
  omega

theorem length_toVec_le (X : Crates) (document : Json) :
    (IndexCodec.toVec (storingCrates X) document).length ≤ 4 * weight document :=
  JsonText.length_asBytes_render_le document

theorem weight_formatDigest (digest : DigestBytes) : weight (.str (formatDigest digest)) = 428 := by
  have hhex := length_flatMap_hexDigits digest.bytes
  rw [digest.size] at hhex
  rw [weight, formatDigest, String.length_append, String.length_ofList, String.length_ofList, hhex]
  rfl

theorem weight_emptyDescriptor_le (X : Crates) (shardId : UInt16) :
    weight (emptyDescriptor X shardId).toJson ≤ 1100 := by
  have hid := weight_nat_le (n := shardId.toNat) (by have := shardId.toNat_lt; omega)
  have hleading : weight (.str (shardIdToPrefix shardId)) = 14 := by
    rw [weight, shardIdToPrefix, String.length_ofList]
    rfl
  have hhash := weight_formatDigest (emptyShardDigest X shardId)
  have hzero : weight (.int (0 : Nat)) = 2 := rfl
  have hempty : weight (.str "") = 2 := rfl
  rw [ShardDescriptor.toJson, weight, JsonText.weightFields_eq]
  simp only [emptyDescriptor, List.map_cons, List.map_nil, List.sum_cons, List.sum_nil, hleading,
    hhash, UInt64.toNat_zero, hzero, hempty]
  change 502 + (weight (.int shardId.toNat) + 450) + 2 ≤ 1100
  omega

/-- The lengths of literal texts. -/
theorem weight_str (s : String) : weight (.str s) = 6 * s.toList.length + 2 := by
  rw [weight, String.length_toList]

/-- A root for the sample client. -/
structure IsSampleRoot (root : ShardedArchCacheIndexData) (now : String) : Prop where
  version : root.version = 8
  system : root.system = .x86_64Linux
  repo : root.repo = "owner/repo"
  registry : root.registry = "cache.azurecr.io"
  generated : root.generated = now
  publicKey : root.publicKey = ""
  gcRoots : root.gcRoots = []
  lastPromotedRun : root.lastPromotedRun = none

theorem IsSampleRoot.weight_le {root : ShardedArchCacheIndexData} {now : String} {n : Nat}
    (h : IsSampleRoot root now) (hmerkle : weight (.str root.merkleRoot) = 428)
    (hitems : weightItems (root.shards.map ShardDescriptor.toJson) ≤ n) :
    weight root.toJson ≤ n + 2576 + 6 * now.length := by
  have hsize : Nat.size 8 ≤ 4 := Nat.size_le.mpr (by decide)
  rw [weight_str] at hmerkle
  simp only [ShardedArchCacheIndexData.toJson, h.version, h.system, h.repo, h.registry, h.generated,
    h.publicKey, h.gcRoots, h.lastPromotedRun, SystemArch.toJson, SystemArch.asStr, weight,
    weightItems, weightFields, List.map_nil, ← String.length_toList, Json.ofOption, hmerkle]
  simp
  omega

theorem weight_ofPairs {pairs : List (String × String)} (h : (pairs.map Prod.fst).Nodup) :
    weight (Annotations.toJson (HashMap.ofList pairs)) =
      (pairs.map fun pair => 6 * pair.1.length + 4 + weight (.str pair.2)).sum + 2 := by
  have hfields : ∀ pairs : List (String × String),
      weightFields (pairs.map fun pair => (id pair.1, .str pair.2)) =
        (pairs.map fun pair => 6 * pair.1.length + 4 + weight (.str pair.2)).sum := by
    intro pairs
    induction pairs with
    | nil => rfl
    | cons pair pairs ih =>
        rw [List.map_cons, weightFields, ih, List.map_cons, List.sum_cons, id]
        omega
  rw [Annotations.toJson, Json.ofMap, HashMap.toList_ofList h, weight, hfields]

theorem weight_descriptor_le {descriptor : OciDescriptor} {bound : Nat}
    (hmedia : weight (.str descriptor.mediaType) ≤ 500)
    (hdigest : weight (.str descriptor.digest) ≤ 500)
    (hplatform : weight (Json.ofOption OciPlatform.toJson descriptor.platform) ≤ 500)
    (hannotations : weight (Json.ofOption Annotations.toJson descriptor.annotations) ≤ bound) :
    weight descriptor.toJson ≤ bound + 1900 := by
  have hsize := weight_nat_le descriptor.size.toNat_lt
  have hnames : 6 * "mediaType".length + 6 * "digest".length + 6 * "size".length +
    6 * "platform".length + 6 * "annotations".length = 228 := by decide
  rw [OciDescriptor.toJson, weight]
  simp only [weightFields]
  omega

theorem weight_manifest_le {manifest : OciImageManifest} {layer : OciDescriptor} {bound : Nat}
    (hmedia : weight (.str manifest.mediaType) ≤ 500)
    (hconfig : weight manifest.config.toJson ≤ 2000) (hlayers : manifest.layers = [layer])
    (hlayer : weight layer.toJson ≤ 5000)
    (hannotations : weight (Json.ofOption Annotations.toJson manifest.annotations) ≤ bound) :
    weight manifest.toJson ≤ bound + 8000 := by
  have hversion := weight_nat_le (n := manifest.schemaVersion.toNat)
    (by have := manifest.schemaVersion.toNat_lt; omega)
  have hnames : 6 * "schemaVersion".length + 6 * "mediaType".length + 6 * "config".length +
    6 * "layers".length + 6 * "annotations".length = 270 := by decide
  rw [OciImageManifest.toJson, weight]
  simp only [weightFields]
  rw [hlayers, List.map_singleton, show weight (.arr [layer.toJson]) = weight layer.toJson + 3 by
    simp only [weight, weightItems]]
  omega

theorem weight_layerAnnotations_le {root : ShardedArchCacheIndexData}
    (hsystem : root.system = .x86_64Linux) (hmerkle : weight (.str root.merkleRoot) = 428) :
    weight (Annotations.toJson (HashMap.ofList (layerAnnotations root))) ≤ 1100 := by
  have hrest : 6 * systemKey.length + 6 * merkleRootKey.length + 6 * schemaKey.length +
    weight (.str SystemArch.x86_64Linux.asStr) + weight (.str "8") ≤ 600 := by decide
  rw [weight_ofPairs (by simp [layerAnnotations, systemKey, merkleRootKey, schemaKey])]
  unfold layerAnnotations
  rw [List.map_cons, List.map_cons, List.map_cons, List.map_nil, List.sum_cons, List.sum_cons,
    List.sum_cons, List.sum_nil, hsystem]
  dsimp only
  rw [hmerkle]
  generalize systemKey.length = a, merkleRootKey.length = b, schemaKey.length = c,
    weight (.str SystemArch.x86_64Linux.asStr) = d, weight (.str "8") = e at *
  omega

theorem weight_rootAnnotations_le {root : ShardedArchCacheIndexData} {now : String}
    (hsystem : root.system = .x86_64Linux) (hmerkle : weight (.str root.merkleRoot) = 428) :
    weight (Annotations.toJson (HashMap.ofList (rootAnnotations now root))) ≤
      2100 + 6 * now.length := by
  have hrest : 6 * systemKey.length + 6 * merkleRootKey.length + 6 * schemaKey.length +
    weight (.str SystemArch.x86_64Linux.asStr) + weight (.str "8") ≤ 600 := by decide
  have hdescription : 6 * "org.opencontainers.image.created".length +
    6 * "org.opencontainers.image.description".length + weight (.str
      ("NixCache Sharded Merkle Baseline (" ++ SystemArch.x86_64Linux.asStr ++ ")")) ≤ 1000 := by
    decide
  rw [weight_ofPairs (by simp [rootAnnotations, systemKey, merkleRootKey, schemaKey])]
  unfold rootAnnotations
  rw [List.map_cons, List.map_cons, List.map_cons, List.map_cons, List.map_cons, List.map_nil,
    List.sum_cons, List.sum_cons, List.sum_cons, List.sum_cons, List.sum_cons, List.sum_nil,
    hsystem]
  dsimp only
  rw [hmerkle, weight_str now, String.length_toList]
  generalize systemKey.length = a, merkleRootKey.length = b, schemaKey.length = c,
    weight (.str SystemArch.x86_64Linux.asStr) = d, weight (.str "8") = e at *
  generalize "org.opencontainers.image.created".length = k,
    "org.opencontainers.image.description".length = l,
    weight (.str ("NixCache Sharded Merkle Baseline (" ++ SystemArch.x86_64Linux.asStr ++ ")")) = m
    at *
  omega

theorem weight_rootManifest_le {X : OciCrates} {root : ShardedArchCacheIndexData} {blob : Bytes}
    {now : String} (hsystem : root.system = .x86_64Linux)
    (hmerkle : weight (.str root.merkleRoot) = 428) :
    weight (rootManifest X now root blob).toJson ≤ 11000 + 6 * now.length := by
  have hdigest : weight (.str (digestOf X.toCrates blob)) = 428 := weight_formatDigest _
  have hmedia : weight (.str (rootLayer X root blob).mediaType) ≤ 500 := by
    change weight (.str rootIndexV8Zstd) ≤ 500
    decide
  have hplatform : weight (Json.ofOption OciPlatform.toJson
      (some (OciPlatform.fromSystem .x86_64Linux))) ≤ 500 := by decide
  have hlayer : weight (rootLayer X root blob).toJson ≤ 1100 + 1900 := by
    apply weight_descriptor_le hmedia
    · rw [rootLayer, hdigest]
      omega
    · rw [rootLayer, hsystem]
      exact hplatform
    · exact weight_layerAnnotations_le hsystem hmerkle
  have hconfig : weight (rootManifest X now root blob).config.toJson ≤ 2000 := by
    change weight (OciDescriptor.toJson ⟨ociImageConfigMediaType, emptyConfigDigest,
      emptyConfigSize, none, none⟩) ≤ 2000
    decide
  have htype : weight (.str (rootManifest X now root blob).mediaType) ≤ 500 := by
    change weight (.str ociImageManifestMediaType) ≤ 500
    decide
  have hlayers : (rootManifest X now root blob).layers = [rootLayer X root blob] := rfl
  have h := weight_manifest_le htype hconfig hlayers (Nat.le_trans hlayer (by omega))
    (weight_rootAnnotations_le hsystem hmerkle)
  omega

end

end NixCache.Oci
