import NixCache.Oci.Proofs.Reading
import NixCache.Oci.Proofs.Registry
/-!
# Reading from a registry that answers

What a read returns against the content of a registry, without authentication and refusals.
-/

namespace NixCache.Oci

open NixCache.Lib NixCache.Lib.Result NixCache.Core

variable {X : OciCrates} {client : OciClient} {registry : Registry}

/-- What an exchange returns against the content of a registry. -/
def Registry.read (X : OciCrates) (registry : Registry) {α : Type} (exchange : Exchange α) :
    Except OciError α :=
  Action.eval (registry.view X.toCrates) exchange

namespace Registry

variable {α β : Type}

@[simp] theorem read_pure (value : α) : registry.read X (pure value) = .ok value := rfl

@[simp] theorem read_ofExcept (value : Except OciError α) :
    registry.read X (Action.ofExcept value) = value := rfl

@[simp] theorem read_bind (first : Exchange α) (next : α → Exchange β) :
    registry.read X (first >>= next) =
      registry.read X first >>= fun value => registry.read X (next value) :=
  Action.eval_bind _ first next

/-- A read returns as it does in some run. -/
theorem runs_read (exchange : Exchange α) :
    ∃ trace, exchange.Runs trace (registry.read X exchange) :=
  Action.runs_eval _ exchange

theorem unauthorized_view (request : Request) :
    unauthorized (registry.view X.toCrates request) = false := by
  cases request with
  | getManifest reference =>
      cases h : registry.lookup reference <;> simp [view, answer, serve, reply, unauthorized, h]
  | getBlob digest =>
      cases h : registry.blobs digest <;> simp [view, answer, serve, reply, unauthorized, h]
  | putManifest reference contentType condition body =>
      simp only [view, answer]
      split <;> rfl
  | headBlob digest =>
      simp only [view, answer, reply, unauthorized]
      split <;> rfl
  | postBlob digest body =>
      simp only [view, answer]
      split <;> rfl
  | putUpload session digest body =>
      simp only [view, answer]
      split <;> rfl
  | deleteBlob digest => rfl
  | postUpload => rfl
  | deleteUpload session => rfl
  | refreshToken challenge => rfl

theorem read_requestWithAuthRetry {operation : String} {request : Request}
    {collect : Response → Except TransportError Bytes} :
    registry.read X (requestWithAuthRetry X operation (transportCall request collect)) =
      readReply collect (registry.view X.toCrates request) := by
  have hcall : registry.read X (transportCall request collect) =
      readReply collect (registry.view X.toCrates request) := rfl
  have hstatus : ∀ fetched, readReply collect (registry.view X.toCrates request) = .ok fetched →
      fetched.status ≠ 401 := by
    intro fetched h
    obtain ⟨response, hresponse, hfetched, _⟩ := readReply_eq_ok.mp h
    have hunauthorized : unauthorized (registry.view X.toCrates request) = false :=
      unauthorized_view request
    rw [hresponse] at hunauthorized
    simpa [unauthorized, ← hfetched] using hunauthorized
  rw [requestWithAuthRetry, read_bind, hcall]
  cases h : readReply collect (registry.view X.toCrates request) with
  | error error => rfl
  | ok fetched =>
      change registry.read X (if fetched.status ≠ 401 then pure fetched else _) = _
      rw [if_pos (hstatus fetched h)]
      rfl

@[simp] theorem parseContentLength_nil : parseContentLength [] = .ok none := rfl

@[simp] theorem checkContentLength_nil (url : String) (maxBytes : UInt64) :
    checkContentLength url [] maxBytes = .ok none := by
  simp [checkContentLength]

theorem collectBody_eq_ok_iff {url : String} {maxBytes : UInt64} {body found : Bytes} :
    collectBody url maxBytes ⟨200, [], [.ok body]⟩ = .ok found ↔
      found = body ∧ body.length ≤ maxBytes.toNat := by
  simp only [collectBody, checkContentLength_nil, bind_eq_ok, Except.ok.injEq, exists_eq_left', collectLimited,
    Result.foldM, appendChunk, List.nil_append, List.length_nil, Nat.zero_add, ensure_eq_ok,
    pure_eq_ok]
  constructor
  · rintro ⟨_, ⟨_, hbound, rfl⟩, rfl⟩
    exact ⟨rfl, hbound⟩
  · rintro ⟨rfl, hbound⟩
    exact ⟨_, ⟨(), hbound, rfl⟩, rfl⟩

/-- What a GET returns for a content. -/
def Received (maxBytes : UInt64) (fetched : Fetched) : Option Bytes → Prop
  | none => fetched = ⟨404, [], []⟩
  | some body => fetched = ⟨200, [], body⟩ ∧ body.length ≤ maxBytes.toNat

theorem read_get_eq_ok {url operation : String} {request : Request} {maxBytes : UInt64}
    {content : Option Bytes} (hview : registry.view X.toCrates request = serve content)
    {fetched : Fetched} :
    registry.read X (requestGetWithAuthRetry X url request operation maxBytes) = .ok fetched ↔
      Received maxBytes fetched content := by
  rw [requestGetWithAuthRetry, show transportGet url request maxBytes =
    transportCall request (collectBody url maxBytes) from rfl, read_requestWithAuthRetry, hview,
    readReply_eq_ok]
  cases content with
  | none =>
      simp only [serve, reply, Except.ok.injEq, exists_eq_left']
      have hcollect : ∀ body, collectBody url maxBytes ⟨404, [], []⟩ = .ok body ↔ body = [] := by
        intro body
        simp only [collectBody, checkContentLength_nil, bind_eq_ok, Except.ok.injEq,
          exists_eq_left', collectLimited, Result.foldM]
        exact eq_comm
      rw [hcollect]
      obtain ⟨status, headers, body⟩ := fetched
      simp [Received]
  | some body =>
      simp only [serve, reply, Except.ok.injEq, exists_eq_left', collectBody_eq_ok_iff]
      obtain ⟨status, headers, found⟩ := fetched
      simp only [Received, Fetched.mk.injEq]
      tauto

end Registry

/-! ## Blobs -/

@[simp] theorem whenSome_eq_ok {α : Type} {value : Option α} {check : α → Except OciError Unit}
    {u : Unit} : whenSome value check = .ok u ↔ ∀ v ∈ value, check v = .ok () := by
  cases value with
  | none => simp [whenSome]
  | some v => simp [whenSome]

theorem verifyExpectedDigest_eq_ok {target expected : String} {body : Bytes} {u : Unit} :
    verifyExpectedDigest target (ContentDigest.fromBytes X.toCrates body) expected = .ok u ↔
      expected = digestOf X.toCrates body := by
  simp only [verifyExpectedDigest, ContentDigest.parse, bind_eq_ok, ensure_eq_ok, pure_eq_ok]
  constructor
  · rintro ⟨_, ⟨_, _, rfl⟩, h⟩
    exact congrArg ContentDigest.val h
  · rintro rfl
    exact ⟨_, ⟨(), isSha256_iff.mpr ⟨_, rfl⟩, rfl⟩, rfl⟩

/-- A body without headers is checked against what the caller knows of it. -/
theorem verifyBufferedBody_plain {target : String} {expected : Option String}
    {size : Option UInt64} {body : Bytes} {digest : ContentDigest} :
    verifyBufferedBody X.toCrates target expected none size none body = .ok digest ↔
      digest = ContentDigest.fromBytes X.toCrates body ∧
        (∀ d ∈ expected, d = digestOf X.toCrates body) ∧ ∀ n ∈ size, n.toNat = body.length := by
  simp only [verifyBufferedBody, bind_eq_ok, whenSome_eq_ok, verifySize, ensure_eq_ok,
    verifyExpectedDigest_eq_ok, pure_eq_ok]
  constructor
  · rintro ⟨_, hsize, _, _, _, _, _, hexpected, rfl⟩
    exact ⟨rfl, hexpected, hsize⟩
  · rintro ⟨rfl, hexpected, hsize⟩
    exact ⟨(), hsize, (), by simp, (), by simp, (), hexpected, rfl⟩

namespace BlobClient

theorem read_getDescriptor_eq_ok {descriptor : OciDescriptor} {body : Bytes} :
    registry.read X (getDescriptor X client descriptor) = .ok body ↔
      descriptor.validateFor "blob descriptor" client.limits.maxBufferedBlobBytes = .ok () ∧
        registry.blobs descriptor.digest = some body ∧
        descriptor.digest = digestOf X.toCrates body ∧ descriptor.size.toNat = body.length := by
  have hview : registry.view X.toCrates (.getBlob descriptor.digest) =
      Registry.serve (registry.blobs descriptor.digest) := rfl
  simp only [getDescriptor, getVerified, Registry.read_bind, Registry.read_ofExcept, bind_eq_ok,
    Registry.read_get_eq_ok hview]
  constructor
  · rintro ⟨_, hvalid, _, _, fetched, hfetched, h⟩
    refine ⟨hvalid, ?_⟩
    cases hblob : registry.blobs descriptor.digest with
    | none =>
        rw [hblob] at hfetched
        subst hfetched
        simp [isSuccess] at h
    | some found =>
        rw [hblob] at hfetched
        obtain ⟨rfl, _⟩ := hfetched
        rw [if_pos (by rfl)] at h
        simp only [Registry.read_bind, Registry.read_ofExcept, Registry.read_pure, bind_eq_ok,
          Except.ok.injEq] at h
        obtain ⟨length, hlength, digest, hverify, rfl⟩ := h
        obtain rfl : length = none := by
          rw [Registry.parseContentLength_nil] at hlength
          cases hlength
          rfl
        obtain ⟨_, hdigest, hsize⟩ := verifyBufferedBody_plain.mp hverify
        exact ⟨rfl, hdigest _ rfl, hsize _ rfl⟩
  · rintro ⟨hvalid, hblob, hdigest, hsize⟩
    have hcanonical : isSha256 descriptor.digest = true := isSha256_iff.mpr ⟨_, hdigest⟩
    have hbound : body.length ≤ client.limits.maxBufferedBlobBytes.toNat := by
      simp only [OciDescriptor.validateFor, bind_eq_ok, ensure_eq_ok] at hvalid
      obtain ⟨_, _, _, hle, _⟩ := hvalid
      rw [← hsize]
      exact hle
    refine ⟨(), hvalid, ⟨descriptor.digest⟩, by simp [ContentDigest.parse, hcanonical],
      ⟨200, [], body⟩, ?_, ?_⟩
    · rw [hblob]
      exact ⟨rfl, hbound⟩
    · rw [if_pos (by rfl)]
      simp only [Registry.read_bind, Registry.read_ofExcept, Registry.read_pure, bind_eq_ok]
      refine ⟨none, rfl, ContentDigest.fromBytes X.toCrates body, ?_, trivial⟩
      refine verifyBufferedBody_plain.mpr ⟨rfl, ?_, ?_⟩
      · simpa using hdigest
      · simpa using hsize

end BlobClient

/-! ## Manifests -/

namespace ManifestClient

/-- A reference that is a digest is the digest of its manifest. -/
def Resolves (X : OciCrates) (reference text : String) : Prop :=
  Str.startsWith reference "sha256:" = true → reference = textDigest X text

theorem requestDigest_eq_ok {reference : String} {expected : Option ContentDigest} :
    requestDigest reference = .ok expected ↔
      if Str.startsWith reference "sha256:" = true then
        isSha256 reference = true ∧ expected = some ⟨reference⟩
      else expected = none := by
  unfold requestDigest
  split
  · simp only [map_eq_ok, ContentDigest.parse, bind_eq_ok, ensure_eq_ok, pure_eq_ok]
    constructor
    · rintro ⟨_, ⟨_, hcanonical, rfl⟩, rfl⟩
      exact ⟨hcanonical, rfl⟩
    · rintro ⟨hcanonical, rfl⟩
      exact ⟨_, ⟨(), hcanonical, rfl⟩, rfl⟩
  · simp [eq_comm]

theorem readManifest_eq_ok {reference text digest : String} {size : Option UInt64} {body : Bytes} :
    readManifest X client reference size ⟨200, [], body⟩ = .ok (text, digest) ↔
      body = Str.asBytes text ∧ digest = textDigest X text ∧ Resolves X reference text ∧
        ∀ n ∈ size, n.toNat = (Str.asBytes text).length := by
  simp only [readManifest, bind_eq_ok, Registry.parseContentLength_nil, mapErr_eq_ok,
    Except.ok.injEq, exists_eq_left', okOr_eq_ok, pure_eq_ok, Prod.mk.injEq,
    requestDigest_eq_ok, Str.fromUtf8_eq_some]
  have hheader : HeaderMap.get [] "docker-content-digest" = none := rfl
  simp only [hheader, verifyBufferedBody_plain]
  constructor
  · rintro ⟨expected, hexpected, _, ⟨rfl, hdigest, hsize⟩, _, rfl, rfl, rfl⟩
    refine ⟨rfl, rfl, ?_, hsize⟩
    intro hleading
    rw [if_pos hleading] at hexpected
    exact hdigest reference (by simp [hexpected.2])
  · rintro ⟨rfl, rfl, hresolves, hsize⟩
    by_cases hleading : Str.startsWith reference "sha256:" = true
    · have heq := hresolves hleading
      refine ⟨some ⟨reference⟩, ?_, _, ⟨rfl, ?_, hsize⟩, text, rfl, rfl, rfl⟩
      · rw [if_pos hleading]
        exact ⟨isSha256_iff.mpr ⟨_, heq⟩, rfl⟩
      · intro d hd
        cases hd
        exact heq
    · exact ⟨none, by rw [if_neg hleading], _, ⟨rfl, by simp, hsize⟩, text, rfl, rfl, rfl⟩

theorem read_getWithExpectedSize_some {reference text digest : String} {size : Option UInt64} :
    registry.read X (getWithExpectedSize X client reference size) = .ok (some (text, digest)) ↔
      registry.lookup reference = some (Str.asBytes text) ∧ digest = textDigest X text ∧
        Resolves X reference text ∧ (∀ n ∈ size, n.toNat = (Str.asBytes text).length) ∧
        (Str.asBytes text).length ≤ client.limits.maxManifestBytes.toNat := by
  have hview : registry.view X.toCrates (.getManifest reference) =
      Registry.serve (registry.lookup reference) := rfl
  simp only [getWithExpectedSize, Registry.read_bind, Registry.read_ofExcept, bind_eq_ok,
    Registry.read_get_eq_ok hview, whenSome_eq_ok, ensure_eq_ok]
  constructor
  · rintro ⟨_, _, fetched, hfetched, h⟩
    cases hlookup : registry.lookup reference with
    | none =>
        rw [hlookup] at hfetched
        subst hfetched
        simp at h
    | some body =>
        rw [hlookup] at hfetched
        obtain ⟨rfl, hbound⟩ := hfetched
        simp only [if_true, Registry.read_bind, Registry.read_ofExcept, Registry.read_pure,
          bind_eq_ok, Except.ok.injEq, Option.some.injEq] at h
        obtain ⟨_, hread, rfl⟩ := h
        obtain ⟨rfl, hdigest, hresolves, hsize⟩ := readManifest_eq_ok.mp hread
        exact ⟨rfl, hdigest, hresolves, hsize, hbound⟩
  · rintro ⟨hlookup, hdigest, hresolves, hsize, hbound⟩
    refine ⟨(), ?_, ⟨200, [], Str.asBytes text⟩, ?_, ?_⟩
    · intro n hn
      rw [UInt64.le_iff_toNat_le, hsize n hn]
      exact hbound
    · rw [hlookup]
      exact ⟨rfl, hbound⟩
    · simp only [if_true, Registry.read_bind, Registry.read_ofExcept, Registry.read_pure,
        bind_eq_ok, Except.ok.injEq, Option.some.injEq]
      exact ⟨_, readManifest_eq_ok.mpr ⟨rfl, hdigest, hresolves, hsize⟩, rfl⟩

theorem read_getWithExpectedSize_none {reference : String} :
    registry.read X (getWithExpectedSize X client reference none) = .ok none ↔
      registry.lookup reference = none := by
  have hview : registry.view X.toCrates (.getManifest reference) =
      Registry.serve (registry.lookup reference) := rfl
  simp only [getWithExpectedSize, Registry.read_bind, Registry.read_ofExcept, bind_eq_ok,
    Registry.read_get_eq_ok hview, whenSome_eq_ok]
  constructor
  · rintro ⟨_, _, fetched, hfetched, h⟩
    cases hlookup : registry.lookup reference with
    | none => rfl
    | some body =>
        rw [hlookup] at hfetched
        obtain ⟨rfl, _⟩ := hfetched
        simp at h
  · intro hlookup
    refine ⟨(), by simp, ⟨404, [], []⟩, ?_, by simp⟩
    rw [hlookup]
    rfl

end ManifestClient

/-! ## Roots and shards -/

namespace IndexClient

theorem read_getImageManifest_some {tag digest : String} {manifest : OciImageManifest} :
    registry.read X (getImageManifest X client tag) = .ok (some (manifest, digest)) ↔
      ∃ text, registry.lookup tag = some (Str.asBytes text) ∧
        digest = ManifestClient.textDigest X text ∧ ManifestClient.Resolves X tag text ∧
        (Str.asBytes text).length ≤ client.limits.maxManifestBytes.toNat ∧
        ManifestClient.parseJson X OciImageManifest.fromJson text = .ok manifest ∧
        manifest.validateFor client.limits tag = .ok () := by
  unfold getImageManifest ManifestClient.getWithDigest
  rw [Registry.read_bind, bind_eq_ok]
  constructor
  · rintro ⟨found, hfound, h⟩
    match found, hfound, h with
    | none, _, h => simp at h
    | some (text, found), hfound, h =>
        simp only [Registry.read_bind, Registry.read_ofExcept, Registry.read_pure, bind_eq_ok,
          Except.ok.injEq, Option.some.injEq, Prod.mk.injEq] at h
        obtain ⟨_, hparse, _, hvalid, rfl, rfl⟩ := h
        obtain ⟨hlookup, hdigest, hresolves, _, hbound⟩ :=
          ManifestClient.read_getWithExpectedSize_some.mp hfound
        exact ⟨text, hlookup, hdigest, hresolves, hbound, hparse, hvalid⟩
  · rintro ⟨text, hlookup, hdigest, hresolves, hbound, hparse, hvalid⟩
    refine ⟨some (text, digest), ManifestClient.read_getWithExpectedSize_some.mpr
      ⟨hlookup, hdigest, hresolves, by simp, hbound⟩, ?_⟩
    simp only [Registry.read_bind, Registry.read_ofExcept, Registry.read_pure, bind_eq_ok,
      Except.ok.injEq, Option.some.injEq, Prod.mk.injEq]
    exact ⟨manifest, hparse, (), hvalid, rfl, trivial⟩

theorem read_decodeRootManifest {manifest : OciImageManifest} {system : SystemArch}
    {target : String} {root : ShardedArchCacheIndexData} :
    registry.read X (decodeRootManifest X client manifest system target) = .ok root ↔
      ∃ blob, registry.blobs (digestOf X.toCrates blob) = some blob ∧
        IsRootOf X client system target manifest blob root := by
  simp only [decodeRootManifest, Registry.read_bind, Registry.read_ofExcept, Registry.read_pure,
    bind_eq_ok, okOr_eq_ok, BlobClient.read_getDescriptor_eq_ok, liftCore_eq_ok, ensure_eq_ok,
    ShardedArchCacheIndexData.validateFor_eq_ok, checkCompressedSizes_eq_ok, Except.ok.injEq]
  constructor
  · rintro ⟨merkleRoot, hmerkle, layer, hlayer, blob, ⟨hvalidLayer, hblob, hdigest, hsize⟩, decoded,
      hdecoded, _, ⟨hvalid, hsystem, hrepo, hregistry, hlimits⟩, _, hsizes, _, rfl, rfl⟩
    refine ⟨blob, hdigest ▸ hblob, hmerkle, ⟨layer, hlayer, hvalidLayer, hdigest.symm, hsize,
      decoded.uncompressedSize, hdecoded⟩, hvalid, hsystem, hrepo, hregistry, hlimits, hsizes⟩
  · rintro ⟨blob, hblob, hmerkle, ⟨layer, hlayer, hvalidLayer, hdigest, hsize, size, hdecoded⟩,
      hvalid, hsystem, hrepo, hregistry, hlimits, hsizes⟩
    refine ⟨_, hmerkle, layer, hlayer, blob, ⟨hvalidLayer, ?_, hdigest.symm, hsize⟩, _, hdecoded, (),
      ⟨hvalid, hsystem, hrepo, hregistry, hlimits⟩, (), hsizes, (), rfl, rfl⟩
    rw [← hdigest]
    exact hblob

/-- The way of a reader that finds the tag of the architecture. -/
theorem read_getShardedRoot_tag {tag digest : String} {system : SystemArch}
    {root : ShardedArchCacheIndexData} {manifest : OciImageManifest}
    (himage : registry.read X (getImageManifest X client (archTag tag system)) =
      .ok (some (manifest, digest)))
    (hroot : registry.read X (decodeRootManifest X client manifest system (archTag tag system)) =
      .ok root) :
    registry.read X (getShardedRoot X client tag system) = .ok (some (root, digest)) := by
  unfold getShardedRoot
  rw [Registry.read_bind, himage]
  change registry.read X (decodeRootManifest X client manifest system (archTag tag system) >>= _) = _
  rw [Registry.read_bind, hroot]
  rfl

theorem read_getShardData_empty {descriptor : ShardDescriptor} {system : SystemArch}
    {payload : ShardDataPayload} (hvalid : descriptor.validateStructure X.toCrates = .ok ())
    (hcount : descriptor.entryCount = 0)
    (hpayload : emptyShardData X descriptor = .ok payload) :
    registry.read X (getShardData X client descriptor system) = .ok payload := by
  unfold getShardData
  rw [Registry.read_bind, Registry.read_ofExcept, hvalid, if_pos hcount]
  exact hpayload

end IndexClient

end NixCache.Oci
