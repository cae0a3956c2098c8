import NixCache.Oci.Index
import NixCache.Oci.Proofs.Manifest
/-!
# What a read returns

A read that returned `Ok` against a registry that may reply anything: what was exchanged, and what
holds of the value.  Nothing here assumes anything of the replies.
-/

namespace NixCache.Oci

open NixCache.Lib NixCache.Lib.Result NixCache.Core
open NixCache.Lib.Program (Trace)

variable {X : OciCrates} {client : OciClient} {trace : Trace Request Reply}

/-! ## Requests with authentication -/

/-- A 401, after which a request is repeated. -/
def unauthorized : Reply → Bool
  | .ok response => response.status = 401
  | .error _ => false

/-- Whether an event is more than the authentication of a request. -/
def isEffective : Request × Reply → Bool
  | (.refreshToken _, _) => false
  | (_, reply) => !unauthorized reply

/-- The trace without what belongs to authentication. -/
def effective (trace : Trace Request Reply) : Trace Request Reply := trace.filter isEffective

@[simp] theorem effective_nil : effective [] = [] := rfl

@[simp] theorem effective_append (first rest : Trace Request Reply) :
    effective (first ++ rest) = effective first ++ effective rest :=
  List.filter_append ..

theorem mem_of_effective {event : Request × Reply} (h : event ∈ effective trace) : event ∈ trace :=
  (List.mem_filter.mp h).1

theorem mem_of_effective_eq {event : Request × Reply} (h : effective trace = [event]) :
    event ∈ trace :=
  mem_of_effective (h ▸ List.mem_singleton_self event)

/-- The requests that are more than an exchange for a token. -/
def IsRequest : Request → Prop
  | .refreshToken _ => False
  | _ => True

theorem effective_singleton {request : Request} (h : IsRequest request) (reply : Reply) :
    effective [(request, reply)] = if unauthorized reply then [] else [(request, reply)] := by
  have heff : isEffective (request, reply) = !unauthorized reply := by
    cases request <;> first | rfl | exact h.elim
  unfold effective
  cases hu : unauthorized reply <;> simp [heff, hu]

section Calls

variable {request : Request} {collect : Response → Except TransportError Bytes}
  {fetched : Fetched} {operation : String}

theorem runs_transportCall {result : Except OciError Fetched} :
    (transportCall request collect).Runs trace result ↔
      ∃ reply, trace = [(request, reply)] ∧ result = readReply collect reply :=
  Action.runs_request_ofExcept

theorem readReply_eq_ok {reply : Reply} :
    readReply collect reply = .ok fetched ↔
      ∃ response, reply = .ok response ∧ fetched.status = response.status ∧
        fetched.headers = response.headers ∧ collect response = .ok fetched.body := by
  simp only [readReply, mapErr_eq_ok, bind_eq_ok, pure_eq_ok]
  constructor
  · rintro ⟨response, rfl, body, hcollect, rfl⟩
    exact ⟨response, rfl, rfl, rfl, hcollect⟩
  · rintro ⟨response, rfl, hstatus, hheaders, hcollect⟩
    exact ⟨response, rfl, _, hcollect, by rw [← hstatus, ← hheaders]⟩

theorem runs_transportCall_ok :
    (transportCall request collect).Runs trace (.ok fetched) ↔
      ∃ response, trace = [(request, .ok response)] ∧ fetched.status = response.status ∧
        fetched.headers = response.headers ∧ collect response = .ok fetched.body := by
  rw [runs_transportCall]
  constructor
  · rintro ⟨reply, rfl, h⟩
    obtain ⟨response, rfl, hparts⟩ := readReply_eq_ok.mp h.symm
    exact ⟨response, rfl, hparts⟩
  · rintro ⟨response, rfl, hparts⟩
    exact ⟨.ok response, rfl, (readReply_eq_ok.mpr ⟨response, rfl, hparts⟩).symm⟩

theorem runs_requestChallengeForResponse {headers : HeaderMap} {result : Except OciError Unit}
    (h : (requestChallengeForResponse X operation headers).Runs trace result) :
    (trace = [] ∧ ∃ error, result = .error error) ∨
      ∃ challenge token, trace = [(.refreshToken challenge, token)] := by
  unfold requestChallengeForResponse at h
  rw [Action.runs_bind] at h
  obtain ⟨before, after, parsed, rfl, ⟨rfl, hparsed⟩, h⟩ | ⟨error, rfl, rfl, _⟩ := h
  · rw [Action.runs_bind] at h
    obtain ⟨before, after, challenge, rfl, ⟨rfl, hchallenge⟩, h⟩ | ⟨error, rfl, rfl, _⟩ := h
    · right
      rw [Action.runs_bind] at h
      obtain ⟨before, after, token, rfl, hsend, rfl, _⟩ | ⟨error, rfl, hsend⟩ := h
      · obtain ⟨reply, rfl, _⟩ := runs_transportCall.mp hsend
        exact ⟨challenge, reply, rfl⟩
      · obtain ⟨reply, rfl, _⟩ := runs_transportCall.mp hsend
        exact ⟨challenge, reply, rfl⟩
    · exact Or.inl ⟨rfl, error, rfl⟩
  · exact Or.inl ⟨rfl, error, rfl⟩

/-- A call either had one effective answer, which decides its result, or failed without any. -/
theorem runs_requestWithAuthRetry {result : Except OciError Fetched}
    (h : (requestWithAuthRetry X operation (transportCall request collect)).Runs trace result)
    (hrequest : IsRequest request) :
    (∃ reply, effective trace = [(request, reply)] ∧ result = readReply collect reply) ∨
      effective trace = [] ∧ ∃ error, result = .error error := by
  unfold requestWithAuthRetry at h
  have hsingle := effective_singleton hrequest
  rw [Action.runs_bind] at h
  obtain ⟨before, after, first, rfl, hfirst, hrest⟩ | ⟨error, rfl, hfirst⟩ := h
  · obtain ⟨refused, rfl, hstatus, hheaders, hcollect⟩ := runs_transportCall_ok.mp hfirst
    by_cases h401 : first.status = 401
    · rw [if_neg (not_not.mpr h401)] at hrest
      have hnone : effective [(request, .ok refused)] = [] := by
        rw [hsingle, if_pos (by simp [unauthorized, ← hstatus, h401])]
      rw [effective_append, hnone, List.nil_append]
      rw [Action.runs_bind] at hrest
      obtain ⟨challenged, after, _, rfl, hchallenge, hrest⟩ | ⟨error, rfl, hchallenge⟩ := hrest
      · obtain ⟨_, _, herror⟩ | ⟨challenge, token, rfl⟩ :=
          runs_requestChallengeForResponse hchallenge
        · cases herror
        · rw [effective_append, show effective [(.refreshToken challenge, token)] = [] from rfl,
            List.nil_append]
          rw [Action.runs_bind] at hrest
          obtain ⟨again, last, second, rfl, hsecond, hrest⟩ | ⟨error, rfl, hsecond⟩ := hrest
          · obtain ⟨response, rfl, hs, hh, hc⟩ := runs_transportCall_ok.mp hsecond
            rw [Action.runs_bind] at hrest
            obtain ⟨_, _, _, rfl, ⟨rfl, hensure⟩, rfl, rfl⟩ | ⟨error, rfl, rfl, hensure⟩ := hrest
            · have hne : second.status ≠ 401 := ensure_eq_ok.mp hensure.symm
              left
              refine ⟨.ok response, ?_, (readReply_eq_ok.mpr ⟨response, rfl, hs, hh, hc⟩).symm⟩
              simp [hsingle, unauthorized, ← hs, hne]
            · have heq : second.status = 401 := by
                by_contra hne
                rw [ensure_of _ hne] at hensure
                cases hensure
              right
              refine ⟨?_, error, rfl⟩
              simp [hsingle, unauthorized, ← hs, heq]
          · obtain ⟨reply, rfl, hreply⟩ := runs_transportCall.mp hsecond
            cases hu : unauthorized reply with
            | false => exact Or.inl ⟨reply, by simp [hsingle, hu], hreply⟩
            | true => exact Or.inr ⟨by simp [hsingle, hu], error, rfl⟩
      · right
        obtain ⟨rfl, _⟩ | ⟨challenge, token, rfl⟩ := runs_requestChallengeForResponse hchallenge
        · exact ⟨rfl, error, rfl⟩
        · exact ⟨rfl, error, rfl⟩
    · rw [if_pos h401] at hrest
      obtain ⟨rfl, rfl⟩ := hrest
      left
      refine ⟨.ok refused, ?_,
        (readReply_eq_ok.mpr ⟨refused, rfl, hstatus, hheaders, hcollect⟩).symm⟩
      simp [hsingle, unauthorized, ← hstatus, h401]
  · obtain ⟨reply, rfl, hreply⟩ := runs_transportCall.mp hfirst
    cases hu : unauthorized reply with
    | false => exact Or.inl ⟨reply, by simp [hsingle, hu], hreply⟩
    | true => exact Or.inr ⟨by simp [hsingle, hu], error, rfl⟩

/-- A request that returned was answered with a status other than 401. -/
theorem runs_requestWithAuthRetry_ok
    (h : (requestWithAuthRetry X operation (transportCall request collect)).Runs trace
      (.ok fetched)) (hrequest : IsRequest request) :
    ∃ response, effective trace = [(request, .ok response)] ∧
      fetched.status = response.status ∧ fetched.headers = response.headers ∧
      collect response = .ok fetched.body := by
  obtain ⟨reply, htrace, hresult⟩ | ⟨_, error, herror⟩ := runs_requestWithAuthRetry h hrequest
  · obtain ⟨response, rfl, hparts⟩ := readReply_eq_ok.mp hresult.symm
    exact ⟨response, htrace, hparts⟩
  · cases herror

end Calls

/-! ## Blobs -/

/-- A verified body has the digest and the size that were asked for. -/
theorem verifyBufferedBody_eq_ok {target : String} {expected : Option String}
    {header : Option Bytes} {size : Option UInt64} {length : Option Nat} {body : Bytes}
    {digest : ContentDigest}
    (h : verifyBufferedBody X.toCrates target expected header size length body = .ok digest) :
    digest = ContentDigest.fromBytes X.toCrates body ∧ (∀ d ∈ expected, d = digest.val) ∧
      ∀ n ∈ size, n.toNat = body.length := by
  simp only [verifyBufferedBody, bind_eq_ok, pure_eq_ok] at h
  obtain ⟨_, hsize, _, _, _, _, _, hexpected, rfl⟩ := h
  refine ⟨rfl, ?_, ?_⟩
  · intro d hd
    rw [Option.mem_def.mp hd] at hexpected
    simp only [whenSome, verifyExpectedDigest, ContentDigest.parse, bind_eq_ok, pure_eq_ok,
      ensure_eq_ok] at hexpected
    obtain ⟨_, ⟨_, _, rfl⟩, heq⟩ := hexpected
    rw [← heq]
  · intro n hn
    rw [Option.mem_def.mp hn] at hsize
    exact ensure_eq_ok.mp hsize

theorem collectBody_eq_ok {url : String} {maxBytes : UInt64} {response : Response} {body : Bytes}
    (h : collectBody url maxBytes response = .ok body) :
    ∃ chunks : List Bytes, response.body = chunks.map Except.ok ∧ body = chunks.flatten ∧
      body.length ≤ maxBytes.toNat := by
  have hfold : ∀ (parts : List (Except TransportError Bytes)) (done : Bytes),
      done.length ≤ maxBytes.toNat → foldM (appendChunk url maxBytes) done parts = .ok body →
      ∃ chunks : List Bytes, parts = chunks.map Except.ok ∧ body = done ++ chunks.flatten ∧
        body.length ≤ maxBytes.toNat := by
    intro parts
    induction parts with
    | nil =>
        intro done hdone h
        cases h
        exact ⟨[], rfl, by simp, hdone⟩
    | cons part parts ih =>
        intro done _ h
        obtain ⟨next, hnext, hrest⟩ := bind_eq_ok.mp h
        simp only [appendChunk, bind_eq_ok, ensure_eq_ok, pure_eq_ok] at hnext
        obtain ⟨chunk, rfl, _, hlength, rfl⟩ := hnext
        obtain ⟨chunks, rfl, rfl, hbound⟩ := ih _ (by simpa using hlength) hrest
        exact ⟨chunk :: chunks, rfl, by simp, hbound⟩
  obtain ⟨_, _, hcollect⟩ := bind_eq_ok.mp h
  obtain ⟨chunks, hchunks, hbody, hbound⟩ := hfold response.body [] (Nat.zero_le _) hcollect
  exact ⟨chunks, hchunks, by simpa using hbody, hbound⟩

namespace BlobClient

theorem runs_getDescriptor_ok {descriptor : OciDescriptor} {body : Bytes}
    (h : (getDescriptor X client descriptor).Runs trace (.ok body)) :
    descriptor.validateFor "blob descriptor" client.limits.maxBufferedBlobBytes = .ok () ∧
      (ContentDigest.fromBytes X.toCrates body).val = descriptor.digest ∧
      descriptor.size.toNat = body.length ∧
      ∃ response, effective trace = [(.getBlob descriptor.digest, .ok response)] := by
  simp only [getDescriptor, getVerified, Action.runs_ofExcept_bind_ok] at h
  obtain ⟨_, hvalid, _, _, h⟩ := h
  obtain ⟨before, after, fetched, rfl, hcall, h⟩ := Action.runs_bind_ok.mp h
  obtain ⟨response, hresponse, _⟩ := runs_requestWithAuthRetry_ok hcall trivial
  by_cases hstatus : isSuccess fetched.status = true
  · rw [if_pos hstatus] at h
    simp only [Action.runs_ofExcept_bind_ok, Action.runs_pure, Except.ok.injEq] at h
    obtain ⟨_, _, digest, hverify, rfl, rfl⟩ := h
    obtain ⟨rfl, hdigest, hsize⟩ := verifyBufferedBody_eq_ok hverify
    exact ⟨hvalid, (hdigest _ rfl).symm, hsize _ rfl, response, by simpa using hresponse⟩
  · rw [if_neg hstatus] at h
    split at h <;> simp at h

end BlobClient

/-! ## Manifests -/

namespace ManifestClient

/-- The digest of a text. -/
def textDigest (X : OciCrates) (text : String) : String :=
  (ContentDigest.fromBytes X.toCrates (Str.asBytes text)).val

/-- The registry answered with exactly this text. -/
def Serves (response : Response) (text : String) : Prop :=
  response.status = 200 ∧ ∃ chunks : List Bytes, response.body = chunks.map Except.ok ∧
    chunks.flatten = Str.asBytes text

theorem runs_getWithExpectedSize_some {reference text digest : String} {size : Option UInt64}
    (h : (getWithExpectedSize X client reference size).Runs trace (.ok (some (text, digest)))) :
    digest = textDigest X text ∧ (∀ n ∈ size, n.toNat = (Str.asBytes text).length) ∧
      ∃ response, effective trace = [(.getManifest reference, .ok response)] ∧ Serves response text := by
  simp only [getWithExpectedSize, Action.runs_ofExcept_bind_ok] at h
  obtain ⟨_, _, h⟩ := h
  obtain ⟨before, after, fetched, rfl, hcall, h⟩ := Action.runs_bind_ok.mp h
  obtain ⟨response, hresponse, hstatus, _, hbody⟩ := runs_requestWithAuthRetry_ok hcall trivial
  by_cases hok : fetched.status = 200
  · simp only [hok, if_true, Action.runs_ofExcept_bind_ok, Action.runs_pure, Except.ok.injEq,
      Option.some.injEq, readManifest, bind_eq_ok, okOr_eq_ok, pure_eq_ok] at h
    obtain ⟨_, ⟨_, _, _, _, verified, hverify, body, hutf, rfl⟩, rfl, hpair⟩ := h
    cases hpair
    obtain ⟨rfl, _, hsize⟩ := verifyBufferedBody_eq_ok hverify
    obtain ⟨chunks, hchunks, hflat, _⟩ := collectBody_eq_ok hbody
    rw [Str.fromUtf8_eq_some.mp hutf] at hflat hsize
    refine ⟨by rw [textDigest, Str.fromUtf8_eq_some.mp hutf], hsize, response,
      by simpa using hresponse, by rw [← hstatus, hok], chunks, hchunks, hflat.symm⟩
  · rw [if_neg hok] at h
    split at h <;> simp at h

theorem runs_getWithExpectedSize_none {reference : String} {size : Option UInt64}
    (h : (getWithExpectedSize X client reference size).Runs trace (.ok none)) :
    ∃ response, effective trace = [(.getManifest reference, .ok response)] ∧ response.status = 404 := by
  simp only [getWithExpectedSize, Action.runs_ofExcept_bind_ok] at h
  obtain ⟨_, _, h⟩ := h
  obtain ⟨before, after, fetched, rfl, hcall, h⟩ := Action.runs_bind_ok.mp h
  obtain ⟨response, hresponse, hstatus, _⟩ := runs_requestWithAuthRetry_ok hcall trivial
  by_cases hok : fetched.status = 200
  · simp [hok] at h
  · rw [if_neg hok] at h
    by_cases h404 : fetched.status = 404
    · rw [if_pos h404] at h
      obtain ⟨rfl, _⟩ := h
      exact ⟨response, by simpa using hresponse, by rw [← hstatus, h404]⟩
    · simp [if_neg h404] at h

theorem runs_fetchArtifact_some {reference : String} {artifact : FetchedOciArtifact}
    (h : (fetchArtifact X client reference).Runs trace (.ok (some artifact))) :
    ∃ text, artifact.digest = textDigest X text ∧
      parseJson X OciArtifactManifest.fromJson text = .ok artifact.manifest ∧
      artifact.manifest.validateFor client.limits reference = .ok () ∧
      ∃ response, effective trace = [(.getManifest reference, .ok response)] ∧ Serves response text := by
  unfold fetchArtifact getWithDigest at h
  obtain ⟨before, after, found, rfl, hget, h⟩ := Action.runs_bind_ok.mp h
  match found, hget, h with
  | none, _, h => simp at h
  | some (text, digest), hget, h =>
      simp only [Action.runs_ofExcept_bind_ok, Action.runs_pure, Except.ok.injEq,
        Option.some.injEq] at h
      obtain ⟨manifest, hparse, _, hvalid, rfl, rfl⟩ := h
      obtain ⟨rfl, _, hresponse⟩ := runs_getWithExpectedSize_some hget
      exact ⟨text, rfl, hparse, hvalid, by simpa using hresponse⟩

theorem runs_fetchArtifact_none {reference : String}
    (h : (fetchArtifact X client reference).Runs trace (.ok none)) :
    ∃ response, effective trace = [(.getManifest reference, .ok response)] ∧ response.status = 404 := by
  unfold fetchArtifact getWithDigest at h
  obtain ⟨before, after, found, rfl, hget, h⟩ := Action.runs_bind_ok.mp h
  match found, hget, h with
  | none, hget, h =>
      obtain ⟨rfl, _⟩ := h
      simpa using runs_getWithExpectedSize_none hget
  | some (text, digest), _, h => simp at h

end ManifestClient

/-! ## Roots -/

namespace IndexClient

theorem checkCompressedSizes_eq_ok {limits : OciReadLimits} {root : ShardedArchCacheIndexData}
    {u : Unit} :
    checkCompressedSizes limits root = .ok u ↔ ∀ shard ∈ root.shards, shard.isEmpty = false →
      shard.compressedSize ≤ limits.maxBufferedBlobBytes := by
  simp only [checkCompressedSizes, checkAll_eq_ok, ensure_eq_ok]
  constructor
  · intro h shard hshard hempty
    simpa [hempty] using h shard hshard
  · intro h shard hshard
    cases hempty : shard.isEmpty with
    | true => exact Or.inl rfl
    | false => exact Or.inr (h shard hshard hempty)

/-- What `decode_root_manifest` has checked of the root it returns. -/
structure IsAccepted (X : OciCrates) (client : OciClient) (system : SystemArch)
    (root : ShardedArchCacheIndexData) : Prop where
  valid : root.IsValid X.toCrates
  system : root.system = system
  repo : root.repo = client.repo
  registry : root.registry = client.authority
  limits : root.WithinLimits client.limits.indexLimits
  compressed : ∀ shard ∈ root.shards, shard.isEmpty = false →
    shard.compressedSize ≤ client.limits.maxBufferedBlobBytes

/-- A manifest with a root: the layer that is read, the blob and the root in it. -/
structure IsRootOf (X : OciCrates) (client : OciClient) (system : SystemArch) (target : String)
    (manifest : OciImageManifest) (blob : Bytes) (root : ShardedArchCacheIndexData) : Prop where
  merkleRoot : (manifest.annotations.bind fun a => a.lookup merkleRootKey) = some root.merkleRoot
  layer : ∃ layer, manifest.validateSchemaV8Root system root.merkleRoot client.limits target =
      .ok layer ∧
    layer.validateFor "blob descriptor" client.limits.maxBufferedBlobBytes = .ok () ∧
    (ContentDigest.fromBytes X.toCrates blob).val = layer.digest ∧
    layer.size.toNat = blob.length ∧
    ∃ size, IndexCodec.decodeZstd X (ShardedArchCacheIndexData.fromJson X.toCrates) blob
      layer.mediaType client.limits.maxIndexUncompressedBytes = .ok ⟨root, size⟩
  accepted : IsAccepted X client system root

theorem runs_decodeRootManifest_ok {manifest : OciImageManifest} {system : SystemArch}
    {target : String} {root : ShardedArchCacheIndexData}
    (h : (decodeRootManifest X client manifest system target).Runs trace (.ok root)) :
    ∃ blob, IsRootOf X client system target manifest blob root := by
  simp only [decodeRootManifest, Action.runs_ofExcept_bind_ok, okOr_eq_ok] at h
  obtain ⟨merkleRoot, hmerkle, layer, hlayer, h⟩ := h
  obtain ⟨before, after, blob, rfl, hblob, h⟩ := Action.runs_bind_ok.mp h
  simp only [Action.runs_ofExcept_bind_ok, liftCore_eq_ok, ensure_eq_ok, Action.runs_pure,
    Except.ok.injEq, ShardedArchCacheIndexData.validateFor_eq_ok, checkCompressedSizes_eq_ok] at h
  obtain ⟨decoded, hdecoded, _, ⟨hvalid, hsystem, hrepo, hregistry, hlimits⟩, _, hsizes, _, hroot,
    _, rfl⟩ := h
  obtain ⟨hblobValid, hdigest, hsize, _⟩ := BlobClient.runs_getDescriptor_ok hblob
  subst hroot
  exact ⟨blob, hmerkle, ⟨layer, hlayer, hblobValid, hdigest, hsize, decoded.uncompressedSize,
    hdecoded⟩, hvalid, hsystem, hrepo, hregistry, hlimits, hsizes⟩

theorem runs_getImageManifest_some {tag digest : String} {manifest : OciImageManifest}
    (h : (getImageManifest X client tag).Runs trace (.ok (some (manifest, digest)))) :
    ∃ text, digest = ManifestClient.textDigest X text ∧
      ManifestClient.parseJson X OciImageManifest.fromJson text = .ok manifest ∧
      ∃ response, effective trace = [(.getManifest tag, .ok response)] ∧
        ManifestClient.Serves response text := by
  unfold getImageManifest ManifestClient.getWithDigest at h
  obtain ⟨before, after, found, rfl, hget, h⟩ := Action.runs_bind_ok.mp h
  match found, hget, h with
  | none, _, h => simp at h
  | some (text, digest), hget, h =>
      simp only [Action.runs_ofExcept_bind_ok, Action.runs_pure, Except.ok.injEq,
        Option.some.injEq, Prod.mk.injEq] at h
      obtain ⟨manifest, hparse, _, _, rfl, rfl, rfl⟩ := h
      obtain ⟨rfl, _, hresponse⟩ := ManifestClient.runs_getWithExpectedSize_some hget
      exact ⟨text, rfl, hparse, by simpa using hresponse⟩

theorem runs_getImageManifest_none {tag : String}
    (h : (getImageManifest X client tag).Runs trace (.ok none)) :
    ∃ response, effective trace = [(.getManifest tag, .ok response)] ∧ response.status = 404 := by
  unfold getImageManifest ManifestClient.getWithDigest at h
  obtain ⟨before, after, found, rfl, hget, h⟩ := Action.runs_bind_ok.mp h
  match found, hget, h with
  | none, hget, h =>
      obtain ⟨rfl, _⟩ := h
      simpa using ManifestClient.runs_getWithExpectedSize_none hget
  | some (text, digest), _, h => simp at h

/-- Whichever way a root was found, it passed the checks of `decode_root_manifest`. -/
theorem isAccepted_of_getShardedRoot {tag digest : String} {system : SystemArch}
    {root : ShardedArchCacheIndexData}
    (h : (getShardedRoot X client tag system).Runs trace (.ok (some (root, digest)))) :
    IsAccepted X client system root := by
  unfold getShardedRoot at h
  obtain ⟨before, after, found, rfl, _, h⟩ := Action.runs_bind_ok.mp h
  match found, h with
  | some (manifest, subDigest), h =>
      obtain ⟨_, _, _, rfl, hdecode, _, hpair⟩ := Action.runs_bind_ok.mp h
      cases hpair
      obtain ⟨blob, hroot⟩ := runs_decodeRootManifest_ok hdecode
      exact hroot.accepted
  | none, h =>
      unfold getShardedRootFallback at h
      obtain ⟨_, after, artifact, rfl, _, h⟩ := Action.runs_bind_ok.mp h
      match artifact, h with
      | none, h => simp at h
      | some ⟨.manifest manifest, _⟩, h =>
          obtain ⟨_, _, _, rfl, hdecode, _, hpair⟩ := Action.runs_bind_ok.mp h
          cases hpair
          obtain ⟨blob, hroot⟩ := runs_decodeRootManifest_ok hdecode
          exact hroot.accepted
      | some ⟨.index index, _⟩, h =>
          obtain ⟨_, _, found, rfl, hindex, _, hpair⟩ := Action.runs_bind_ok.mp h
          cases found with
          | none => simp at hpair
          | some root' =>
              cases hpair
              unfold getShardedRootFromIndex at hindex
              split at hindex
              · simp at hindex
              · simp only [Action.runs_ofExcept_bind_ok] at hindex
                obtain ⟨_, _, hindex⟩ := hindex
                obtain ⟨_, _, _, rfl, _, hindex⟩ := Action.runs_bind_ok.mp hindex
                simp only [Action.runs_ofExcept_bind_ok] at hindex
                obtain ⟨_, _, _, _, _, _, hindex⟩ := hindex
                obtain ⟨_, _, _, rfl, hdecode, _, hpair⟩ := Action.runs_bind_ok.mp hindex
                cases hpair
                obtain ⟨blob, hroot⟩ := runs_decodeRootManifest_ok hdecode
                exact hroot.accepted

/-! ## Shards -/

/-- What `get_shard_data` has checked of the payload it returns. -/
structure IsShardOf (X : OciCrates) (client : OciClient) (system : SystemArch)
    (descriptor : ShardDescriptor) (payload : ShardDataPayload) : Prop where
  valid : payload.IsValid X.toCrates
  isFor : payload.IsFor descriptor.shardId system client.limits.indexLimits
  count : payload.entries.size = descriptor.entryCount.toNat
  merkleHash : payload.computeMerkleHash X.toCrates = .ok descriptor.merkleHash

theorem isShardOf_of_getShardData {descriptor : ShardDescriptor} {system : SystemArch}
    {payload : ShardDataPayload}
    (h : (getShardData X client descriptor system).Runs trace (.ok payload)) :
    IsShardOf X client system descriptor payload := by
  simp only [getShardData, Action.runs_ofExcept_bind_ok] at h
  obtain ⟨_, _, h⟩ := h
  by_cases hempty : descriptor.entryCount = 0
  · -- the payload of an empty shard is not read but made
    simp only [hempty, if_true, Action.runs_ofExcept, emptyShardData, ShardDataPayload.new] at h
    obtain ⟨_, h⟩ := h
    have h := h.symm
    simp only [bind_eq_ok, ensure_eq_ok, pure_eq_ok, liftCore_eq_ok] at h
    obtain ⟨_, ⟨_, _, rfl⟩, merkleHash, hmerkle, _, ⟨hid, _, _, _, rfl⟩, rfl⟩ := h
    exact ⟨⟨rfl, hid, rfl, by simp⟩, ⟨rfl, Nat.zero_le _, by simp, by simp⟩, by simp [hempty, HashMap.size],
      hmerkle⟩
  · rw [if_neg hempty] at h
    obtain ⟨_, _, blob, rfl, _, h⟩ := Action.runs_bind_ok.mp h
    simp only [Action.runs_ofExcept_bind_ok, Action.runs_ofExcept] at h
    obtain ⟨decoded, _, _, hcheck⟩ := h
    have hcheck := hcheck.symm
    simp only [checkShardData, bind_eq_ok, ensure_eq_ok, pure_eq_ok, liftCore_eq_ok,
      ShardDataPayload.validateFor_eq_ok, ShardDataPayload.validateMerkleHash_eq_ok] at hcheck
    obtain ⟨_, _, _, ⟨hvalid, hfor⟩, _, hcount, _, hmerkle, rfl⟩ := hcheck
    exact ⟨hvalid, hfor, hcount, hmerkle⟩

end IndexClient

end NixCache.Oci
