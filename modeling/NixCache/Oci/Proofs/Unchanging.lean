import NixCache.Oci.Discovery
import NixCache.Oci.Proofs.Serving
/-!
# Reading from a registry that does not change

The registry may refuse a request, ask for a token or cut a body short.  What a read returns all the
same is the content of the registry.
-/

namespace NixCache.Oci

open NixCache.Lib NixCache.Lib.Result NixCache.Core
open NixCache.Lib.Program (Trace)

variable {X : OciCrates} {client : OciClient} {registry : Registry} {trace : Trace Request Reply}

namespace Registry

/-- The event is an exchange with this registry and leaves it as it is. -/
def Shows (X : OciCrates) (registry : Registry) (event : Request × Reply) : Prop :=
  Step X.toCrates (fun _ => true) registry event registry

theorem eq_flatten_of_carries {response : Response} {body : Bytes} {chunks : List Bytes}
    (h : Carries response body) (hchunks : response.body = chunks.map Except.ok) :
    body = chunks.flatten := by
  obtain ⟨chunks', hchunks', rfl⟩ := h
  have heq : chunks' = chunks :=
    List.map_injective_iff.mpr (fun _ _ h => Except.ok.inj h) (hchunks'.symm.trans hchunks)
  rw [heq]

theorem lookup_of_serves {reference text : String} {response : Response}
    (h : registry.Shows X (.getManifest reference, .ok response))
    (hserves : ManifestClient.Serves response text) :
    registry.lookup reference = some (Str.asBytes text) := by
  obtain ⟨hstatus, chunks, hchunks, htext⟩ := hserves
  simp only [Shows, Step, hstatus, show isSuccess 200 = true from rfl, if_true, Performs] at h
  obtain ⟨_, body, hlookup, hcarries⟩ := h
  rw [hlookup, ← htext, eq_flatten_of_carries hcarries hchunks]

theorem blobs_of_collected {digest url : String} {response : Response} {maxBytes : UInt64}
    {body : Bytes} (h : registry.Shows X (.getBlob digest, .ok response))
    (hsuccess : isSuccess response.status = true)
    (hbody : collectBody url maxBytes response = .ok body) :
    registry.blobs digest = some body := by
  simp only [Shows, Step, hsuccess, if_true, Performs] at h
  obtain ⟨_, content, hblob, hcarries⟩ := h
  obtain ⟨chunks, hchunks, rfl, _⟩ := collectBody_eq_ok hbody
  rw [hblob, eq_flatten_of_carries hcarries hchunks]

end Registry

/-! ## Reads -/

theorem ManifestClient.lookup_of_getWithExpectedSize {reference text digest : String}
    {size : Option UInt64}
    (h : (getWithExpectedSize X client reference size).Runs trace (.ok (some (text, digest))))
    (hshows : ∀ event ∈ trace, registry.Shows X event) :
    registry.lookup reference = some (Str.asBytes text) ∧
      digest = digestOf X.toCrates (Str.asBytes text) := by
  obtain ⟨hdigest, _, response, hresponse, hserves⟩ := runs_getWithExpectedSize_some h
  exact ⟨Registry.lookup_of_serves (hshows _ (mem_of_effective_eq hresponse)) hserves, hdigest⟩

theorem BlobClient.blobs_of_getDescriptor {descriptor : OciDescriptor} {body : Bytes}
    (h : (getDescriptor X client descriptor).Runs trace (.ok body))
    (hshows : ∀ event ∈ trace, registry.Shows X event) :
    registry.blobs descriptor.digest = some body := by
  simp only [getDescriptor, getVerified, Action.runs_ofExcept_bind_ok] at h
  obtain ⟨_, _, _, _, h⟩ := h
  obtain ⟨before, after, fetched, rfl, hcall, h⟩ := Action.runs_bind_ok.mp h
  obtain ⟨response, hresponse, hstatus, _, hbody⟩ := runs_requestWithAuthRetry_ok hcall trivial
  by_cases hsuccess : isSuccess fetched.status = true
  · rw [if_pos hsuccess] at h
    simp only [Action.runs_ofExcept_bind_ok, Action.runs_pure, Except.ok.injEq] at h
    obtain ⟨_, _, _, _, _, rfl⟩ := h
    have hmem := List.mem_append_left after (mem_of_effective_eq hresponse)
    exact Registry.blobs_of_collected (hshows _ hmem) (hstatus ▸ hsuccess) hbody
  · rw [if_neg hsuccess] at h
    split at h <;> simp at h

/-- The payload of a shard with entries is what its blob decodes to. -/
theorem IndexClient.shard_of_getShardData {descriptor : ShardDescriptor} {system : SystemArch}
    {payload : ShardDataPayload} (hcount : descriptor.entryCount ≠ 0)
    (h : (getShardData X client descriptor system).Runs trace (.ok payload))
    (hshows : ∀ event ∈ trace, registry.Shows X event) :
    ∃ blob decoded, registry.blobs descriptor.blobDigest = some blob ∧
      IndexCodec.decodeZstd X (ShardDataPayload.fromJson X.toCrates) blob shardDataV8Zstd
        client.limits.maxIndexUncompressedBytes = .ok decoded ∧ decoded.value = payload := by
  simp only [getShardData, Action.runs_ofExcept_bind_ok, if_neg hcount] at h
  obtain ⟨_, _, h⟩ := h
  obtain ⟨before, after, blob, rfl, hblob, h⟩ := Action.runs_bind_ok.mp h
  simp only [Action.runs_ofExcept_bind_ok, Action.runs_ofExcept] at h
  obtain ⟨decoded, hdecoded, _, hcheck⟩ := h
  have hfound := BlobClient.blobs_of_getDescriptor hblob fun event hevent =>
    hshows event (List.mem_append_left after hevent)
  have hcheck := hcheck.symm
  simp only [checkShardData, bind_eq_ok, pure_eq_ok] at hcheck
  obtain ⟨_, _, _, _, _, _, _, _, rfl⟩ := hcheck
  exact ⟨blob, decoded, hfound, hdecoded, rfl⟩

end NixCache.Oci
