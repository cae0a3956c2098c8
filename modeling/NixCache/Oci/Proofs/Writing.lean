import NixCache.Oci.Proofs.Registry
import NixCache.Oci.Proofs.Requests
/-!
# What a push leaves behind

A blob that was pushed is in the registry afterwards: it was there already, or one of the uploads
was carried out.
-/

namespace NixCache.Oci

open NixCache.Lib NixCache.Lib.Result NixCache.Core
open NixCache.Lib.Program (Trace Follows)

variable {X : OciCrates} {client : OciClient} {trace : Trace Request Reply}

/-- An exchange after which the registry holds the blob. -/
def Stored (digest : String) (bytes : Bytes) : Request × Reply → Prop
  | (.headBlob target, .ok response) => target = digest ∧ response.status = 200
  | (.postBlob target body, .ok response) =>
      target = digest ∧ body = bytes ∧ (response.status = 201 ∨ response.status = 200)
  | (.putUpload _ target body, .ok response) =>
      target = digest ∧ body = bytes ∧
        (response.status = 201 ∨ response.status = 202 ∨ response.status = 200)
  | _ => False

namespace BlobClient

theorem runs_head_ok {digest : String} {present : Bool}
    (h : (head X digest).Runs trace (.ok present)) :
    ∃ response, (.headBlob digest, .ok response) ∈ trace ∧
      response.status = if present then 200 else 404 := by
  unfold head at h
  obtain ⟨before, after, fetched, rfl, hcall, h⟩ := Action.runs_bind_ok.mp h
  obtain ⟨response, hresponse, hstatus, _⟩ := runs_requestWithAuthRetry_ok hcall trivial
  have hmem : (Request.headBlob digest, Except.ok response) ∈ before ++ after :=
    List.mem_append.mpr (Or.inl (mem_of_effective_eq hresponse))
  refine ⟨response, hmem, ?_⟩
  rw [← hstatus]
  by_cases h200 : fetched.status = 200
  · simp only [h200, if_true, Action.runs_pure, Except.ok.injEq] at h
    simp [h200, h.2]
  · rw [if_neg h200] at h
    by_cases h404 : fetched.status = 404
    · simp only [h404, if_true, Action.runs_pure, Except.ok.injEq] at h
      simp [h404, h.2]
    · simp [if_neg h404] at h

theorem runs_executeTwoStepPut_ok {digest : ContentDigest} {bytes : Bytes} {u : Unit}
    (h : (executeTwoStepPut X client digest bytes).Runs trace (.ok u)) :
    ∃ event ∈ trace, Stored digest.val bytes event := by
  unfold executeTwoStepPut at h
  obtain ⟨first, rest, fetched, rfl, _, h⟩ := Action.runs_bind_ok.mp h
  simp only [Action.runs_ofExcept_bind_ok] at h
  obtain ⟨_, _, _, _, sessionUrl, _, h⟩ := h
  obtain ⟨before, after, result, rfl, hattempt, h⟩ := Action.runs_bind_ok.mp h
  obtain ⟨outcome, houtcome, hput⟩ := Action.runs_attempt.mp hattempt
  cases houtcome
  cases result with
  | error error =>
      obtain ⟨_, _, _, _, _, h⟩ := Action.runs_bind_ok.mp h
      simp at h
  | ok value =>
      unfold putUpload at hput
      obtain ⟨sent, last, fetched, rfl, hcall, hstatus⟩ := Action.runs_bind_ok.mp hput
      simp only [Action.runs_ofExcept] at hstatus
      obtain ⟨response, hresponse, hcode, _⟩ := runs_requestWithAuthRetry_ok hcall trivial
      have hmem := mem_of_effective_eq hresponse
      refine ⟨(.putUpload sessionUrl digest.val bytes, .ok response), by simp [hmem], rfl, rfl, ?_⟩
      rw [← hcode]
      exact ensure_eq_ok.mp hstatus.2.symm

/-- What was pushed is stored under its digest. -/
theorem runs_pushBytes_ok {bytes : Bytes} {digest : ContentDigest}
    (h : (pushBytes X client bytes).Runs trace (.ok digest)) :
    digest = ContentDigest.fromBytes X.toCrates bytes ∧
      ∃ event ∈ trace, Stored digest.val bytes event := by
  have htwo : ∀ {t : Trace Request Reply} {target : ContentDigest},
      (executeTwoStepPut X client target bytes >>= fun _ => pure target).Runs t (.ok digest) →
      digest = target ∧ ∃ event ∈ t, Stored digest.val bytes event := by
    intro t target hruns
    obtain ⟨before, after, _, rfl, hput, rfl, hdigest⟩ := Action.runs_bind_ok.mp hruns
    cases hdigest
    simpa using runs_executeTwoStepPut_ok hput
  unfold pushBytes at h
  obtain ⟨headed, rest, present, rfl, hhead, h⟩ := Action.runs_bind_ok.mp h
  obtain ⟨response, hmem, hstatus⟩ := runs_head_ok hhead
  simp only [List.mem_append, or_and_right, exists_or]
  cases present with
  | true =>
      obtain ⟨_, hdigest⟩ := h
      cases hdigest
      exact ⟨rfl, Or.inl ⟨_, hmem, rfl, hstatus⟩⟩
  | false =>
      have hmonolithic : ∀ {t : Trace Request Reply} {result : Except OciError Fetched},
          (requestPostBytesWithAuthRetry X (ContentDigest.fromBytes X.toCrates bytes).val bytes
            "monolithic blob upload").Runs t result →
          ∀ fetched, result = .ok fetched → (fetched.status = 201 ∨ fetched.status = 200) →
          ∃ event ∈ t, Stored (ContentDigest.fromBytes X.toCrates bytes).val bytes event := by
        intro t result hcall fetched hresult hcode
        subst hresult
        obtain ⟨response, hresponse, hfetched, _⟩ := runs_requestWithAuthRetry_ok hcall trivial
        exact ⟨(.postBlob _ bytes, .ok response), mem_of_effective_eq hresponse, rfl, rfl,
          hfetched ▸ hcode⟩
      simp only [Bool.false_eq_true, if_false] at h
      split at h
      · obtain ⟨hdigest, hstored⟩ := htwo h
        exact ⟨hdigest, Or.inr hstored⟩
      all_goals
        obtain ⟨before, after, result, rfl, hattempt, h⟩ := Action.runs_bind_ok.mp h
        obtain ⟨outcome, houtcome, hcall⟩ := Action.runs_attempt.mp hattempt
        cases houtcome
        simp only [List.mem_append, or_and_right, exists_or]
        cases result with
        | error error =>
            obtain ⟨hdigest, hstored⟩ := htwo h
            exact ⟨hdigest, Or.inr (Or.inr hstored)⟩
        | ok fetched =>
            dsimp only at h
            split at h
            · rename_i hcode
              obtain ⟨_, hdigest⟩ := h
              cases hdigest
              exact ⟨rfl, Or.inr (Or.inl (hmonolithic hcall fetched rfl hcode))⟩
            · obtain ⟨hdigest, hstored⟩ := htwo h
              exact ⟨hdigest, Or.inr (Or.inr hstored)⟩

theorem runs_pushZstd_ok {document : Json} {digest : ContentDigest}
    {compressed uncompressed : UInt64}
    (h : (pushZstd X client document).Runs trace (.ok (digest, compressed, uncompressed))) :
    ∃ blob, IndexCodec.encodeZstd X document = .ok blob ∧
      digest = ContentDigest.fromBytes X.toCrates blob ∧
      compressed = UInt64.ofNat blob.length ∧
      uncompressed = UInt64.ofNat (IndexCodec.toVec X document).length ∧
      ∃ event ∈ trace, Stored digest.val blob event := by
  simp only [pushZstd, Action.runs_ofExcept_bind_ok] at h
  obtain ⟨blob, hblob, h⟩ := h
  obtain ⟨before, after, target, rfl, hpush, rfl, hresult⟩ := Action.runs_bind_ok.mp h
  simp only [Except.ok.injEq, Prod.mk.injEq] at hresult
  obtain ⟨rfl, rfl, rfl⟩ := hresult
  obtain ⟨hdigest, hstored⟩ := runs_pushBytes_ok hpush
  exact ⟨blob, hblob, hdigest, rfl, rfl, by simpa using hstored⟩

end BlobClient

end NixCache.Oci
