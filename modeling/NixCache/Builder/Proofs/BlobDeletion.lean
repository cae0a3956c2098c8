import NixCache.Builder.Purge
import NixCache.Oci.PackageDeletion
/-!
# The blobs of a purge

A purge deletes its blobs through the deletion client, of which it keeps the failures only.  What it
counts as deleted is what the client deletes or finds absent.
-/

namespace NixCache.Oci.DeletionClient

open NixCache.Lib NixCache.Lib.Result NixCache.Lib.Action
open NixCache.Lib.Program (Trace)

variable {X : OciCrates} {trace : Trace DeletionRequest Reply} {α β : Type}

/-! ## Exchanges inside a deletion -/

theorem runs_liftExchange_bind_ok {first : Exchange α} {next : α → Exchange β} {value : β} :
    (liftExchange (first >>= next)).Runs trace (.ok value) ↔
      ∃ before after middle, trace = before ++ after ∧
        (liftExchange first).Runs before (.ok middle) ∧
        (liftExchange (next middle)).Runs after (.ok value) := by
  simp only [liftExchange, runs_mapErr_ok, Action.embed_bind, runs_bind_ok]

theorem runs_liftExchange_ofExcept {value : Except OciError α} {result : α} :
    (liftExchange (Action.ofExcept value)).Runs trace (.ok result) ↔
      trace = [] ∧ value = .ok result := by
  rw [liftExchange, runs_mapErr_ok, Action.embed_ofExcept, runs_ofExcept, eq_comm (b := value)]

theorem runs_liftExchange_pure {value result : α} :
    (liftExchange (pure value)).Runs trace (.ok result) ↔ trace = [] ∧ value = result := by
  rw [← Except.ok.injEq (ε := OciError) value result]
  exact runs_liftExchange_ofExcept

theorem runs_liftExchange_ofExcept_bind {first : Except OciError α} {next : α → Exchange β}
    {value : β} : (liftExchange (Action.ofExcept first >>= next)).Runs trace (.ok value) ↔
      ∃ middle, first = .ok middle ∧ (liftExchange (next middle)).Runs trace (.ok value) := by
  simp only [liftExchange, runs_mapErr_ok, Action.embed_bind, Action.embed_ofExcept,
    runs_ofExcept_bind_ok]

theorem runs_liftExchange_send {request : Request} {fetched : Fetched} :
    (liftExchange (transportSend request)).Runs trace (.ok fetched) ↔
      (send (.client request)).Runs trace (.ok fetched) := by
  rw [transportSend, transportCall, runs_liftExchange_bind_ok, send, runs_bind_ok]
  refine exists_congr fun before => exists_congr fun after => exists_congr fun reply => ?_
  rw [runs_liftExchange_ofExcept, runs_ofExcept, liftExchange, runs_mapErr_ok, Action.embed_request,
    eq_comm (a := Except.ok fetched), mapErr_eq_ok, runs_request, runs_request]
  simp only [Except.ok.injEq]

/-! ## One blob -/

/-- A request with its retry is the client's. -/
theorem runs_sendWithAuthRetry_client {operation : String} {request : Request}
    {status : StatusCode} :
    (sendWithAuthRetry X operation (.client request)).Runs trace (.ok status) ↔
      ∃ fetched, fetched.status = status ∧
        (liftExchange (requestDeleteWithAuthRetry X request operation)).Runs trace
          (.ok fetched) := by
  constructor
  · intro h
    obtain ⟨before, after, first, rfl, hfirst, hrest⟩ := runs_bind_ok.mp h
    have hsent := runs_liftExchange_send.mpr hfirst
    by_cases hstatus : first.status ≠ 401
    · rw [if_pos hstatus, runs_pure, Except.ok.injEq] at hrest
      refine ⟨first, hrest.2.symm, runs_liftExchange_bind_ok.mpr
        ⟨before, after, first, rfl, hsent, ?_⟩⟩
      rw [if_pos hstatus]
      exact runs_liftExchange_pure.mpr ⟨hrest.1, rfl⟩
    · rw [if_neg hstatus] at hrest
      obtain ⟨asked, rest, _, rfl, hasked, hrest⟩ := runs_bind_ok.mp hrest
      obtain ⟨retry, last, second, rfl, hsecond, hlast⟩ := runs_bind_ok.mp hrest
      obtain ⟨_, hallowed, hlast, hresult⟩ := runs_ofExcept_bind_ok.mp hlast
      refine ⟨second, (Except.ok.inj hresult).symm, runs_liftExchange_bind_ok.mpr
        ⟨before, _, first, rfl, hsent, ?_⟩⟩
      rw [if_neg hstatus]
      refine runs_liftExchange_bind_ok.mpr ⟨asked, _, (), rfl, hasked, ?_⟩
      refine runs_liftExchange_bind_ok.mpr
        ⟨retry, last, second, rfl, runs_liftExchange_send.mpr hsecond, ?_⟩
      refine runs_liftExchange_ofExcept_bind.mpr
        ⟨(), ensure_of _ (ensure_eq_ok.mp hallowed), ?_⟩
      exact runs_liftExchange_pure.mpr ⟨hlast, rfl⟩
  · rintro ⟨fetched, rfl, h⟩
    obtain ⟨before, after, first, rfl, hfirst, hrest⟩ := runs_liftExchange_bind_ok.mp h
    refine runs_bind_ok.mpr ⟨before, after, first, rfl, runs_liftExchange_send.mp hfirst, ?_⟩
    by_cases hstatus : first.status ≠ 401
    · rw [if_pos hstatus, runs_liftExchange_pure] at hrest
      rw [if_pos hstatus, runs_pure, hrest.2]
      exact ⟨hrest.1, rfl⟩
    · rw [if_neg hstatus] at hrest ⊢
      obtain ⟨asked, rest, _, rfl, hasked, hrest⟩ := runs_liftExchange_bind_ok.mp hrest
      obtain ⟨retry, last, second, rfl, hsecond, hlast⟩ := runs_liftExchange_bind_ok.mp hrest
      obtain ⟨_, hallowed, hlast⟩ := runs_liftExchange_ofExcept_bind.mp hlast
      obtain ⟨hend, rfl⟩ := runs_liftExchange_pure.mp hlast
      refine runs_bind_ok.mpr ⟨asked, _, (), rfl, hasked, ?_⟩
      refine runs_bind_ok.mpr ⟨retry, last, second, rfl, runs_liftExchange_send.mp hsecond, ?_⟩
      exact runs_ofExcept_bind_ok.mpr
        ⟨(), ensure_of _ (ensure_eq_ok.mp hallowed), hend, rfl⟩

theorem exists_readDeletion_eq_ok (client : OciClient) (object target unsupported : String)
    {status : StatusCode} :
    (∃ deleted, readDeletion client object target unsupported status = .ok deleted) ↔
      isSuccess status ∨ status = 404 := by
  by_cases hdeleted : isSuccess status ∨ status = 202 ∨ status = 204
  · have hsuccess : isSuccess status := by
      obtain h | rfl | rfl := hdeleted
      · exact h
      · decide
      · decide
    exact iff_of_true ⟨true, if_pos hdeleted⟩ (.inl hsuccess)
  · have hsuccess : ¬ isSuccess status := fun h => hdeleted (.inl h)
    by_cases habsent : status = 404
    · refine iff_of_true ⟨false, ?_⟩ (.inr habsent)
      rw [readDeletion, if_neg hdeleted, if_pos habsent]
    · refine iff_of_false ?_ (not_or.mpr ⟨hsuccess, habsent⟩)
      rintro ⟨deleted, h⟩
      rw [readDeletion, if_neg hdeleted, if_neg habsent] at h
      split at h
      · cases h
      · split at h <;> cases h

theorem runs_deleteBlobStrict_ok {client : OciClient} {target : BlobDeletionTarget} :
    (∃ outcome, (deleteBlobStrict X client target).Runs trace (.ok outcome)) ↔
      client.capabilities.supportsBlobPhysicalDeletion ∧ ∃ status,
        (sendWithAuthRetry X "delete blob" (.client (.deleteBlob target.digest.val))).Runs trace
          (.ok status) ∧ (isSuccess status ∨ status = 404) := by
  constructor
  · rintro ⟨outcome, h⟩
    obtain ⟨_, hsupported, h⟩ := runs_ofExcept_bind_ok.mp h
    obtain ⟨before, after, status, rfl, hsent, h⟩ := runs_bind_ok.mp h
    obtain ⟨deleted, hdeleted, rfl, _⟩ := runs_ofExcept_bind_ok.mp h
    rw [List.append_nil]
    exact ⟨ensure_eq_ok.mp hsupported, status, hsent,
      (exists_readDeletion_eq_ok ..).mp ⟨deleted, mapErr_eq_ok.mp hdeleted⟩⟩
  · rintro ⟨hsupported, status, hsent, hstatus⟩
    obtain ⟨deleted, hdeleted⟩ := (exists_readDeletion_eq_ok client "blob" target.digest.val
      ("Registry returned 405 Method Not Allowed for blob deletion " ++ target.digest.val)).mpr
      hstatus
    refine ⟨if deleted then .deleted target.size else .alreadyAbsent,
      runs_ofExcept_bind_ok.mpr ⟨(), ensure_of _ hsupported, ?_⟩⟩
    refine runs_bind_ok.mpr ⟨trace, [], status, (List.append_nil trace).symm, hsent, ?_⟩
    exact runs_ofExcept_bind_ok.mpr ⟨deleted, mapErr_eq_ok.mpr hdeleted, rfl, rfl⟩

end NixCache.Oci.DeletionClient

namespace NixCache.Builder

open NixCache.Lib NixCache.Lib.Result NixCache.Lib.Action NixCache.Core NixCache.Oci
open NixCache.Oci.DeletionClient
open NixCache.Lib.Program (Trace)

variable {X : OciCrates} {client : OciClient} {blob : PurgedBlob}

theorem runs_deleteBlob_ok {trace : Trace DeletionRequest Reply} :
    (liftExchange (deleteBlob X client blob)).Runs trace (.ok ()) ↔
      client.capabilities.supportsBlobPhysicalDeletion ∧ ∃ fetched,
        (liftExchange (requestDeleteWithAuthRetry X (.deleteBlob blob.digest.val)
          "delete blob")).Runs trace (.ok fetched) ∧
        (isSuccess fetched.status ∨ fetched.status = 404) := by
  unfold deleteBlob
  rw [runs_liftExchange_ofExcept_bind]
  simp only [ensure_eq_ok, exists_const]
  refine and_congr_right fun _ => ?_
  rw [runs_liftExchange_bind_ok]
  constructor
  · rintro ⟨before, after, fetched, rfl, hsent, hrest⟩
    by_cases hstatus : isSuccess fetched.status ∨ fetched.status = 404
    · rw [if_pos hstatus, runs_liftExchange_pure] at hrest
      rw [hrest.1, List.append_nil]
      exact ⟨fetched, hsent, hstatus⟩
    · rw [if_neg hstatus] at hrest
      split at hrest
      · cases (runs_liftExchange_ofExcept.mp hrest).2
      · split at hrest <;> cases (runs_liftExchange_ofExcept.mp hrest).2
  · rintro ⟨fetched, hsent, hstatus⟩
    refine ⟨trace, [], fetched, (List.append_nil trace).symm, hsent, ?_⟩
    rw [if_pos hstatus, runs_liftExchange_pure]
    exact ⟨rfl, rfl⟩

/-- The deletion of a blob by a purge succeeds exactly when that of the deletion client does. -/
theorem runs_deleteBlob_iff {trace : Trace DeletionRequest Reply} :
    (liftExchange (deleteBlob X client blob)).Runs trace (.ok ()) ↔
      ∃ outcome, (deleteBlobStrict X client ⟨blob.digest, blob.size⟩).Runs trace
        (.ok outcome) := by
  rw [runs_deleteBlob_ok, runs_deleteBlobStrict_ok]
  refine and_congr_right fun _ => ?_
  simp only [runs_sendWithAuthRetry_client]
  constructor
  · rintro ⟨fetched, hsent, hstatus⟩
    exact ⟨fetched.status, ⟨fetched, rfl, hsent⟩, hstatus⟩
  · rintro ⟨_, ⟨fetched, rfl, hsent⟩, hstatus⟩
    exact ⟨fetched, hsent, hstatus⟩

/-! ## All blobs -/

/-- A purge that counts no failure has deleted each of its blobs. -/
theorem deleteBlobStrict_of_batchDeleteBlobs {targets : List PurgedBlob}
    {trace : Trace Request Reply} (h : (batchDeleteBlobs X client targets).Runs trace (.ok 0))
    (hblob : blob ∈ targets) :
    ∃ (part : Trace Request Reply) (outcome : BlobDeletionOutcome), part.Sublist trace ∧
      (deleteBlobStrict X client ⟨blob.digest, blob.size⟩).Runs
        (part.map (Prod.map DeletionRequest.client id)) (.ok outcome) := by
  obtain ⟨before, after, results, rfl, hresults, hcount⟩ := runs_bind_ok.mp h
  obtain ⟨outcomes, rfl, hruns⟩ := runs_tryJoinAll_map_ok hresults
  obtain ⟨i, rfl⟩ := List.mem_iff_get.mp hblob
  obtain ⟨part, hpart, hrun⟩ := hruns i
  obtain ⟨outcome, houtcome, hrun⟩ := runs_attempt.mp hrun
  rw [runs_pure, Except.ok.injEq] at hcount
  have hok : outcome = .ok () := by
    have hmem : outcomes i ∈ List.ofFn outcomes := List.mem_ofFn.mpr ⟨i, rfl⟩
    have hnone := List.countP_eq_zero.mp hcount.2.symm _ hmem
    rw [Except.ok.inj houtcome] at hnone
    cases outcome with
    | ok value => rfl
    | error error => exact absurd rfl hnone
  rw [hok] at hrun
  have hlifted : (liftExchange (deleteBlob X client (targets.get i))).Runs
      (part.map (Prod.map DeletionRequest.client id)) (.ok ()) := by
    rw [liftExchange, runs_mapErr_ok]
    exact hrun.embed _
  obtain ⟨deleted, hdeleted⟩ := runs_deleteBlob_iff.mp hlifted
  exact ⟨part, deleted, hpart.trans (List.sublist_append_left before after), hdeleted⟩

end NixCache.Builder
