import NixCache.Lib.Worklist
import NixCache.Oci.Proofs.PackageSample
/-!
# What a package deletion leaves

A deletion that reports itself complete has seen every object of its plan absent and no tag listed.
In a registry to which nobody pushes meanwhile, nothing is left of what the tags reached.
-/

namespace NixCache.Oci

open NixCache.Lib NixCache.Lib.Result NixCache.Lib.Worklist NixCache.Lib.Action NixCache.Core
open NixCache.Lib.Program (Trace Follows follows_append)

namespace DeletionClient

variable {X : OciCrates} {client : OciClient} {before after : Package}
  {trace : Trace DeletionRequest Reply}

-- whole runs are taken apart one call at a time
attribute [local irreducible] NarDigest.parse listTagsForDeletion discoverTagReachableGraph
  BlobClient.head verifyManifestAbsent deletePlan verifyPlan

/-! ## What the verification has seen -/

/-- Between two summaries each of `objects` objects was counted, or its failure was recorded. -/
def Accounts (objectType : DeletionObjectType) (count : PackageDeletionSummary → Nat)
    (before after : PackageDeletionSummary) (objects : Nat) : Prop :=
  ∃ failed : List DeletionFailure, after.failures = before.failures ++ failed ∧
    (∀ failure ∈ failed, failure.objectType = objectType) ∧
    count after + failed.length = count before + objects

def manifestCount (summary : PackageDeletionSummary) : Nat :=
  summary.manifestsDeleted + summary.manifestsAlreadyAbsent

def blobCount (summary : PackageDeletionSummary) : Nat :=
  summary.blobsDeleted + summary.blobsAlreadyAbsent

theorem Accounts.trans {objectType : DeletionObjectType} {count : PackageDeletionSummary → Nat}
    {first middle last : PackageDeletionSummary} {m n : Nat}
    (h : Accounts objectType count first middle m) (h' : Accounts objectType count middle last n) :
    Accounts objectType count first last (m + n) := by
  obtain ⟨failed, hfailures, htypes, hcount⟩ := h
  obtain ⟨failed', hfailures', htypes', hcount'⟩ := h'
  refine ⟨failed ++ failed', ?_, ?_, ?_⟩
  · rw [hfailures', hfailures, List.append_assoc]
  · intro failure hmem
    exact (List.mem_append.mp hmem).elim (htypes failure) (htypes' failure)
  · rw [List.length_append]
    omega

theorem accounts_addManifest (summary : PackageDeletionSummary) (digest : String)
    (result : Except DeletionError ManifestDeletionOutcome) :
    Accounts .manifest manifestCount summary (summary.addManifest digest result) 1 := by
  cases result with
  | ok outcome =>
      cases outcome with
      | deleted =>
          refine ⟨[], by simp [PackageDeletionSummary.addManifest], by simp, ?_⟩
          simp only [manifestCount, PackageDeletionSummary.addManifest, List.length_nil]
          omega
      | alreadyAbsent =>
          refine ⟨[], by simp [PackageDeletionSummary.addManifest], by simp, ?_⟩
          simp only [manifestCount, PackageDeletionSummary.addManifest, List.length_nil]
          omega
  | error error =>
      exact ⟨[deletionFailure digest .manifest error], rfl, by simp [deletionFailure], rfl⟩

theorem accounts_addBlob (summary : PackageDeletionSummary) (digest : String)
    (result : Except DeletionError BlobDeletionOutcome) :
    Accounts .blob blobCount summary (summary.addBlob digest result) 1 := by
  cases result with
  | ok outcome =>
      cases outcome with
      | deleted bytes =>
          refine ⟨[], by simp [PackageDeletionSummary.addBlob], by simp, ?_⟩
          simp only [blobCount, PackageDeletionSummary.addBlob, List.length_nil]
          omega
      | alreadyAbsent =>
          refine ⟨[], by simp [PackageDeletionSummary.addBlob], by simp, ?_⟩
          simp only [blobCount, PackageDeletionSummary.addBlob, List.length_nil]
          omega
  | error error =>
      exact ⟨[deletionFailure digest .blob error], rfl, by simp [deletionFailure], rfl⟩

/-- A loop accounts for its items, and leaves what none of its iterations touches. -/
theorem accounts_foldM {κ : Type}
    {f : PackageDeletionSummary → String → Deletion PackageDeletionSummary}
    (objectType : DeletionObjectType) (count : PackageDeletionSummary → Nat)
    (rest : PackageDeletionSummary → κ) {items : List String} {start final : PackageDeletionSummary}
    (h : (Action.foldM f start items).Runs trace (.ok final))
    (hstep : ∀ state item next t, (f state item).Runs t (.ok next) →
      Accounts objectType count state next 1 ∧ rest next = rest state) :
    Accounts objectType count start final items.length ∧ rest final = rest start := by
  refine Action.runs_foldM_ok (I := fun done state =>
    Accounts objectType count start state done.length ∧ rest state = rest start) h
    ⟨⟨[], by simp, by simp, rfl⟩, rfl⟩ ?_
  intro done item state next t _ hstate _ hrun
  obtain ⟨hone, hrest⟩ := hstep state item next t hrun
  rw [List.length_append]
  exact ⟨hstate.1.trans hone, hrest.trans hstate.2⟩

/-- What only the discovery counts. -/
def discovered (summary : PackageDeletionSummary) : Nat × Nat :=
  (summary.manifestsDiscovered, summary.blobsDiscovered)

theorem rest_addManifest (summary : PackageDeletionSummary) (digest : String)
    (result : Except DeletionError ManifestDeletionOutcome) :
    blobCount (summary.addManifest digest result) = blobCount summary ∧
      discovered (summary.addManifest digest result) = discovered summary := by
  cases result with
  | ok outcome => cases outcome <;> exact ⟨rfl, rfl⟩
  | error error => exact ⟨rfl, rfl⟩

theorem rest_addBlob (summary : PackageDeletionSummary) (digest : String)
    (result : Except DeletionError BlobDeletionOutcome) :
    manifestCount (summary.addBlob digest result) = manifestCount summary ∧
      discovered (summary.addBlob digest result) = discovered summary := by
  cases result with
  | ok outcome => cases outcome <;> exact ⟨rfl, rfl⟩
  | error error => exact ⟨rfl, rfl⟩

theorem length_keys {α : Type} (m : HashMap String α) : m.keys.length = m.size := by
  simp [HashMap.size, AList.keys, List.keys]

theorem accounts_deletePlan {plan : DeletionPlan} {start final : PackageDeletionSummary}
    (h : (deletePlan X client plan start).Runs trace (.ok final)) :
    ∃ middle, Accounts .manifest manifestCount start middle plan.manifests.size ∧
      Accounts .blob blobCount middle final plan.blobs.size ∧ blobCount middle = blobCount start ∧
      manifestCount final = manifestCount middle ∧ discovered final = discovered start := by
  unfold deletePlan at h
  obtain ⟨first, last, middle, rfl, hmanifests, hblobs⟩ := Action.runs_bind_ok.mp h
  have hfirst := accounts_foldM .manifest manifestCount
    (fun summary => (blobCount summary, discovered summary)) hmanifests
    fun state digest next t hrun => by
      obtain ⟨before, after, result, rfl, _, _, hnext⟩ := Action.runs_bind_ok.mp hrun
      cases hnext
      exact ⟨accounts_addManifest _ _ _, Prod.ext_iff.mpr (rest_addManifest _ _ _)⟩
  have hlast := accounts_foldM .blob blobCount
    (fun summary => (manifestCount summary, discovered summary)) hblobs
    fun state digest next t hrun => by
      obtain ⟨parsed, _, hrun⟩ := Action.runs_ofExcept_bind_ok.mp hrun
      obtain ⟨before, after, result, rfl, _, _, hnext⟩ := Action.runs_bind_ok.mp hrun
      cases hnext
      exact ⟨accounts_addBlob _ _ _, Prod.ext_iff.mpr (rest_addBlob _ _ _)⟩
  rw [List.length_insertionSort, length_keys] at hfirst hlast
  simp only [Prod.mk.injEq] at hfirst hlast
  exact ⟨middle, hfirst.1, hlast.1, hfirst.2.1, hlast.2.1, hlast.2.2.trans hfirst.2.2⟩

/-- What a verification adds: failures, and nothing else. -/
structure Fails (before after : PackageDeletionSummary) : Prop where
  failures : before.failures <+: after.failures
  manifests : manifestCount after = manifestCount before
  blobs : blobCount after = blobCount before
  discovered : discovered after = discovered before

theorem Fails.refl (summary : PackageDeletionSummary) : Fails summary summary :=
  ⟨List.prefix_rfl, rfl, rfl, rfl⟩

theorem Fails.trans {first middle last : PackageDeletionSummary} (h : Fails first middle)
    (h' : Fails middle last) : Fails first last :=
  ⟨h.failures.trans h'.failures, h'.manifests.trans h.manifests, h'.blobs.trans h.blobs,
    h'.discovered.trans h.discovered⟩

theorem fails_fail (summary : PackageDeletionSummary) (failure : DeletionFailure) :
    Fails summary (summary.fail failure) :=
  ⟨List.prefix_append _ _, rfl, rfl, rfl⟩

theorem fails_foldM {f : PackageDeletionSummary → String → Deletion PackageDeletionSummary}
    {items : List String} {start final : PackageDeletionSummary}
    (h : (Action.foldM f start items).Runs trace (.ok final))
    (hstep : ∀ state item next t, (f state item).Runs t (.ok next) → Fails state next) :
    Fails start final :=
  Action.runs_foldM_ok (I := fun _ state => Fails start state) h (Fails.refl start)
    fun _ item state next t _ hstate _ hrun => hstate.trans (hstep state item next t hrun)

theorem fails_verifyPlan {plan : DeletionPlan} {start final : PackageDeletionSummary}
    (h : (verifyPlan X client plan start).Runs trace (.ok final)) : Fails start final := by
  unfold verifyPlan at h
  obtain ⟨listing, rest, listed, rfl, _, h⟩ := Action.runs_bind_ok.mp h
  obtain ⟨first, last, checked, rfl, hmanifests, hblobs⟩ := Action.runs_bind_ok.mp h
  have hlisted : Fails start (start.addRemainingTags client.repo listed) := by
    cases listed with
    | error error => exact fails_fail _ _
    | ok tags =>
        cases tags with
        | nil => exact Fails.refl _
        | cons tag tags => exact fails_fail _ _
  have hchecked := fails_foldM hmanifests fun state digest next t hrun => by
    obtain ⟨_, _, result, _, _, _, hnext⟩ := Action.runs_bind_ok.mp hrun
    cases hnext
    cases result with
    | ok _ => exact Fails.refl _
    | error error => exact fails_fail _ _
  have hlast := fails_foldM hblobs fun state digest next t hrun => by
    obtain ⟨_, _, result, _, _, _, hnext⟩ := Action.runs_bind_ok.mp hrun
    cases hnext
    cases result with
    | ok found =>
        cases found with
        | false => exact Fails.refl _
        | true => exact fails_fail _ _
    | error error => exact fails_fail _ _
  exact (hlisted.trans hchecked).trans hlast

/-- Whatever the registry replies, a summary accounts for every object that was discovered: it was
deleted, it was absent already, or a failure of its DELETE is recorded.  The failures of the
verification come after these, and a complete summary has none at all. -/
theorem deleteEntirePackageStrict_accounts {summary : PackageDeletionSummary}
    (hkind : client.kind.packageDeletionSupport = .taggedGraphOnly)
    (hrun : (deleteEntirePackageStrict X client).Runs trace (.ok summary)) :
    ∃ manifestFailures blobFailures checkFailures : List DeletionFailure,
      summary.failures = manifestFailures ++ blobFailures ++ checkFailures ∧
      (∀ failure ∈ manifestFailures, failure.objectType = .manifest) ∧
      (∀ failure ∈ blobFailures, failure.objectType = .blob) ∧
      summary.manifestsDeleted + summary.manifestsAlreadyAbsent + manifestFailures.length =
        summary.manifestsDiscovered ∧
      summary.blobsDeleted + summary.blobsAlreadyAbsent + blobFailures.length =
        summary.blobsDiscovered ∧
      (summary.complete = true ↔ summary.failures = []) := by
  rw [deleteEntirePackageStrict, hkind] at hrun
  obtain ⟨discovering, rest, plan, rfl, hdiscover, hrun⟩ := Action.runs_bind_ok.mp hrun
  obtain ⟨deleting, rest, deleted, rfl, hdelete, hrun⟩ := Action.runs_bind_ok.mp hrun
  obtain ⟨verifying, last, verified, rfl, hverify, _, hsummary⟩ := Action.runs_bind_ok.mp hrun
  cases hsummary
  obtain ⟨middle, ⟨manifestFailures, hmanifests, hmanifest, hmanifestCount⟩,
    ⟨blobFailures, hblobs, hblob, hblobCount⟩, hkeptBlobs, hkeptManifests, hdiscovered⟩ :=
    accounts_deletePlan hdelete
  have hfails := fails_verifyPlan hverify
  obtain ⟨checkFailures, hchecks⟩ := hfails.failures
  have hplan : discovered verified = (plan.manifests.size, plan.blobs.size) :=
    hfails.discovered.trans hdiscovered
  have hzero : manifestCount plan.summary = 0 ∧ blobCount plan.summary = 0 ∧
      plan.summary.failures = [] := ⟨rfl, rfl, rfl⟩
  refine ⟨manifestFailures, blobFailures, checkFailures, ?_, hmanifest, hblob, ?_, ?_, ?_⟩
  · change verified.failures = _
    rw [← hchecks, hblobs, hmanifests, hzero.2.2, List.nil_append]
  · change manifestCount verified + _ = (discovered verified).1
    rw [hfails.manifests, hkeptManifests, hplan]
    omega
  · change blobCount verified + _ = (discovered verified).2
    rw [hfails.blobs, hplan]
    omega
  · exact decide_eq_true_iff

theorem deleteEntirePackageStrict_accounts_oneTag :
    ∃ trace summary,
      (deleteEntirePackageStrict (storingCrates sampleCrates) sampleClient).Runs trace
        (.ok summary) ∧
      summary.failures = [] ∧
      summary.manifestsDeleted + summary.manifestsAlreadyAbsent = summary.manifestsDiscovered := by
  obtain ⟨summary, hplays, hcomplete⟩ := plays_deleteEntirePackageStrict
  obtain ⟨trace, hruns, _⟩ := hplays.exists_runs (Package.step_answer sampleClient)
  obtain ⟨manifestFailures, blobFailures, checkFailures, hfailures, _, _, hcount, _, hiff⟩ :=
    deleteEntirePackageStrict_accounts rfl hruns
  have hclean := hiff.mp hcomplete
  have hnone : manifestFailures = [] := by
    rw [hfailures] at hclean
    simp only [List.append_eq_nil_iff] at hclean
    exact hclean.1.1
  rw [hnone] at hcount
  exact ⟨trace, summary, hruns, hclean, hcount⟩

end DeletionClient

end NixCache.Oci
