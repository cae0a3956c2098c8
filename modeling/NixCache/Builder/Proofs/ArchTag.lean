import NixCache.Builder.Promote
import NixCache.Oci.Proofs.Sample
import NixCache.Oci.Proofs.Update
/-!
# The tag of an architecture

`run_promote` appends the system to the target tag, the readers and the updates do so only where the
tag does not end with it.
-/

namespace NixCache.Builder

open NixCache.Lib NixCache.Lib.Result NixCache.Core NixCache.Oci NixCache.Lib.Action
open Program (Trace)
open IndexClient (IsUpdate)

variable {X : OciCrates} {client : OciClient} {target : String} {system : SystemArch}

/-! ## What is sent -/

/-- The tag that `run_promote` pushes under. -/
def promotedTag (target : String) (system : SystemArch) : String := target ++ "-" ++ system.asStr

theorem only_replaceShard {tag : String} (state : Compaction) (shardId : Nat)
    (descriptor : ShardDescriptor) (payload : ShardDataPayload) :
    Only (IsUpdate tag fun request => request.IsRead ∨ request.IsUpload)
      (replaceShard X client state shardId descriptor payload) := by
  apply only_bind
  · apply only_mapErr
    apply only_ofExcept_bind
    intro _
    apply only_bind
    · exact (BlobClient.only_pushZstd _).mono fun _ => IsUpdate.of_isUpload fun _ => Or.inr
    · intro _
      exact only_pure _
  · intro blob
    exact only_ofExcept_bind fun _ => only_pure _

theorem only_compactShard {tag : String}
    {partitioned : HashMap UInt16 (HashMap StoreHash IndexEntry)} (state : Compaction)
    (shardId : Nat) :
    Only (IsUpdate tag fun request => request.IsRead ∨ request.IsUpload)
      (compactShard X client system partitioned state shardId) := by
  unfold compactShard
  split
  · rename_i incoming descriptor _ _
    split
    · exact only_pure _
    · have hbaseline : Only (IsUpdate tag fun request => request.IsRead ∨ request.IsUpload)
          (baselinePayload X client system shardId descriptor) := by
        unfold baselinePayload
        split
        · apply only_mapErr
          exact (IndexClient.only_getShardData _ _).mono fun _ => IsUpdate.of_isRead fun _ => Or.inl
        · exact only_ofExcept _
      exact only_bind hbaseline fun payload => only_replaceShard _ _ _ _
  · exact only_pure _

theorem only_putText {tag contentType operation text : String} :
    Only (IsUpdate tag fun request => request.IsRead ∨ request.IsUpload)
      (ManifestClient.putText X tag contentType operation text) :=
  only_bind (only_send rfl fun _ => Or.inl trivial) fun _ => only_ofExcept _

theorem only_pushShardedRoot {now tag : String} (root : ShardedArchCacheIndexData) :
    Only (IsUpdate tag fun request => request.IsRead ∨ request.IsUpload)
      (IndexClient.pushShardedRoot X client now tag root) := by
  have huploads : ∀ {α : Type} {action : Exchange α}, Only Request.IsUpload action →
      Only (IsUpdate tag fun request => request.IsRead ∨ request.IsUpload) action :=
    fun h => h.mono fun _ => IsUpdate.of_isUpload fun _ => Or.inr
  apply only_ofExcept_bind
  intro _
  apply only_bind (huploads (BlobClient.only_pushZstd _))
  intro pushed
  apply only_bind
  · apply only_bind (huploads (ManifestClient.only_ensureConfigFor _))
    intro _
    exact only_putText
  · intro _
    exact only_pure _

/-- One architecture is pushed under its promoted tag. -/
theorem only_promoteSystem (args : PromoteArgs) (incoming : Incoming) (system : SystemArch) :
    Only (IsUpdate (promotedTag args.targetTag system) fun request =>
        request.IsRead ∨ request.IsUpload)
      (promoteSystem X client args incoming system) := by
  unfold promoteSystem
  generalize List.range numShards = shardIds
  apply only_bind
  · apply only_mapErr
    exact (IndexClient.only_getShardedRoot _ _).mono fun _ => IsUpdate.of_isRead fun _ => Or.inl
  · intro existing
    apply only_ofExcept_bind
    intro root
    apply only_bind
    · exact only_foldM only_compactShard _ _
    · intro state
      apply only_ofExcept_bind
      intro root
      apply only_bind
      · exact only_mapErr (only_pushShardedRoot root)
      · intro digest
        exact only_pure _

/-- A reader asks for the tag of the architecture first. -/
theorem begins_getShardedRoot (tag : String) (system : SystemArch) :
    Begins (Request.getManifest (archTag tag system))
      (IndexClient.getShardedRoot X client tag system) := by
  have hcall : Begins (Request.getManifest (archTag tag system))
      (ManifestClient.getWithDigest X client (archTag tag system)) := by
    refine Begins.ofExcept_bind (rfl : _ = Except.ok ()) ?_
    exact (((begins_request _).bind _).bind _).bind _
  exact (hcall.bind _).bind _

/-! ## The tags of an architecture -/

/-- The tag is one that an architecture of the target is pushed, read or updated under. -/
inductive UsesTag (target : String) (system : SystemArch) : String → Prop where
  | pushed {X : OciCrates} {client : OciClient} {args : PromoteArgs} {incoming : Incoming}
      {trace : Trace Request Reply} {result : Except BuilderError Published} {tag type : String}
      {condition : Option ManifestCasCondition} {body : Bytes} {reply : Reply}
      (htarget : args.targetTag = target)
      (hruns : (promoteSystem X client args incoming system).Runs trace result)
      (hput : (.putManifest tag type condition body, reply) ∈ trace) :
      UsesTag target system tag
  | read {X : OciCrates} {client : OciClient} {trace : Trace Request Reply}
      {result : Except OciError (Option (ShardedArchCacheIndexData × String))} {tag : String}
      {reply : Reply}
      (hruns : (IndexClient.getShardedRoot X client target system).Runs
        ((.getManifest tag, reply) :: trace) result) :
      UsesTag target system tag
  | updated {X : OciCrates} {client : OciClient} {clock : Nat → String} {retries : Nat}
      {mutator : Mutator ShardedArchCacheIndexData} {trace : Trace Request Reply}
      {result : Except OciError (String × Application ShardedArchCacheIndexData)}
      {tag type : String} {condition : Option ManifestCasCondition} {body : Bytes} {reply : Reply}
      (hruns : (IndexClient.updateShardedCasApplied X client clock target system retries
        mutator).Runs trace result)
      (hput : (.putManifest tag type condition body, reply) ∈ trace) :
      UsesTag target system tag

/-- The writers and the readers of an architecture use one tag, which is not the target and not a
tag of another architecture. -/
structure TagsAgree (target : String) (system : SystemArch) : Prop where
  one : ∀ tag tag', UsesTag target system tag → UsesTag target system tag' → tag = tag'
  ne_target : ∀ tag, UsesTag target system tag → tag ≠ target
  ne_other : ∀ other, other ≠ system → ∀ tag tag', UsesTag target system tag →
    UsesTag target other tag' → tag ≠ tag'

theorem UsesTag.eq {tag : String} (h : UsesTag target system tag) :
    tag = promotedTag target system ∨ tag = archTag target system := by
  cases h with
  | pushed htarget hruns hput =>
      subst htarget
      exact Or.inl ((only_promoteSystem _ _ _).forall_mem hruns _ hput)
  | read hruns =>
      obtain ⟨reply, rest, hcons⟩ := begins_getShardedRoot _ _ _ _ hruns
      simp only [List.cons.injEq, Prod.mk.injEq, Request.getManifest.injEq] at hcons
      exact Or.inr hcons.1.1
  | updated hruns hput =>
      exact Or.inr (IndexClient.only_updateShardedCasApplied.forall_mem hruns _ hput)

theorem usesTag_archTag (target : String) (system : SystemArch) :
    UsesTag target system (archTag target system) := by
  obtain ⟨trace, hruns⟩ := Action.runs_eval (fun _ => .error (.timeout 0))
    (IndexClient.getShardedRoot (storingCrates sampleCrates) sampleClient target system)
  obtain ⟨reply, rest, rfl⟩ := begins_getShardedRoot target system trace _ hruns
  exact .read hruns

theorem promotedTag_ne (target : String) (system : SystemArch) :
    promotedTag target system ≠ target := by
  intro h
  have hlength := congrArg String.length h
  have hdash : "-".length = 1 := rfl
  simp only [promotedTag, String.length_append] at hlength
  omega

theorem promotedTag_injective (target : String) : Function.Injective (promotedTag target) := by
  intro left right h
  apply SystemArch.asStr_injective
  simpa [promotedTag, String.append_assoc] using h

/-- The tags of an architecture agree exactly if the target does not end with its name. -/
theorem tagsAgree_iff (target : String) (system : SystemArch) :
    TagsAgree target system ↔ Str.endsWith target system.asStr = false := by
  constructor
  · intro h
    by_contra hends
    rw [Bool.not_eq_false] at hends
    refine h.ne_target _ (usesTag_archTag target system) ?_
    rw [archTag, if_pos hends]
  · intro hends
    have harch : archTag target system = promotedTag target system := by
      rw [archTag, if_neg (by simp [hends])]
      rfl
    have huses : ∀ tag, UsesTag target system tag → tag = promotedTag target system := by
      intro tag htag
      rcases htag.eq with rfl | rfl
      · rfl
      · exact harch
    refine ⟨?_, ?_, ?_⟩
    · intro tag tag' htag htag'
      rw [huses tag htag, huses tag' htag']
    · intro tag htag
      rw [huses tag htag]
      exact promotedTag_ne target system
    · intro other hother tag tag' htag htag'
      rw [huses tag htag]
      have hne : promotedTag target system ≠ promotedTag target other :=
        fun heq => hother (promotedTag_injective target heq).symm
      rcases htag'.eq with rfl | rfl
      · exact hne
      · unfold archTag
        split
        · exact promotedTag_ne target system
        · exact hne

/-- The target is the tag of an architecture: a reader asks for the target itself, and a promotion
appends the system once more. -/
theorem archTarget_not_agrees :
    ¬ TagsAgree "cache-index-x86_64-linux" .x86_64Linux ∧
      UsesTag "cache-index-x86_64-linux" .x86_64Linux "cache-index-x86_64-linux" ∧
      promotedTag "cache-index-x86_64-linux" .x86_64Linux =
        "cache-index-x86_64-linux-x86_64-linux" := by
  have hread := usesTag_archTag "cache-index-x86_64-linux" .x86_64Linux
  have harch : archTag "cache-index-x86_64-linux" .x86_64Linux = "cache-index-x86_64-linux" := by
    decide
  rw [harch] at hread
  exact ⟨fun h => h.ne_target _ hread rfl, hread, by decide⟩

end NixCache.Builder
