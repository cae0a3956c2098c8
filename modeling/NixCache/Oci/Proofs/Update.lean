import NixCache.Lib.Serial
import NixCache.Oci.Proofs.Writing
/-!
# Conditional updates

A run of the update loop sends at most one PUT for each attempt, and all but the last are refused.
When it returns `Ok` the last one was carried out, under the condition that came with what the
mutator was given; when it fails no PUT was carried out.  Against a registry that applies
conditional PUTs atomically, the runs of any number of clients are then a serial history of the tag.
-/

namespace NixCache.Oci

open NixCache.Lib NixCache.Lib.Result NixCache.Core
open NixCache.Lib.Program (Trace Follows)

variable {X : OciCrates} {client : OciClient} {trace : Trace Request Reply}

/-! ## PUTs of a run -/

def isPut (tag : String) : Request × Reply → Bool
  | (.putManifest reference _ _ _, _) => reference = tag
  | _ => false

/-- Whether the reply says that the PUT was carried out. -/
def isDone : Request × Reply → Bool
  | (_, .ok response) => ManifestClient.isPutSuccess response.status
  | _ => false

/-- The PUTs to a tag that got past authentication. -/
def puts (tag : String) (trace : Trace Request Reply) : Trace Request Reply :=
  (effective trace).filter (isPut tag)

/-- The PUTs to a tag that were carried out. -/
def commits (tag : String) (trace : Trace Request Reply) : Trace Request Reply :=
  (puts tag trace).filter isDone

@[simp] theorem puts_append (tag : String) (first rest : Trace Request Reply) :
    puts tag (first ++ rest) = puts tag first ++ puts tag rest := by
  simp [puts]

@[simp] theorem commits_append (tag : String) (first rest : Trace Request Reply) :
    commits tag (first ++ rest) = commits tag first ++ commits tag rest := by
  simp [commits]

theorem puts_eq_nil {tag : String} (h : ∀ event ∈ trace, isPut tag event = false) :
    puts tag trace = [] := by
  unfold puts
  rw [List.filter_eq_nil_iff]
  intro event hevent
  simp [h event (mem_of_effective hevent)]

theorem Request.IsRead.isPut {event : Request × Reply} (h : event.1.IsRead) (tag : String) :
    isPut tag event = false := by
  obtain ⟨request, reply⟩ := event
  cases request <;> first | rfl | exact h.elim

theorem Request.IsUpload.isPut {event : Request × Reply} (h : event.1.IsUpload) (tag : String) :
    isPut tag event = false := by
  obtain ⟨request, reply⟩ := event
  cases request <;> first | rfl | exact h.elim

theorem puts_of_reads {α : Type} {action : Exchange α} {result : Except OciError α}
    (hreads : Action.Only Request.IsRead action) (h : action.Runs trace result) (tag : String) :
    puts tag trace = [] :=
  puts_eq_nil fun event hevent => (hreads.forall_mem h event hevent).isPut tag

theorem puts_of_uploads {α : Type} {action : Exchange α} {result : Except OciError α}
    (huploads : Action.Only Request.IsUpload action) (h : action.Runs trace result)
    (tag : String) : puts tag trace = [] :=
  puts_eq_nil fun event hevent => (huploads.forall_mem h event hevent).isPut tag

/-! ## One attempt -/

/-- An attempt to replace the content of a tag by a body that `Encodes` allows: at most one PUT,
carried out exactly when the attempt succeeded. -/
def Attempt (tag : String) (condition : ManifestCasCondition) (Encodes : Bytes → Prop)
    (trace : Trace Request Reply) {α : Type} : Except OciError α → Prop
  | .ok _ => ∃ contentType body response, Encodes body ∧
      puts tag trace = [(.putManifest tag contentType (some condition) body, .ok response)] ∧
      ManifestClient.isPutSuccess response.status = true
  | .error _ => (puts tag trace).length ≤ 1 ∧ commits tag trace = []

theorem Attempt.of_puts_nil {tag : String} {condition : ManifestCasCondition}
    {Encodes : Bytes → Prop} {α : Type} {error : OciError} (h : puts tag trace = []) :
    Attempt tag condition Encodes trace (.error error : Except OciError α) := by
  simp [Attempt, commits, h]

theorem Attempt.prepend {tag : String} {condition : ManifestCasCondition} {Encodes : Bytes → Prop}
    {α : Type} {result : Except OciError α} {first : Trace Request Reply}
    (h : Attempt tag condition Encodes trace result) (hfirst : puts tag first = []) :
    Attempt tag condition Encodes (first ++ trace) result := by
  cases result with
  | ok value => simpa [Attempt, hfirst] using h
  | error error => simpa [Attempt, commits, hfirst] using h

namespace ManifestClient

/-- A conditional PUT is one attempt. -/
theorem runs_putTextCas {tag contentType operation text : String}
    {condition : ManifestCasCondition} {result : Except OciError Unit}
    (h : (putTextCas X tag contentType operation text condition).Runs trace result) :
    Attempt tag condition (· = Str.asBytes text) trace result := by
  unfold putTextCas at h
  rw [Action.runs_bind] at h
  obtain ⟨_, after, _, rfl, ⟨rfl, _⟩, h⟩ | ⟨error, rfl, rfl, _⟩ := h
  · rw [List.nil_append]
    rw [Action.runs_bind] at h
    obtain ⟨before, after, fetched, rfl, hcall, h⟩ | ⟨error, rfl, hcall⟩ := h
    · obtain ⟨response, hsent, hstatus, _⟩ := runs_requestWithAuthRetry_ok hcall trivial
      rw [Action.runs_bind] at h
      obtain ⟨_, _, _, rfl, ⟨rfl, _⟩, rfl, rfl⟩ | ⟨error, rfl, rfl, hconflict⟩ := h
      · simp only [List.append_nil]
        by_cases hdone : isPutSuccess fetched.status = true
        · rw [ensure_of _ hdone]
          exact ⟨contentType, _, response, rfl, by simp [puts, hsent, isPut], hstatus ▸ hdone⟩
        · simp [Result.ensure, hdone, Attempt, commits, puts, hsent, isPut, isDone, ← hstatus]
      · have hrefused : fetched.status = 412 ∨ fetched.status = 409 := by
          by_contra hother
          rw [ensure_of _ hother] at hconflict
          cases hconflict
        have hnot : isPutSuccess response.status = false := by
          rw [← hstatus]
          rcases hrefused with hcode | hcode
          · rw [hcode]
            rfl
          · rw [hcode]
            rfl
        simp [Attempt, commits, puts, hsent, isPut, isDone, hnot]
    · obtain ⟨reply, hsent, hreply⟩ | ⟨hnone, _⟩ := runs_requestWithAuthRetry hcall trivial
      · cases reply with
        | error _ => simp [Attempt, commits, puts, hsent, isPut, isDone]
        | ok response => cases hreply
      · exact Attempt.of_puts_nil (by simp [puts, hnone])
  · exact Attempt.of_puts_nil rfl

theorem runs_putCas {tag text : String} {condition : ManifestCasCondition}
    {result : Except OciError Unit}
    (h : (putCas X client tag text condition).Runs trace result) :
    Attempt tag condition (· = Str.asBytes text) trace result := by
  unfold putCas at h
  rw [Action.runs_bind] at h
  obtain ⟨_, after, _, rfl, ⟨rfl, _⟩, h⟩ | ⟨error, rfl, rfl, _⟩ := h
  · rw [List.nil_append]
    rw [Action.runs_bind] at h
    obtain ⟨before, after, _, rfl, hconfig, h⟩ | ⟨error, rfl, hconfig⟩ := h
    · exact (runs_putTextCas h).prepend (puts_of_uploads (only_ensureConfigFor text) hconfig tag)
    · exact Attempt.of_puts_nil (puts_of_uploads (only_ensureConfigFor text) hconfig tag)
  · exact Attempt.of_puts_nil rfl

end ManifestClient

namespace IndexClient

theorem runs_putCas {tag : String} {index : OciImageIndex} {condition : ManifestCasCondition}
    {result : Except OciError Unit}
    (h : (putCas X client tag index condition).Runs trace result) :
    Attempt tag condition (· = IndexCodec.toVec X index.toJson) trace result := by
  unfold putCas at h
  rw [Action.runs_bind] at h
  obtain ⟨_, after, _, rfl, ⟨rfl, _⟩, h⟩ | ⟨error, rfl, rfl, _⟩ := h
  · exact ManifestClient.runs_putTextCas h
  · exact Attempt.of_puts_nil rfl

/-- The bytes of the manifest that a root is published with. -/
def EncodesRoot (X : OciCrates) (now : String) (root : ShardedArchCacheIndexData) (body : Bytes) :
    Prop :=
  ∃ blob, IndexCodec.encodeZstd X root.toJson = .ok blob ∧
    body = Str.asBytes (rootManifestText X now root (ContentDigest.fromBytes X.toCrates blob)
      (UInt64.ofNat blob.length))

theorem runs_pushShardedRootCas {now tag : String} {root : ShardedArchCacheIndexData}
    {condition : ManifestCasCondition} {result : Except OciError String}
    (h : (pushShardedRootCas X client now tag root condition).Runs trace result) :
    Attempt tag condition (EncodesRoot X now root) trace result := by
  unfold pushShardedRootCas at h
  rw [Action.runs_bind] at h
  obtain ⟨_, after, _, rfl, ⟨rfl, _⟩, h⟩ | ⟨error, rfl, rfl, _⟩ := h
  · rw [List.nil_append]
    rw [Action.runs_bind] at h
    obtain ⟨_, after, _, rfl, ⟨rfl, _⟩, h⟩ | ⟨error, rfl, rfl, _⟩ := h
    · rw [List.nil_append]
      rw [Action.runs_bind] at h
      obtain ⟨pushed, after, ⟨digest, size, _⟩, rfl, hpush, h⟩ | ⟨error, rfl, hpush⟩ := h
      · have hnone := puts_of_uploads (BlobClient.only_pushZstd _) hpush tag
        obtain ⟨blob, hblob, rfl, rfl, _⟩ := BlobClient.runs_pushZstd_ok hpush
        refine Attempt.prepend ?_ hnone
        rw [Action.runs_bind] at h
        obtain ⟨sent, _, _, rfl, hput, rfl, rfl⟩ | ⟨error, rfl, hput⟩ := h
        · obtain ⟨contentType, body, response, hbody, hputs, hdone⟩ :=
            ManifestClient.runs_putCas hput
          exact ⟨contentType, body, response, ⟨blob, hblob, hbody⟩, by simpa using hputs, hdone⟩
        · exact ManifestClient.runs_putCas hput
      · exact Attempt.of_puts_nil (puts_of_uploads (BlobClient.only_pushZstd _) hpush tag)
    · exact Attempt.of_puts_nil rfl
  · exact Attempt.of_puts_nil rfl

/-! ## The loop -/

section Loop

variable {α β : Type} {tag : String} {read : Exchange (Option α × ManifestCasCondition)}
  {publish : Nat → α → ManifestCasCondition → Exchange β} {Encodes : Nat → α → Bytes → Prop}
  {mutator : Mutator α}

/-- The one PUT of a run that was carried out: its condition came with the reading that the mutator
was given. -/
def Committed (tag : String) (read : Exchange (Option α × ManifestCasCondition))
    (Encodes : Nat → α → Bytes → Prop) (mutator : Mutator α) (trace : Trace Request Reply)
    (application : Application α) : Prop :=
  mutator application.history application.argument = .ok application.result ∧
    ∃ reading condition contentType body response, reading.Sublist trace ∧
      read.Runs reading (.ok (application.argument, condition)) ∧
      Encodes application.history.length application.result body ∧
      commits tag trace = [(.putManifest tag contentType (some condition) body, .ok response)]

theorem Committed.prepend {application : Application α} {first : Trace Request Reply}
    (h : Committed tag read Encodes mutator trace application) (hfirst : commits tag first = []) :
    Committed tag read Encodes mutator (first ++ trace) application := by
  obtain ⟨hmutator, reading, condition, contentType, body, response, hsub, hread, hbody, hcommit⟩ := h
  exact ⟨hmutator, reading, condition, contentType, body, response,
    hsub.trans (List.sublist_append_right first trace), hread, hbody, by simp [hfirst, hcommit]⟩

/-- How a run of the loop ended. -/
def Outcome (tag : String) (read : Exchange (Option α × ManifestCasCondition))
    (Encodes : Nat → α → Bytes → Prop) (mutator : Mutator α) (trace : Trace Request Reply) :
    Except OciError (β × Application α) → Prop
  | .ok (_, application) => Committed tag read Encodes mutator trace application
  | .error _ => commits tag trace = []

/-- One round of the loop, with what is done with its outcome. -/
def round (read : Exchange (Option α × ManifestCasCondition))
    (publish : Nat → α → ManifestCasCondition → Exchange β) (mutator : Mutator α)
    (history : List (Option α))
    (next : Option α → Except OciError (β × Application α) → Exchange (β × Application α)) :
    Exchange (β × Application α) := do
  let (existing, condition) ← read
  let updated ← Action.ofExcept (mutator history existing)
  let result ← Action.attempt do
    let value ← publish history.length updated condition
    pure (value, ⟨history, existing, updated⟩)
  next existing result

theorem casLoop_zero {history : List (Option α)} :
    casLoop read publish mutator 0 history =
      round read publish mutator history fun _ result => Action.ofExcept result := rfl

theorem casLoop_succ {retries : Nat} {history : List (Option α)} :
    casLoop read publish mutator (retries + 1) history =
      round read publish mutator history fun existing result =>
        retryConflict result (casLoop read publish mutator retries (history ++ [existing])) := rfl

/-- A round stops before its PUT, or makes one attempt and goes on with its outcome. -/
theorem runs_round (hread : Action.Only Request.IsRead read)
    (hpublish : ∀ attempt value condition t (r : Except OciError β),
      (publish attempt value condition).Runs t r →
      Attempt tag condition (Encodes attempt value) t r)
    {history : List (Option α)}
    {next : Option α → Except OciError (β × Application α) → Exchange (β × Application α)}
    {result : Except OciError (β × Application α)}
    (h : (round read publish mutator history next).Runs trace result) :
    (puts tag trace = [] ∧ ∃ error, result = .error error) ∨
      ∃ first rest existing outcome, trace = first ++ rest ∧ (puts tag first).length ≤ 1 ∧
        Outcome tag read Encodes mutator first outcome ∧
        (next existing outcome).Runs rest result := by
  unfold round at h
  rw [Action.runs_bind] at h
  obtain ⟨reading, after, ⟨existing, condition⟩, rfl, hreading, h⟩ | ⟨error, rfl, hreading⟩ := h
  · have hnone := puts_of_reads hread hreading tag
    rw [Action.runs_bind] at h
    obtain ⟨_, after, updated, rfl, ⟨rfl, hupdated⟩, h⟩ | ⟨error, rfl, rfl, _⟩ := h
    · right
      rw [List.nil_append]
      rw [Action.runs_bind] at h
      obtain ⟨sent, rest, outcome, rfl, hattempt, h⟩ | ⟨error, rfl, hattempt⟩ := h
      · refine ⟨reading ++ sent, rest, existing, outcome, by rw [List.append_assoc], ?_⟩
        obtain ⟨outcome', houtcome, hpublished⟩ := Action.runs_attempt.mp hattempt
        cases houtcome
        rw [Action.runs_bind] at hpublished
        obtain ⟨pushed, _, value, rfl, hpushed, rfl, rfl⟩ | ⟨error, rfl, hpushed⟩ := hpublished
        · obtain ⟨contentType, body, response, hbody, hputs, hdone⟩ := hpublish _ _ _ _ _ hpushed
          refine ⟨by simp [hnone, hputs], ⟨hupdated.symm, reading, condition, contentType, body,
            response, List.sublist_append_left _ _, hreading, hbody, ?_⟩, h⟩
          simp [commits, hnone, hputs, isDone, hdone]
        · obtain ⟨hlength, hcommits⟩ := hpublish _ _ _ _ _ hpushed
          refine ⟨by simpa [hnone] using hlength, ?_, h⟩
          simpa [Outcome, commits, hnone] using hcommits
      · obtain ⟨outcome, houtcome, _⟩ := Action.runs_attempt.mp hattempt
        cases houtcome
    · exact Or.inl ⟨by simpa using hnone, error, rfl⟩
  · exact Or.inl ⟨puts_of_reads hread hreading tag, error, rfl⟩

theorem runs_casLoop (hread : Action.Only Request.IsRead read)
    (hpublish : ∀ attempt value condition t (r : Except OciError β),
      (publish attempt value condition).Runs t r →
      Attempt tag condition (Encodes attempt value) t r)
    {retries : Nat} {history : List (Option α)} {result : Except OciError (β × Application α)}
    (h : (casLoop read publish mutator retries history).Runs trace result) :
    (puts tag trace).length ≤ retries + 1 ∧
      Outcome tag read Encodes mutator trace result := by
  -- induction on the retries that are left
  induction retries generalizing history trace with
  | zero =>
      rw [casLoop_zero] at h
      obtain ⟨hnone, error, rfl⟩ | ⟨first, rest, _, outcome, rfl, hlength, houtcome, rfl, rfl⟩ :=
        runs_round hread hpublish h
      · simp [Outcome, commits, hnone]
      · simpa using ⟨hlength, houtcome⟩
  | succ retries ih =>
      rw [casLoop_succ] at h
      obtain ⟨hnone, error, rfl⟩ | ⟨first, rest, existing, outcome, rfl, hlength, houtcome, hnext⟩ :=
        runs_round hread hpublish h
      · simp [Outcome, commits, hnone]
      · by_cases hconflict : ∃ tag expected actual,
            outcome = .error (.casPreconditionFailed tag expected actual)
        · obtain ⟨_, _, _, rfl⟩ := hconflict
          obtain ⟨hrest, hresult⟩ := ih hnext
          refine ⟨by simp only [puts_append, List.length_append]; omega, ?_⟩
          cases result with
          | ok value => exact hresult.prepend houtcome
          | error error => simpa [Outcome, houtcome] using ⟨houtcome, hresult⟩
        · have hstop : retryConflict outcome
              (casLoop read publish mutator retries (history ++ [existing])) =
              Action.ofExcept outcome := by
            unfold retryConflict
            split
            · rename_i hother
              exact absurd ⟨_, _, _, rfl⟩ hconflict
            · rfl
          rw [hstop] at hnext
          obtain ⟨rfl, rfl⟩ := hnext
          simp only [List.append_nil]
          exact ⟨by omega, houtcome⟩

end Loop

/-- A run of `update_cas`, with the application it published. -/
theorem runs_updateCas {tag : String} {retries : Nat} {mutator : Mutator OciImageIndex}
    {result : Except OciError Unit}
    (h : (updateCas X client tag retries mutator).Runs trace result) :
    ∃ applied, (updateCasApplied X client tag retries mutator).Runs trace applied ∧
      (result = .ok () ↔ ∃ value, applied = .ok value) := by
  unfold updateCas at h
  rw [Action.runs_bind] at h
  obtain ⟨before, after, value, rfl, happlied, rfl, rfl⟩ | ⟨error, rfl, happlied⟩ := h
  · exact ⟨.ok value, by simpa using happlied, by simp⟩
  · exact ⟨.error error, happlied, by simp⟩

theorem runs_updateShardedCas {clock : Nat → String} {tag : String} {system : SystemArch}
    {retries : Nat} {mutator : Mutator ShardedArchCacheIndexData} {result : Except OciError String}
    (h : (updateShardedCas X client clock tag system retries mutator).Runs trace result) :
    ∃ applied, (updateShardedCasApplied X client clock tag system retries mutator).Runs trace
        applied ∧
      ((∃ digest, result = .ok digest) ↔ ∃ value, applied = .ok value) := by
  unfold updateShardedCas at h
  rw [Action.runs_bind] at h
  obtain ⟨before, after, value, rfl, happlied, rfl, rfl⟩ | ⟨error, rfl, happlied⟩ := h
  · exact ⟨.ok value, by simpa using happlied, by simp⟩
  · exact ⟨.error error, happlied, by simp⟩

section Requests

variable {tag : String}

/-! ## The requests of an update -/

/-- PUTs go to one tag; the other requests are in `Q`. -/
def IsUpdate (tag : String) (Q : Request → Prop) : Request → Prop
  | .putManifest reference _ _ _ => reference = tag
  | request => Q request

theorem only_putTextCas {Q : Request → Prop} {contentType operation text : String}
    {condition : ManifestCasCondition} (htoken : ∀ challenge, Q (.refreshToken challenge)) :
    Action.Only (IsUpdate tag Q)
      (ManifestClient.putTextCas X tag contentType operation text condition) := by
  apply Action.only_ofExcept_bind
  intro _
  apply Action.only_bind
  · exact only_send rfl htoken
  · intro _
    exact Action.only_ofExcept_bind fun _ => Action.only_ofExcept _

theorem only_casLoop {α β : Type} {Q : Request → Prop}
    {read : Exchange (Option α × ManifestCasCondition)}
    {publish : Nat → α → ManifestCasCondition → Exchange β} {mutator : Mutator α}
    (hread : Action.Only Q read)
    (hpublish : ∀ attempt value condition, Action.Only Q (publish attempt value condition))
    (retries : Nat) (history : List (Option α)) :
    Action.Only Q (casLoop read publish mutator retries history) := by
  have hround : ∀ (history : List (Option α))
      (next : Option α → Except OciError (β × Application α) → Exchange (β × Application α)),
      (∀ existing result, Action.Only Q (next existing result)) →
      Action.Only Q (round read publish mutator history next) := by
    intro history next hnext
    apply Action.only_bind hread
    intro reading
    apply Action.only_ofExcept_bind
    intro updated
    apply Action.only_bind
    · exact Action.only_attempt
        (Action.only_bind (hpublish _ _ _) fun _ => Action.only_pure _)
    · exact hnext reading.1
  induction retries generalizing history with
  | zero =>
      rw [casLoop_zero]
      exact hround history _ fun _ result => Action.only_ofExcept result
  | succ retries ih =>
      rw [casLoop_succ]
      apply hround
      intro existing result
      unfold retryConflict
      split
      · exact ih _
      · exact Action.only_ofExcept _

theorem IsUpdate.of_isRead {Q : Request → Prop} (hQ : ∀ request, request.IsRead → Q request)
    {request : Request} (h : request.IsRead) : IsUpdate tag Q request := by
  have hrequest := hQ request h
  cases request <;> first | exact hrequest | exact h.elim

theorem IsUpdate.of_isUpload {Q : Request → Prop} (hQ : ∀ request, request.IsUpload → Q request)
    {request : Request} (h : request.IsUpload) : IsUpdate tag Q request := by
  have hrequest := hQ request h
  cases request <;> first | exact hrequest | exact h.elim

theorem only_readForUpdate : Action.Only Request.IsRead (readForUpdate X client tag) := by
  apply Action.only_bind (ManifestClient.only_fetchArtifact tag)
  intro found
  cases found with
  | none => exact Action.only_pure _
  | some artifact => exact Action.only_pure _

theorem only_readRootForUpdate {system : SystemArch} :
    Action.Only Request.IsRead (readRootForUpdate X client tag system) := by
  apply Action.only_bind (only_getShardedRoot tag system)
  intro found
  cases found with
  | none => exact Action.only_pure _
  | some found => exact Action.only_pure _

theorem runs_updateCasApplied {retries : Nat} {mutator : Mutator OciImageIndex}
    {result : Except OciError (Unit × Application OciImageIndex)}
    (h : (updateCasApplied X client tag retries mutator).Runs trace result) :
    (puts tag trace).length ≤ retries + 1 ∧
      Outcome tag (readForUpdate X client tag) (fun _ index body => body = IndexCodec.toVec X index.toJson)
        mutator trace result := by
  unfold updateCasApplied at h
  rw [Action.runs_bind] at h
  obtain ⟨_, after, _, rfl, ⟨rfl, _⟩, h⟩ | ⟨error, rfl, rfl, _⟩ := h
  · refine runs_casLoop only_readForUpdate ?_ h
    intro _ index condition t r hpublish
    exact runs_putCas hpublish
  · exact ⟨Nat.zero_le _, rfl⟩

theorem runs_updateShardedCasApplied {clock : Nat → String} {system : SystemArch} {retries : Nat}
    {mutator : Mutator ShardedArchCacheIndexData}
    {result : Except OciError (String × Application ShardedArchCacheIndexData)}
    (h : (updateShardedCasApplied X client clock tag system retries mutator).Runs trace result) :
    (puts (archTag tag system) trace).length ≤ retries + 1 ∧
      Outcome (archTag tag system) (readRootForUpdate X client (archTag tag system) system)
        (fun attempt root body => EncodesRoot X (clock attempt) root body) mutator trace result := by
  unfold updateShardedCasApplied at h
  rw [Action.runs_bind] at h
  obtain ⟨_, after, _, rfl, ⟨rfl, _⟩, h⟩ | ⟨error, rfl, rfl, _⟩ := h
  · refine runs_casLoop only_readRootForUpdate ?_ h
    intro attempt root condition t r hpublish
    exact runs_pushShardedRootCas hpublish
  · exact ⟨Nat.zero_le _, rfl⟩

theorem only_updateCasApplied {retries : Nat} {mutator : Mutator OciImageIndex} :
    Action.Only (IsUpdate tag Request.IsRead) (updateCasApplied X client tag retries mutator) := by
  apply Action.only_ofExcept_bind
  intro _
  apply only_casLoop
  · exact only_readForUpdate.mono fun _ => IsUpdate.of_isRead fun _ => id
  · intro _ index condition
    exact Action.only_ofExcept_bind fun _ => only_putTextCas fun _ => trivial

theorem only_updateShardedCasApplied {clock : Nat → String} {system : SystemArch} {retries : Nat}
    {mutator : Mutator ShardedArchCacheIndexData} :
    Action.Only (IsUpdate (archTag tag system) fun request => request.IsRead ∨ request.IsUpload)
      (updateShardedCasApplied X client clock tag system retries mutator) := by
  apply Action.only_ofExcept_bind
  intro _
  apply only_casLoop
  · exact only_readRootForUpdate.mono fun _ => IsUpdate.of_isRead fun _ => Or.inl
  · intro attempt root condition
    have huploads : ∀ {α : Type} {action : Exchange α}, Action.Only Request.IsUpload action →
        Action.Only (IsUpdate (archTag tag system) fun request =>
          request.IsRead ∨ request.IsUpload) action :=
      fun h => h.mono fun _ => IsUpdate.of_isUpload fun _ => Or.inr
    apply Action.only_ofExcept_bind
    intro _
    apply Action.only_ofExcept_bind
    intro _
    apply Action.only_bind (huploads (BlobClient.only_pushZstd _))
    intro pushed
    apply Action.only_bind
    · apply Action.only_ofExcept_bind
      intro _
      apply Action.only_bind (huploads (ManifestClient.only_ensureConfigFor _))
      intro _
      exact only_putTextCas fun _ => Or.inl trivial
    · exact fun _ => Action.only_pure _

end Requests

end IndexClient

end NixCache.Oci
