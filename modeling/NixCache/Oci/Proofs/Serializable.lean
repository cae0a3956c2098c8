import NixCache.Lib.MerkleTree
import NixCache.Oci.Proofs.Sample
import NixCache.Oci.Proofs.Update
/-!
# Concurrent updates of one tag

Any number of clients update one tag of a registry that applies conditional PUTs atomically.  What
links a reading to the PUT that follows it is the digest: the content that is replaced has the
digest of the content that was read, so it is that content.
-/

namespace NixCache.Oci

open NixCache.Lib NixCache.Lib.Result NixCache.Lib.MerkleTree NixCache.Core
open NixCache.Lib.Program (Trace Follows)

variable {X : OciCrates} {before after : Registry} {trace : Trace Request Reply}

/-! ## The contents that occur -/

/-- The bodies of the manifest PUTs that were carried out. -/
def putBodies (trace : Trace Request Reply) : List Bytes :=
  trace.filterMap fun event => (putOf event).map Prod.snd

/-- What a reader of the tag may be given during a run. -/
def tagContents (before : Registry) (tag : String) (trace : Trace Request Reply) : List Bytes :=
  (before.tags tag).toList ++ (before.manifests tag).toList ++ putBodies trace

theorem mem_putBodies {event : Request × Reply} (hevent : event ∈ trace) {put : String × Bytes}
    (hput : putOf event = some put) : put.2 ∈ putBodies trace :=
  List.mem_filterMap.mpr ⟨event, hevent, by simp [hput]⟩

namespace Registry

/-- What the registry answers for a tag is among `contents`. -/
def Among (tag : String) (contents : List Bytes) (registry : Registry) : Prop :=
  (∀ body ∈ registry.tags tag, body ∈ contents) ∧ ∀ body ∈ registry.manifests tag, body ∈ contents

theorem among_tagContents (tag : String) (trace : Trace Request Reply) :
    before.Among tag (tagContents before tag trace) := by
  constructor
  · intro body hbody
    simp [tagContents, Option.mem_def.mp hbody]
  · intro body hbody
    simp [tagContents, Option.mem_def.mp hbody]

theorem Among.step {applied : StatusCode → Bool} {tag : String} {contents : List Bytes}
    {event : Request × Reply} (h : Step X.toCrates applied before event after)
    (hmem : ∀ put ∈ putOf event, put.2 ∈ contents) (hamong : before.Among tag contents) :
    after.Among tag contents := by
  cases hput : putOf event with
  | none =>
      obtain ⟨htags, hmanifests⟩ := manifests_of_step h hput
      simpa [Among, htags, hmanifests] using hamong
  | some put =>
      obtain ⟨target, written⟩ := put
      have hwritten : written ∈ contents := hmem _ hput
      obtain ⟨_, _, _, _, _, _, rfl⟩ := step_of_putOf h hput
      have hupdate : ∀ (f : String → Option Bytes) (key : String),
          (∀ body ∈ f tag, body ∈ contents) →
          ∀ body ∈ Function.update f key (some written) tag, body ∈ contents := by
        intro f key hf body hbody
        by_cases hkey : tag = key
        · subst hkey
          simp only [Function.update_self, Option.mem_some_iff] at hbody
          exact hbody ▸ hwritten
        · rw [Function.update_of_ne hkey] at hbody
          exact hf body hbody
      exact ⟨hupdate _ _ hamong.1, hupdate _ _ hamong.2⟩

theorem Among.lookup {tag : String} {contents : List Bytes} {body : Bytes}
    (h : before.Among tag contents) (hbody : before.lookup tag = some body) : body ∈ contents := by
  unfold Registry.lookup at hbody
  cases htag : before.tags tag with
  | none => exact h.2 body (by simpa [htag] using hbody)
  | some content => exact h.1 body (by simpa [htag] using hbody)

end Registry

/-- A text that was served is one of the contents. -/
theorem asBytes_mem_contents {applied : StatusCode → Bool} {tag text : String}
    {contents : List Bytes} {response : Response} (hamong : before.Among tag contents)
    (hstep : Registry.Step X.toCrates applied before (.getManifest tag, .ok response) after)
    (hserves : ManifestClient.Serves response text) : Str.asBytes text ∈ contents := by
  obtain ⟨hstatus, chunks, hchunks, htext⟩ := hserves
  simp only [Registry.Step, hstatus, show isSuccess 200 = true from rfl, if_true,
    Registry.Performs] at hstep
  obtain ⟨_, body, hlookup, chunks', hchunks', rfl⟩ := hstep
  have heq : chunks = chunks' :=
    List.map_injective_iff.mpr (fun _ _ h => Except.ok.inj h) (hchunks.symm.trans hchunks')
  rw [← htext, heq]
  exact hamong.lookup hlookup

theorem served_mem_tagContents {applied : StatusCode → Bool} {tag text : String}
    {response : Response} (hfollows : Follows (Registry.Step X.toCrates applied) before trace after)
    (hmem : (Request.getManifest tag, Except.ok response) ∈ trace)
    (hserves : ManifestClient.Serves response text) :
    Str.asBytes text ∈ tagContents before tag trace := by
  have hamong := hfollows.strengthen (Registry.among_tagContents tag trace) <| by
    intro s event s' hevent hstep hs
    refine hs.step hstep fun put hput => ?_
    simp [tagContents, mem_putBodies hevent hput]
  obtain ⟨s, s', hstep, hs⟩ := hamong.exists_step hmem
  exact asBytes_mem_contents hs hstep hserves

/-- A condition that holds again means that the content is the one it was made for. -/
theorem tags_eq_of_meets {tag text : String} {contents : List Bytes}
    (hfree : CollisionFree X.sha256 contents) (hamong : before.Among tag contents)
    (htext : Str.asBytes text ∈ contents)
    (hmeets : before.meets X.toCrates tag (.matching (ManifestClient.textDigest X text)) = true) :
    before.tags tag = some (Str.asBytes text) := by
  simp only [Registry.meets] at hmeets
  cases hbody : before.tags tag with
  | none => simp [hbody] at hmeets
  | some body =>
      simp only [hbody, Option.any_some, decide_eq_true_eq] at hmeets
      have hdigest : X.sha256 body = X.sha256 (Str.asBytes text) := formatDigest_injective hmeets
      rw [hfree body (hamong.1 body hbody) _ htext hdigest]

/-! ## Clients -/

section Clients

variable {n : Nat} {events : List (Fin n × (Request × Reply))} {tag : String}

/-- The exchanges of one client. -/
def clientTrace (events : List (Fin n × (Request × Reply))) (i : Fin n) : Trace Request Reply :=
  (events.filter fun event => event.1 = i).map Prod.snd

theorem mem_clientTrace {i : Fin n} {event : Request × Reply} :
    event ∈ clientTrace events i ↔ (i, event) ∈ events := by
  simp [clientTrace]

def isCommit (tag : String) (event : Request × Reply) : Bool := isPut tag event && isDone event

theorem isEffective_of_isCommit {event : Request × Reply} (h : isCommit tag event = true) :
    isEffective event = true := by
  obtain ⟨request, reply⟩ := event
  cases request with
  | putManifest reference contentType condition body =>
      cases reply with
      | error error => simp [isCommit, isDone] at h
      | ok response =>
          simp only [isEffective, unauthorized, Bool.not_eq_true', decide_eq_false_iff_not]
          intro h401
          simp [isCommit, isDone, ManifestClient.isPutSuccess, h401] at h
  | _ => simp [isCommit, isPut] at h

/-- A reported success is a PUT that was carried out. -/
theorem isSuccess_of_isPutSuccess {status : StatusCode}
    (h : ManifestClient.isPutSuccess status = true) : isSuccess status = true := by
  simp only [ManifestClient.isPutSuccess, decide_eq_true_eq] at h
  rcases h with rfl | rfl | rfl <;> rfl

/-- Any other exchange leaves the tag alone. -/
theorem tags_of_not_isCommit {event : Request × Reply}
    (hstep : Registry.Step X.toCrates ManifestClient.isPutSuccess before event after)
    (hcommit : isCommit tag event = false) : after.tags tag = before.tags tag := by
  cases hput : putOf event with
  | none => rw [Registry.tags_of_step hstep hput]
  | some put =>
      obtain ⟨target, body⟩ := put
      obtain ⟨contentType, condition, response, rfl, happlied, _, rfl⟩ :=
        Registry.step_of_putOf hstep hput
      have htarget : tag ≠ target := by
        rintro rfl
        simp [isCommit, isPut, isDone, happlied] at hcommit
      simp [Registry.putManifest, Function.update_of_ne htarget]

theorem commits_eq_filter (tag : String) (trace : Trace Request Reply) :
    commits tag trace = trace.filter (isCommit tag) := by
  unfold commits puts effective
  rw [List.filter_filter, List.filter_filter]
  apply List.filter_congr
  intro event _
  cases hcommit : isCommit tag event with
  | true => simpa [isCommit, isEffective_of_isCommit hcommit, Bool.and_comm] using hcommit
  | false =>
      have hnot : (isDone event && isPut tag event) = false := by
        rw [Bool.and_comm]
        exact hcommit
      rw [hnot, Bool.false_and]

/-- The commits of a run, in order, with the application each client published. -/
def committed {α : Type} (tag : String) (application : Fin n → Option (Application α))
    (events : List (Fin n × (Request × Reply))) : List (Fin n × Application α) :=
  events.filterMap fun event =>
    if isCommit tag event.2 then (application event.1).map fun a => (event.1, a) else none

section Serial

variable {α : Type} {read : Fin n → Exchange (Option α × ManifestCasCondition)}
  {Encodes : Fin n → Nat → α → Bytes → Prop} {mutator : Fin n → Mutator α}
  {application : Fin n → Option (Application α)}

/-- What a run of each client did to the tag. -/
def Published (tag : String) (read : Fin n → Exchange (Option α × ManifestCasCondition))
    (Encodes : Fin n → Nat → α → Bytes → Prop) (mutator : Fin n → Mutator α)
    (application : Fin n → Option (Application α))
    (events : List (Fin n × (Request × Reply))) : Prop :=
  ∀ i, match application i with
    | some a => IndexClient.Committed tag (read i) (Encodes i) (mutator i) (clientTrace events i) a
    | none => commits tag (clientTrace events i) = []

variable (hpublished : Published tag read Encodes mutator application events)

include hpublished

/-- Only a client with a published application commits, and it commits once. -/
theorem Published.event_eq {i : Fin n} {event : Request × Reply} (hmem : (i, event) ∈ events)
    (hcommit : isCommit tag event = true) :
    ∃ a, application i = some a ∧
      IndexClient.Committed tag (read i) (Encodes i) (mutator i) (clientTrace events i) a ∧
      commits tag (clientTrace events i) = [event] := by
  have hin : event ∈ commits tag (clientTrace events i) := by
    rw [commits_eq_filter]
    exact List.mem_filter.mpr ⟨mem_clientTrace.mpr hmem, hcommit⟩
  have hi := hpublished i
  cases happlication : application i with
  | none =>
      rw [happlication] at hi
      rw [hi] at hin
      cases hin
  | some a =>
      rw [happlication] at hi
      refine ⟨a, rfl, hi, ?_⟩
      obtain ⟨_, _, _, _, _, _, _, _, _, hsingle⟩ := hi
      rw [hsingle] at hin ⊢
      rw [List.mem_singleton.mp hin]

theorem Published.mem_committed {i : Fin n} {a : Application α} :
    (i, a) ∈ committed tag application events ↔ application i = some a := by
  constructor
  · intro h
    obtain ⟨⟨j, event⟩, _, hsome⟩ := List.mem_filterMap.mp h
    split at hsome
    · obtain ⟨b, hb, hpair⟩ := Option.map_eq_some_iff.mp hsome
      cases hpair
      exact hb
    · cases hsome
  · intro h
    have hi := hpublished i
    rw [h] at hi
    obtain ⟨_, _, _, _, _, _, _, _, _, hsingle⟩ := hi
    have hin := (hsingle ▸ List.mem_singleton_self _ : _ ∈ commits tag (clientTrace events i))
    rw [commits_eq_filter, List.mem_filter] at hin
    exact List.mem_filterMap.mpr ⟨(i, _), mem_clientTrace.mp hin.1, by simp [hin.2, h]⟩

theorem Published.nodup_committed : ((committed tag application events).map Prod.fst).Nodup := by
  -- a client's place in the list is one of its commits
  have hmap : (committed tag application events).map Prod.fst =
      (events.filter fun event => isCommit tag event.2).map Prod.fst := by
    unfold committed
    rw [List.map_filterMap, ← List.filterMap_eq_map, List.filterMap_filter]
    apply List.filterMap_congr
    rintro ⟨i, event⟩ hmem
    by_cases hcommit : isCommit tag event = true
    · obtain ⟨a, ha, _⟩ := hpublished.event_eq hmem hcommit
      simp [hcommit, ha]
    · simp [hcommit]
  rw [hmap, List.nodup_iff_count_le_one]
  intro i
  have hcount : ((events.filter fun event => isCommit tag event.2).map Prod.fst).count i =
      (commits tag (clientTrace events i)).length := by
    rw [commits_eq_filter, clientTrace, List.filter_map, List.length_map, List.count_eq_countP,
      List.countP_map, List.countP_eq_length_filter, List.filter_filter, List.filter_filter]
    congr 1
    apply List.filter_congr
    intro event _
    simp [Bool.and_comm, beq_eq_decide]
  rw [hcount]
  have hi := hpublished i
  cases happlication : application i with
  | none =>
      rw [happlication] at hi
      simp [hi]
  | some a =>
      rw [happlication] at hi
      obtain ⟨_, _, _, _, _, _, _, _, _, hsingle⟩ := hi
      simp [hsingle]

/-- The commits are a serial history of the tag, when each reading still holds wherever the condition
that came with it does. -/
theorem Published.serial
    (hfollows : Follows (Registry.Step X.toCrates ManifestClient.isPutSuccess) before
      (events.map Prod.snd) after)
    {Reads : Fin n → Option Bytes → Option α → Prop}
    (hreads : ∀ i reading argument condition s, reading.Sublist (clientTrace events i) →
      (read i).Runs reading (.ok (argument, condition)) →
      Registry.meets X.toCrates s tag condition = true →
      s.Among tag (tagContents before tag (events.map Prod.snd)) →
      Reads i (s.tags tag) argument) :
    Serial
      (fun commit content next => Reads commit.1 content commit.2.argument ∧
        mutator commit.1 commit.2.history commit.2.argument = .ok commit.2.result ∧
        Encodes commit.1 commit.2.history.length commit.2.result next)
      (before.tags tag) (committed tag application events) (after.tags tag) := by
  have htagged := Program.follows_map.mp hfollows
  have hamong := htagged.strengthen (Registry.among_tagContents tag (events.map Prod.snd)) <| by
    intro s event s' hmem hstep hs
    refine hs.step hstep fun put hput => ?_
    have hin : event.2 ∈ events.map Prod.snd := List.mem_map_of_mem hmem
    simp [tagContents, mem_putBodies hin hput]
  refine Serial.of_follows (fun s => s.tags tag) _ hamong ?_
  rintro s ⟨i, event⟩ s' hmem ⟨hstep, hs⟩
  by_cases hcommit : isCommit tag event = true
  · obtain ⟨a, ha, hdone, hsingle⟩ := hpublished.event_eq hmem hcommit
    simp only [hcommit, if_true, ha, Option.map_some]
    obtain ⟨hmutator, reading, condition, contentType, body, response, hsub, hread, hbody, heq⟩ :=
      hdone
    rw [hsingle, List.cons.injEq] at heq
    obtain ⟨rfl, _⟩ := heq
    have hsuccess : isSuccess response.status = true := by
      apply isSuccess_of_isPutSuccess
      simpa [isCommit, isPut, isDone] using hcommit
    obtain ⟨_, hmeets, rfl⟩ : Registry.Performs X.toCrates ManifestClient.isPutSuccess s response
        (.putManifest tag contentType (some condition) body) s' := by
      simpa only [Registry.Step, hsuccess, if_true] using hstep
    refine ⟨body, ⟨?_, hmutator, hbody⟩, by simp [Registry.putManifest]⟩
    exact hreads i reading a.argument condition s hsub hread (hmeets condition rfl) hs
  · simp only [hcommit]
    exact tags_of_not_isCommit hstep (by simpa using hcommit)

end Serial

end Clients

namespace IndexClient

variable {client : OciClient} {tag : String}

/-! ## Updates of an image index -/

/-- The image index in the content of a tag. -/
def indexIn (X : OciCrates) (content : Option Bytes) : Option OciImageIndex :=
  match content.map (IndexCodec.decodeJson X OciArtifactManifest.fromJson) with
  | some (.ok artifact) => artifact.asIndex
  | _ => none

theorem runs_readForUpdate_ok {argument : Option OciImageIndex} {condition : ManifestCasCondition}
    (h : (readForUpdate X client tag).Runs trace (.ok (argument, condition))) :
    (condition = .createOnly ∧ argument = none) ∨
      ∃ text response, condition = .matching (ManifestClient.textDigest X text) ∧
        (Request.getManifest tag, Except.ok response) ∈ trace ∧
        ManifestClient.Serves response text ∧ argument = indexIn X (some (Str.asBytes text)) := by
  unfold readForUpdate at h
  obtain ⟨fetched, after, found, rfl, hfetch, h⟩ := Action.runs_bind_ok.mp h
  cases found with
  | none =>
      obtain ⟨_, hpair⟩ := h
      cases hpair
      exact Or.inl ⟨rfl, rfl⟩
  | some artifact =>
      obtain ⟨rfl, hpair⟩ := h
      cases hpair
      obtain ⟨text, hdigest, hparse, _, response, heffective, hserves⟩ :=
        ManifestClient.runs_fetchArtifact_some hfetch
      refine Or.inr ⟨text, response, by rw [hdigest], ?_, hserves, ?_⟩
      · simpa using mem_of_effective_eq heffective
      · rw [ManifestClient.parseJson] at hparse
        simp [indexIn, hparse]

/-- The argument of the mutator is what the tag holds when the condition is met. -/
theorem reads_index {argument : Option OciImageIndex} {condition : ManifestCasCondition}
    {contents : List Bytes} (hfree : CollisionFree X.sha256 contents)
    (hserved : ∀ text response, (Request.getManifest tag, Except.ok response) ∈ trace →
      ManifestClient.Serves response text → Str.asBytes text ∈ contents)
    (h : (readForUpdate X client tag).Runs trace (.ok (argument, condition)))
    (hmeets : before.meets X.toCrates tag condition = true) (hamong : before.Among tag contents) :
    argument = indexIn X (before.tags tag) := by
  obtain ⟨rfl, rfl⟩ | ⟨text, response, rfl, hmem, hserves, rfl⟩ := runs_readForUpdate_ok h
  · simp only [Registry.meets, Option.isNone_iff_eq_none] at hmeets
    rw [hmeets]
    rfl
  · rw [tags_eq_of_meets hfree hamong (hserved text response hmem hserves) hmeets]

/-! ## Updates of a root -/

theorem archTag_archTag (tag : String) (system : SystemArch) :
    archTag (archTag tag system) system = archTag tag system := by
  have hends : Str.endsWith (archTag tag system) system.asStr = true := by
    unfold archTag
    split
    · assumption
    · rw [Str.endsWith, List.isSuffixOf_iff_suffix]
      exact ⟨tag.toList ++ ['-'], by simp⟩
  rw [archTag, if_pos hends]

/-- The root that the content of a tag leads to, by way of a blob with the digest it names. -/
def RootIn (X : OciCrates) (client : OciClient) (system : SystemArch) (tag : String)
    (content : Option Bytes) : Option ShardedArchCacheIndexData → Prop
  | none => content = none
  | some root => ∃ body manifest blob, content = some body ∧
      IndexCodec.decodeJson X OciImageManifest.fromJson body = .ok manifest ∧
      IsRootOf X client system tag manifest blob root

theorem runs_readRootForUpdate_ok {system : SystemArch}
    {argument : Option ShardedArchCacheIndexData} {condition : ManifestCasCondition}
    (h : (readRootForUpdate X client (archTag tag system) system).Runs trace
      (.ok (argument, condition))) :
    (condition = .createOnly ∧ argument = none) ∨
      ∃ text response, condition = .matching (ManifestClient.textDigest X text) ∧
        (Request.getManifest (archTag tag system), Except.ok response) ∈ trace ∧
        ManifestClient.Serves response text ∧
        (RootIn X client system (archTag tag system) (some (Str.asBytes text)) argument ∨
          ∃ absent index, (Request.getManifest (archTag tag system), Except.ok absent) ∈ trace ∧
            absent.status = 404 ∧
            IndexCodec.decodeJson X OciArtifactManifest.fromJson (Str.asBytes text) =
              .ok (.index index)) := by
  unfold readRootForUpdate at h
  obtain ⟨fetched, after, found, rfl, hfetch, h⟩ := Action.runs_bind_ok.mp h
  match found, hfetch, h with
  | none, _, h =>
      obtain ⟨_, hpair⟩ := h
      cases hpair
      exact Or.inl ⟨rfl, rfl⟩
  | some (root, digest), hfetch, h =>
      obtain ⟨rfl, hpair⟩ := h
      cases hpair
      right
      unfold getShardedRoot at hfetch
      rw [archTag_archTag] at hfetch
      obtain ⟨first, rest, image, rfl, himage, hfetch⟩ := Action.runs_bind_ok.mp hfetch
      match image, himage, hfetch with
      | some (manifest, subDigest), himage, hfetch =>
          obtain ⟨text, rfl, hparse, response, heffective, hserves⟩ :=
            runs_getImageManifest_some himage
          obtain ⟨_, _, _, rfl, hdecode, _, hpair⟩ := Action.runs_bind_ok.mp hfetch
          cases hpair
          obtain ⟨blob, hroot⟩ := runs_decodeRootManifest_ok hdecode
          refine ⟨text, response, rfl, by simp [mem_of_effective_eq heffective], hserves, Or.inl ?_⟩
          exact ⟨_, manifest, blob, rfl, hparse, hroot⟩
      | none, himage, hfetch =>
          -- the tag was found absent, and is read once more
          obtain ⟨absent, habsent, hstatus⟩ := runs_getImageManifest_none himage
          unfold getShardedRootFallback at hfetch
          obtain ⟨second, last, artifact, rfl, hartifact, hfetch⟩ := Action.runs_bind_ok.mp hfetch
          match artifact, hartifact, hfetch with
          | none, _, hfetch => simp at hfetch
          | some ⟨.manifest manifest, subDigest⟩, hartifact, hfetch =>
              obtain ⟨text, hdigest, hparse, _, response, heffective, hserves⟩ :=
                ManifestClient.runs_fetchArtifact_some hartifact
              obtain ⟨_, _, _, rfl, hdecode, _, hpair⟩ := Action.runs_bind_ok.mp hfetch
              cases hpair
              obtain ⟨blob, hroot⟩ := runs_decodeRootManifest_ok hdecode
              refine ⟨text, response, by rw [← hdigest], by simp [mem_of_effective_eq heffective],
                hserves, Or.inl ⟨_, manifest, blob, rfl, ?_, hroot⟩⟩
              obtain ⟨document, hdocument, hvalue⟩ := IndexCodec.decodeJson_eq_ok.mp hparse
              exact IndexCodec.decodeJson_eq_ok.mpr
                ⟨document, hdocument, OciArtifactManifest.fromJson_eq_manifest hvalue⟩
          | some ⟨.index index, subDigest⟩, hartifact, hfetch =>
              obtain ⟨text, hdigest, hparse, _, response, heffective, hserves⟩ :=
                ManifestClient.runs_fetchArtifact_some hartifact
              obtain ⟨_, _, found, rfl, _, _, hpair⟩ := Action.runs_bind_ok.mp hfetch
              cases found with
              | none => simp at hpair
              | some root =>
                  cases hpair
                  refine ⟨text, response, by rw [← hdigest],
                    by simp [mem_of_effective_eq heffective], hserves,
                    Or.inr ⟨absent, index, by simp [mem_of_effective_eq habsent], hstatus, hparse⟩⟩

/-- The argument of the mutator is the root that the tag leads to when the condition is met. -/
theorem reads_root {system : SystemArch} {argument : Option ShardedArchCacheIndexData}
    {condition : ManifestCasCondition} {contents : List Bytes}
    (hfree : CollisionFree X.sha256 contents)
    (hserved : ∀ text response,
      (Request.getManifest (archTag tag system), Except.ok response) ∈ trace →
      ManifestClient.Serves response text → Str.asBytes text ∈ contents)
    (hkind : ∀ absent index body,
      (Request.getManifest (archTag tag system), Except.ok absent) ∈ trace → absent.status = 404 →
      body ∈ contents →
      IndexCodec.decodeJson X OciArtifactManifest.fromJson body ≠ .ok (.index index))
    (h : (readRootForUpdate X client (archTag tag system) system).Runs trace
      (.ok (argument, condition)))
    (hmeets : before.meets X.toCrates (archTag tag system) condition = true)
    (hamong : before.Among (archTag tag system) contents) :
    RootIn X client system (archTag tag system) (before.tags (archTag tag system)) argument := by
  obtain ⟨rfl, rfl⟩ | ⟨text, response, rfl, hmem, hserves, hroot⟩ := runs_readRootForUpdate_ok h
  · exact Option.isNone_iff_eq_none.mp hmeets
  · have htext := hserved text response hmem hserves
    rw [tags_eq_of_meets hfree hamong htext hmeets]
    rcases hroot with hroot | ⟨absent, index, habsent, hstatus, hindex⟩
    · exact hroot
    · exact absurd hindex (hkind absent index _ habsent hstatus htext)

/-! ## Any number of clients -/

section Clients

variable {n : Nat} {clients : Fin n → OciClient} {retries : Fin n → Nat}
  {events : List (Fin n × (Request × Reply))}

/-- The published application of a run. -/
def applicationOf {α β : Type} : Except OciError (β × Application α) → Option (Application α)
  | .ok (_, application) => some application
  | .error _ => none

theorem applicationOf_isSome {α β : Type} {applied : Except OciError (β × Application α)} :
    (∃ application, applicationOf applied = some application) ↔ ∃ value, applied = .ok value := by
  cases applied with
  | ok value => simp [applicationOf]
  | error error => simp [applicationOf]

/-- What concurrent updates of a tag amount to.  `history`: the commits, one of each client that
succeeded, are a serial history of the tag, in which each mutator was given what `Reads` finds in
the content that it replaced.  `failed`: no exchange of any other client changed what `Same`
compares.  `bounded`: the PUTs of a client that reached the check of the condition. -/
structure Serializes {α : Type} (X : OciCrates) (applied : StatusCode → Bool) (tag : String) (retries : Fin n → Nat)
    (mutator : Fin n → Mutator α) (Succeeded : Fin n → Prop)
    (Reads : Fin n → Option Bytes → Option α → Prop) (Encodes : Fin n → Nat → α → Bytes → Prop)
    (Same : Registry → Registry → Prop) (before : Registry)
    (events : List (Fin n × (Request × Reply))) (after : Registry) : Prop where
  history : ∃ commits : List (Fin n × Application α), (commits.map Prod.fst).Nodup ∧
    (∀ i, i ∈ commits.map Prod.fst ↔ Succeeded i) ∧
    Serial
      (fun commit content next => Reads commit.1 content commit.2.argument ∧
        mutator commit.1 commit.2.history commit.2.argument = .ok commit.2.result ∧
        Encodes commit.1 commit.2.history.length commit.2.result next)
      (before.tags tag) commits (after.tags tag)
  failed : ∀ i, ¬ Succeeded i → ∀ event ∈ clientTrace events i, ∀ s s',
    Registry.Step X.toCrates applied s event s' → Same s s'
  bounded : ∀ i, (puts tag (clientTrace events i)).length ≤ retries i + 1

/-- An exchange of an update that is not a commit carried no PUT out. -/
theorem putOf_of_not_isCommit {tag : String} {Q : Request → Prop} {event : Request × Reply}
    (hupdate : IsUpdate tag Q event.1) (hcommit : isCommit tag event = false)
    (hstep : Registry.Step X.toCrates ManifestClient.isPutSuccess before event after) :
    putOf event = none := by
  cases hput : putOf event with
  | none => rfl
  | some put =>
      obtain ⟨_, _, response, rfl, happlied, _⟩ := Registry.step_of_putOf hstep hput
      have htag : put.1 = tag := hupdate
      simp [isCommit, isPut, isDone, happlied, htag] at hcommit

theorem eq_of_read_or_refused {tag : String} {event : Request × Reply}
    (hupdate : IsUpdate tag Request.IsRead event.1) (hput : putOf event = none)
    (hstep : Registry.Step X.toCrates ManifestClient.isPutSuccess before event after) :
    after = before := by
  obtain ⟨request, reply⟩ := event
  cases reply with
  | error error => exact hstep
  | ok response =>
      by_cases hsuccess : isSuccess response.status = true
      · simp only [Registry.Step, hsuccess, if_true] at hstep
        cases request with
        | putManifest reference contentType condition body => simp [putOf, hsuccess] at hput
        | getManifest reference | getBlob digest => exact hstep.1
        | refreshToken challenge => exact hstep
        | _ => exact hupdate.elim
      · simp only [Registry.Step, hsuccess] at hstep
        exact hstep.1

section Generic

variable {α β : Type} {tag : String} {Q : Request → Prop} {mutator : Fin n → Mutator α}
  {applied : Fin n → Except OciError (β × Application α)}
  {read : Fin n → Exchange (Option α × ManifestCasCondition)}
  {Encodes : Fin n → Nat → α → Bytes → Prop} {Reads : Fin n → Option Bytes → Option α → Prop}
  {Same : Registry → Registry → Prop}

theorem published_of_outcomes
    (houtcome : ∀ i, Outcome tag (read i) (Encodes i) (mutator i) (clientTrace events i) (applied i)) :
    Published tag read Encodes mutator (fun i => applicationOf (applied i)) events := by
  intro i
  have hi := houtcome i
  dsimp only
  cases happlied : applied i with
  | ok value =>
      rw [happlied] at hi
      exact hi
  | error error =>
      rw [happlied] at hi
      exact hi

/-- What was written during a run was written by a commit. -/
theorem commit_of_mem_putBodies
    (hfollows : Follows (Registry.Step X.toCrates ManifestClient.isPutSuccess) before
      (events.map Prod.snd) after)
    (hrequests : ∀ i, ∀ event ∈ clientTrace events i, IsUpdate tag Q event.1) {body : Bytes}
    (hbody : body ∈ putBodies (events.map Prod.snd)) :
    ∃ i contentType condition response target,
      (i, (Request.putManifest target contentType condition body, Except.ok response)) ∈ events ∧
      isCommit tag (Request.putManifest target contentType condition body, Except.ok response) =
        true := by
  obtain ⟨event, hevent, hmap⟩ := List.mem_filterMap.mp hbody
  obtain ⟨⟨target, written⟩, hput, hwritten⟩ := Option.map_eq_some_iff.mp hmap
  obtain ⟨s, s', hstep⟩ := hfollows.exists_step hevent
  obtain ⟨⟨i, event'⟩, hin, hsnd⟩ := List.mem_map.mp hevent
  obtain rfl : event' = event := hsnd
  obtain rfl : written = body := hwritten
  have hcommit : isCommit tag event' = true := by
    by_contra hnot
    have hnone := putOf_of_not_isCommit (hrequests i _ (mem_clientTrace.mpr hin))
      (by simpa using hnot) hstep
    rw [hnone] at hput
    cases hput
  obtain ⟨contentType, condition, response, rfl, _⟩ := Registry.step_of_putOf hstep hput
  exact ⟨i, contentType, condition, response, target, hin, hcommit⟩

/-- What was written during a run is what some client encoded. -/
theorem encodes_of_mem_putBodies
    (hpublished : Published tag read Encodes mutator (fun i => applicationOf (applied i)) events)
    (hfollows : Follows (Registry.Step X.toCrates ManifestClient.isPutSuccess) before
      (events.map Prod.snd) after)
    (hrequests : ∀ i, ∀ event ∈ clientTrace events i, IsUpdate tag Q event.1) {body : Bytes}
    (hbody : body ∈ putBodies (events.map Prod.snd)) :
    ∃ i attempt value, Encodes i attempt value body := by
  obtain ⟨i, _, _, _, _, hin, hcommit⟩ := commit_of_mem_putBodies hfollows hrequests hbody
  obtain ⟨a, _, ⟨_, _, _, _, body', _, _, _, hencodes, hsingle⟩, hevents⟩ :=
    hpublished.event_eq hin hcommit
  rw [hevents, List.cons.injEq] at hsingle
  cases hsingle.1
  exact ⟨i, _, _, hencodes⟩

/-- The rule that both updates use. -/
theorem Serializes.of_outcomes {Succeeded : Fin n → Prop}
    (hsucceeded : ∀ i, Succeeded i ↔ ∃ value, applied i = .ok value)
    (houtcome : ∀ i, (puts tag (clientTrace events i)).length ≤ retries i + 1 ∧
      Outcome tag (read i) (Encodes i) (mutator i) (clientTrace events i) (applied i))
    (hfollows : Follows (Registry.Step X.toCrates ManifestClient.isPutSuccess) before
      (events.map Prod.snd) after)
    (hrequests : ∀ i, ∀ event ∈ clientTrace events i, IsUpdate tag Q event.1)
    (hsame : ∀ event s s', IsUpdate tag Q event.1 → putOf event = none →
      Registry.Step X.toCrates ManifestClient.isPutSuccess s event s' → Same s s')
    (hreads : ∀ i reading argument condition s, reading.Sublist (clientTrace events i) →
      (read i).Runs reading (.ok (argument, condition)) →
      Registry.meets X.toCrates s tag condition = true →
      s.Among tag (tagContents before tag (events.map Prod.snd)) →
      Reads i (s.tags tag) argument) :
    Serializes X ManifestClient.isPutSuccess tag retries mutator Succeeded Reads Encodes Same before events after := by
  have hpublished := published_of_outcomes fun i => (houtcome i).2
  constructor
  · refine ⟨_, hpublished.nodup_committed, fun i => ?_, hpublished.serial hfollows hreads⟩
    rw [hsucceeded, ← applicationOf_isSome]
    simp only [List.mem_map, Prod.exists, exists_and_right, exists_eq_right,
      hpublished.mem_committed]
  · intro i hfailed event hevent s s' hstep
    refine hsame event s s' (hrequests i event hevent) ?_ hstep
    apply putOf_of_not_isCommit (hrequests i event hevent) _ hstep
    by_contra hcommit
    obtain ⟨a, ha, _⟩ := hpublished.event_eq (mem_clientTrace.mp hevent)
      (by simpa using hcommit)
    exact hfailed ((hsucceeded i).mpr (applicationOf_isSome.mp ⟨a, ha⟩))
  · exact fun i => (houtcome i).1

end Generic

/-- Updates of an image index: a client that failed changed nothing. -/
abbrev SerializesIndex (X : OciCrates) (applied : StatusCode → Bool) (tag : String)
    (retries : Fin n → Nat) (mutator : Fin n → Mutator OciImageIndex)
    (results : Fin n → Except OciError Unit) (before : Registry)
    (events : List (Fin n × (Request × Reply))) (after : Registry) : Prop :=
  Serializes X applied tag retries mutator (fun i => results i = .ok ())
    (fun _ content argument => argument = indexIn X content)
    (fun _ _ index body => body = IndexCodec.toVec X index.toJson) (fun s s' => s' = s)
    before events after

/-- Updates of a root: a client that failed changed no tag; blobs that it uploaded may stay. -/
abbrev SerializesRoot (X : OciCrates) (applied : StatusCode → Bool) (clients : Fin n → OciClient)
    (tag : String) (system : SystemArch) (clock : Fin n → Nat → String) (retries : Fin n → Nat)
    (mutator : Fin n → Mutator ShardedArchCacheIndexData)
    (results : Fin n → Except OciError String) (before : Registry)
    (events : List (Fin n × (Request × Reply))) (after : Registry) : Prop :=
  Serializes X applied (archTag tag system) retries mutator
    (fun i => ∃ digest, results i = .ok digest)
    (fun i => RootIn X (clients i) system (archTag tag system))
    (fun i attempt root body => EncodesRoot X (clock i attempt) root body)
    (fun s s' => s'.tags = s.tags ∧ s'.manifests = s.manifests) before events after

theorem updateCas_serializes {tag : String} {mutator : Fin n → Mutator OciImageIndex}
    {results : Fin n → Except OciError Unit}
    (hfollows : Follows (Registry.Step X.toCrates ManifestClient.isPutSuccess) before
      (events.map Prod.snd) after)
    (hruns : ∀ i, (updateCas X (clients i) tag (retries i) (mutator i)).Runs
      (clientTrace events i) (results i))
    (hfree : CollisionFree X.sha256 (tagContents before tag (events.map Prod.snd))) :
    SerializesIndex X ManifestClient.isPutSuccess tag retries mutator results before events after := by
  choose applied happlied hresult using fun i => runs_updateCas (hruns i)
  refine Serializes.of_outcomes hresult (fun i => runs_updateCasApplied (happlied i)) hfollows
    (fun i => only_updateCasApplied.forall_mem (happlied i))
    (fun event s s' hupdate hput hstep => eq_of_read_or_refused hupdate hput hstep) ?_
  intro i reading argument condition s hsub hread hmeets hamong
  refine reads_index hfree ?_ hread hmeets hamong
  intro text response hmem hserves
  have hevent := mem_clientTrace.mp (hsub.subset hmem)
  exact served_mem_tagContents hfollows (List.mem_map_of_mem hevent) hserves

theorem updateShardedCas_serializes {tag : String} {system : SystemArch}
    {clock : Fin n → Nat → String} {mutator : Fin n → Mutator ShardedArchCacheIndexData}
    {results : Fin n → Except OciError String}
    (hfollows : Follows (Registry.Step X.toCrates ManifestClient.isPutSuccess) before
      (events.map Prod.snd) after)
    (hruns : ∀ i, (updateShardedCas X (clients i) (clock i) tag system (retries i) (mutator i)).Runs
      (clientTrace events i) (results i))
    (hfree : CollisionFree X.sha256
      (tagContents before (archTag tag system) (events.map Prod.snd)))
    (hjson : ∀ manifest : OciImageManifest, ReadsBack X manifest.toJson) :
    SerializesRoot X ManifestClient.isPutSuccess clients tag system clock retries mutator results
      before events after := by
  choose applied happlied hresult using fun i => runs_updateShardedCas (hruns i)
  have hrequests := fun i => only_updateShardedCasApplied.forall_mem (happlied i)
  refine Serializes.of_outcomes hresult (fun i => runs_updateShardedCasApplied (happlied i))
    hfollows hrequests
    (fun event s s' _ hput hstep => Registry.manifests_of_step hstep hput) ?_
  intro i reading argument condition s hsub hread hmeets hamong
  have hmem : ∀ event ∈ reading, event ∈ events.map Prod.snd := fun event hevent =>
    List.mem_map_of_mem (mem_clientTrace.mp (hsub.subset hevent))
  refine reads_root hfree ?_ ?_ hread hmeets hamong
  · intro text response hevent hserves
    exact served_mem_tagContents hfollows (hmem _ hevent) hserves
  · -- a tag that was found absent holds nothing but what the clients wrote
    intro absent index body habsent hstatus hbody
    have hnone := Registry.lookup_eq_none_of_notFound hfollows hstatus (hmem _ habsent)
    simp only [Registry.lookup, Option.or_eq_none_iff] at hnone
    simp only [tagContents, hnone, Option.toList_none, List.nil_append] at hbody
    obtain ⟨j, attempt, root, blob, _, rfl⟩ := encodes_of_mem_putBodies
      (published_of_outcomes fun i => (runs_updateShardedCasApplied (happlied i)).2) hfollows
      hrequests hbody
    rw [rootManifestText, ← IndexCodec.toVec, IndexCodec.decodeJson_toVec (hjson _),
      OciArtifactManifest.fromJson_manifest]
    intro hindex
    cases hindex

/-- Whatever the interleaving, the updates of any number of clients are a serial history. -/
theorem concurrentUpdates_serialize (clients : Fin n → OciClient) (retries : Fin n → Nat)
    (hfollows : Follows (Registry.Step X.toCrates ManifestClient.isPutSuccess) before
      (events.map Prod.snd) after) :
    (∀ (tag : String) (mutator : Fin n → Mutator OciImageIndex)
      (results : Fin n → Except OciError Unit),
      (∀ i, (updateCas X (clients i) tag (retries i) (mutator i)).Runs (clientTrace events i)
        (results i)) →
      CollisionFree X.sha256 (tagContents before tag (events.map Prod.snd)) →
      SerializesIndex X ManifestClient.isPutSuccess tag retries mutator results before events
        after) ∧
    ∀ (tag : String) (system : SystemArch) (clock : Fin n → Nat → String)
      (mutator : Fin n → Mutator ShardedArchCacheIndexData)
      (results : Fin n → Except OciError String),
      (∀ i, (updateShardedCas X (clients i) (clock i) tag system (retries i) (mutator i)).Runs
        (clientTrace events i) (results i)) →
      CollisionFree X.sha256 (tagContents before (archTag tag system) (events.map Prod.snd)) →
      (∀ manifest : OciImageManifest, ReadsBack X manifest.toJson) →
      SerializesRoot X ManifestClient.isPutSuccess clients tag system clock retries mutator results
        before events after :=
  ⟨fun _ _ _ hruns hfree => updateCas_serializes hfollows hruns hfree,
    fun _ _ _ _ _ hruns hfree hjson => updateShardedCas_serializes hfollows hruns hfree hjson⟩

end Clients

/-! ## Two clients and one tag -/

def sampleIndex : OciImageIndex := buildImageIndex "2024-01-01T00:00:00Z" [] "NixCache"

/-- Keeps an index that exists, else makes one without manifests. -/
def keepIndex : Mutator OciImageIndex := fun _ existing => .ok (existing.getD sampleIndex)

def sampleBody : Bytes := IndexCodec.toVec (storingCrates sampleCrates) sampleIndex.toJson

/-- The exchange of a client that found no index, with the status of its PUT. -/
def createIndex (body : Bytes) (status : StatusCode) : Trace Request Reply :=
  [(.getManifest "cache-index", Registry.reply 404 []),
    (.putManifest "cache-index" ociImageIndexMediaType (some .createOnly) body,
      Registry.reply status [])]

theorem runs_updateCas_created :
    (updateCas (storingCrates sampleCrates) sampleClient "cache-index" 0 keepIndex).Runs
      (createIndex sampleBody 201) (.ok ()) :=
  ⟨_, _, rfl, _, _, rfl, rfl, rfl⟩

theorem runs_updateCas_conflict :
    (updateCas (storingCrates sampleCrates) sampleClient "cache-index" 0 keepIndex).Runs
      (createIndex sampleBody 412) (.error (.casPreconditionFailed "cache-index" none none)) :=
  ⟨_, _, rfl, _, _, rfl, rfl, rfl⟩

theorem runs_updateCas_noContent :
    (updateCas (storingCrates sampleCrates) sampleClient "cache-index" 0 keepIndex).Runs
      (createIndex sampleBody 204) (.error (.manifestPushFailed 204)) :=
  ⟨_, _, rfl, _, _, rfl, rfl, rfl⟩

/-- Both clients read before either of them writes, and the second finds the tag taken. -/
def raceEvents (body : Bytes) : List (Fin 2 × (Request × Reply)) :=
  ((createIndex body 201).zip (createIndex body 412)).flatMap fun pair => [(0, pair.1), (1, pair.2)]

def raceResults (i : Fin 2) : Except OciError Unit :=
  if i = 0 then .ok () else .error (.casPreconditionFailed "cache-index" none none)

/-- The registry after the index was created. -/
def createdRegistry (body : Bytes) : Registry :=
  Registry.empty.putManifest sampleCrates "cache-index" body

theorem follows_raceEvents (body : Bytes) :
    Follows (Registry.Step sampleCrates ManifestClient.isPutSuccess) Registry.empty
      ((raceEvents body).map Prod.snd) (createdRegistry body) := by
  refine ⟨Registry.empty, ⟨rfl, fun _ => rfl⟩, Registry.empty, ⟨rfl, fun _ => rfl⟩,
    createdRegistry body, ⟨rfl, ?_, rfl⟩, createdRegistry body, ⟨rfl, trivial⟩, rfl⟩
  intro condition hcondition
  cases hcondition
  rfl

theorem collisionFree_singleton {hash : List UInt8 → DigestBytes} {body : Bytes} :
    CollisionFree hash [body] := by
  intro x hx y hy _
  rw [List.mem_singleton.mp hx, List.mem_singleton.mp hy]

theorem runs_raceEvents (i : Fin 2) :
    (updateCas (storingCrates sampleCrates) sampleClient "cache-index" 0 keepIndex).Runs
      (clientTrace (raceEvents sampleBody) i) (raceResults i) := by
  have hfirst : ∀ body, clientTrace (raceEvents body) 0 = createIndex body 201 := fun _ => rfl
  have hsecond : ∀ body, clientTrace (raceEvents body) 1 = createIndex body 412 := fun _ => rfl
  match i with
  | 0 =>
      rw [hfirst]
      exact runs_updateCas_created
  | 1 =>
      rw [hsecond]
      exact runs_updateCas_conflict

theorem tagContents_raceEvents (body : Bytes) :
    tagContents Registry.empty "cache-index" ((raceEvents body).map Prod.snd) = [body] := rfl

/-- One client writes at most once. -/
theorem collisionFree_of_single {hash : List UInt8 → DigestBytes}
    {events : List (Fin 1 × (Request × Reply))} {tag : String} {system : SystemArch}
    {clock : Nat → String} {retries : Nat} {mutator : Mutator ShardedArchCacheIndexData}
    {results : Fin 1 → Except OciError String}
    (hfollows : Follows (Registry.Step X.toCrates ManifestClient.isPutSuccess) before
      (events.map Prod.snd) after)
    (hruns : ∀ i, (updateShardedCas X client clock tag system retries mutator).Runs
      (clientTrace events i) (results i))
    (habsent : before.lookup (archTag tag system) = none) :
    CollisionFree hash (tagContents before (archTag tag system) (events.map Prod.snd)) := by
  choose applied happlied _ using fun i => runs_updateShardedCas (hruns i)
  have hrequests := fun i => only_updateShardedCasApplied.forall_mem (happlied i)
  have hpublished := published_of_outcomes fun i => (runs_updateShardedCasApplied (happlied i)).2
  simp only [Registry.lookup, Option.or_eq_none_iff] at habsent
  intro x hx y hy _
  simp only [tagContents, habsent, Option.toList_none, List.nil_append] at hx hy
  obtain ⟨i, _, _, _, _, hin, hcommit⟩ := commit_of_mem_putBodies hfollows hrequests hx
  obtain ⟨j, _, _, _, _, hin', hcommit'⟩ := commit_of_mem_putBodies hfollows hrequests hy
  rw [Subsingleton.elim i j] at hin
  obtain ⟨_, _, _, hsingle⟩ := hpublished.event_eq hin hcommit
  obtain ⟨_, _, _, hsingle'⟩ := hpublished.event_eq hin' hcommit'
  rw [hsingle, List.cons.injEq] at hsingle'
  cases hsingle'.1
  rfl

/-- An update of a root that does not exist, against a registry that answers everything. -/
def createRoot : Program.Played Request Reply Registry (Except OciError String) :=
  Action.play (Registry.answer sampleCrates)
    (updateShardedCas (storingCrates sampleCrates) sampleClient (fun _ => "2024-01-01T00:00:00Z")
      "cache-index" .x86_64Linux 0 fun _ _ => .ok (freshRoot sampleCrates .x86_64Linux "owner/repo"
        "cache.azurecr.io" "2024-01-01T00:00:00Z"))
    Registry.empty

def createRootEvents : List (Fin 1 × (Request × Reply)) :=
  createRoot.trace.map fun event => (0, event)

theorem follows_createRootEvents :
    Follows (Registry.Step sampleCrates ManifestClient.isPutSuccess) Registry.empty
      (createRootEvents.map Prod.snd) createRoot.state := by
  have htrace : createRootEvents.map Prod.snd = createRoot.trace := by
    simp [createRootEvents, Function.comp_def]
  rw [htrace]
  exact Program.follows_play (Registry.step_answer (X := storingCrates sampleCrates) rfl) _ _

theorem runs_createRootEvents (i : Fin 1) :
    (updateShardedCas (storingCrates sampleCrates) sampleClient (fun _ => "2024-01-01T00:00:00Z")
      "cache-index" .x86_64Linux 0 fun _ _ => .ok (freshRoot sampleCrates .x86_64Linux "owner/repo"
        "cache.azurecr.io" "2024-01-01T00:00:00Z")).Runs
      (clientTrace createRootEvents i) createRoot.result := by
  have htrace : clientTrace createRootEvents i = createRoot.trace := by
    rw [Subsingleton.elim i 0]
    simp [clientTrace, createRootEvents, List.filter_map, Function.comp_def]
  rw [htrace]
  exact Action.runs_play _ _ _

theorem concurrentUpdates_serialize_race :
    SerializesIndex (storingCrates sampleCrates) ManifestClient.isPutSuccess "cache-index"
        (fun _ => 0) (fun _ => keepIndex) raceResults Registry.empty (raceEvents sampleBody)
        (createdRegistry sampleBody) ∧
      SerializesRoot (storingCrates sampleCrates) ManifestClient.isPutSuccess
        (fun _ : Fin 1 => sampleClient) "cache-index" .x86_64Linux
        (fun _ _ => "2024-01-01T00:00:00Z") (fun _ => 0)
        (fun _ _ _ => .ok (freshRoot sampleCrates .x86_64Linux "owner/repo" "cache.azurecr.io"
          "2024-01-01T00:00:00Z"))
        (fun _ => createRoot.result) Registry.empty createRootEvents createRoot.state := by
  constructor
  · refine (concurrentUpdates_serialize (X := storingCrates sampleCrates) (fun _ => sampleClient)
      (fun _ => 0) (follows_raceEvents sampleBody)).1 "cache-index" _ _ runs_raceEvents ?_
    rw [tagContents_raceEvents]
    exact collisionFree_singleton
  · exact (concurrentUpdates_serialize (X := storingCrates sampleCrates) (fun _ => sampleClient)
      (fun _ => 0) follows_createRootEvents).2 "cache-index" .x86_64Linux _ _ _ runs_createRootEvents
      (collisionFree_of_single (X := storingCrates sampleCrates) follows_createRootEvents
        runs_createRootEvents rfl)
      fun manifest => readsBack_of_isPlain manifest.isPlain_toJson

/-- The only client, and a registry that carries its PUT out and says so with 204. -/
def noContentEvents (body : Bytes) : List (Fin 1 × (Request × Reply)) :=
  (createIndex body 204).map fun event => (0, event)

theorem follows_noContentEvents (body : Bytes) :
    Follows (Registry.Step sampleCrates isSuccess) Registry.empty
      ((noContentEvents body).map Prod.snd) (createdRegistry body) := by
  refine ⟨Registry.empty, ⟨rfl, fun _ => rfl⟩, createdRegistry body, ⟨rfl, ?_, rfl⟩, rfl⟩
  intro condition hcondition
  cases hcondition
  rfl

theorem tagContents_noContentEvents (body : Bytes) :
    tagContents Registry.empty "cache-index" ((noContentEvents body).map Prod.snd) = [body] := rfl

/-- The client does not count 204 as success, so that it returns an error for an update that was
carried out. -/
theorem updateCas_not_serializes_noContent :
    (∀ i, (updateCas (storingCrates sampleCrates) sampleClient "cache-index" 0 keepIndex).Runs
        (clientTrace (noContentEvents sampleBody) i) (.error (.manifestPushFailed 204))) ∧
      Follows (Registry.Step sampleCrates isSuccess) Registry.empty
        ((noContentEvents sampleBody).map Prod.snd) (createdRegistry sampleBody) ∧
      CollisionFree sampleCrates.sha256
        (tagContents Registry.empty "cache-index" ((noContentEvents sampleBody).map Prod.snd)) ∧
      ¬ SerializesIndex (storingCrates sampleCrates) isSuccess "cache-index" (fun _ => 0)
        (fun _ => keepIndex) (fun _ => .error (.manifestPushFailed 204)) Registry.empty
        (noContentEvents sampleBody) (createdRegistry sampleBody) := by
  refine ⟨?_, follows_noContentEvents sampleBody, ?_, ?_⟩
  · intro i
    match i with
    | 0 => exact runs_updateCas_noContent
  · rw [tagContents_noContentEvents]
    exact collisionFree_singleton
  · intro h
    obtain ⟨commits, _, hsucceeded, hserial⟩ := h.history
    have hnone : commits = [] := by
      cases commits with
      | nil => rfl
      | cons commit commits => cases (hsucceeded commit.1).mp (by simp)
    rw [hnone] at hserial
    have htag : (createdRegistry sampleBody).tags "cache-index" = none := hserial
    simp [createdRegistry, Registry.putManifest] at htag

end IndexClient

end NixCache.Oci
