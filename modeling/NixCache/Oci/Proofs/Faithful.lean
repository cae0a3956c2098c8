import NixCache.Core.Proofs.Purge
import NixCache.Oci.Proofs.Sample
import NixCache.Oci.Proofs.Upload
/-!
# What a finished upload sent

How often a chunk is sent, and what the session held when the upload was finished.
-/

namespace NixCache.Oci

open NixCache.Lib NixCache.Lib.Result NixCache.Core NixCache.Lib.Action
open Program (Trace Follows)

variable {X : OciCrates} {client : OciClient} {config : UploadConfig} {session : String → Nat}

/-! ## How often a chunk is sent -/

/-- A PATCH of the chunk whose last byte is at `last`. -/
def isPatchOf (last : Nat) (event : UploadRequest × Reply) : Bool :=
  match event.1 with
  | .patchChunk _ range _ => range.2 = last
  | _ => false

/-- The answer asks for authentication. -/
def isUnauthorized (event : UploadRequest × Reply) : Bool :=
  match event.2 with
  | .ok response => response.status = 401
  | .error _ => false

/-- A PATCH of the chunk that was not answered with a challenge. -/
def isAttemptOf (last : Nat) (event : UploadRequest × Reply) : Bool :=
  isPatchOf last event && !isUnauthorized event

theorem isPatchOf_token {last : Nat} {event : UploadRequest × Reply} (h : IsTokenEvent event) :
    isPatchOf last event = false := by
  obtain ⟨challenge, hrequest⟩ := h
  simp [isPatchOf, hrequest]

/-- The number of PATCH requests that `p` counts in one attempt is at most `bound`. -/
def AttemptBound (X : OciCrates) (p : UploadRequest × Reply → Bool) (bound : Nat) : Prop :=
  ∀ (url : String) (body : Bytes) (range : Nat × Nat) (trace : Trace UploadRequest Reply)
    (result : Except OciError UploadChunkResponse),
    (requestPatchChunkWithAuthRetry X url body range).Runs trace result → trace.countP p ≤ bound

theorem attemptBound_isPatchOf (X : OciCrates) (last : Nat) : AttemptBound X (isPatchOf last) 2 :=
  fun _ _ _ _ _ h => runs_authRetry_countP_le_two h fun _ => isPatchOf_token

theorem attemptBound_isAttemptOf (X : OciCrates) (last : Nat) :
    AttemptBound X (isAttemptOf last) 1 := by
  intro url body range trace result h
  apply runs_authRetry_countP_le_one h
  · intro event htoken
    simp [isAttemptOf, isPatchOf_token htoken]
  · intro reply answer hread hstatus
    obtain ⟨response, rfl, hanswer, _⟩ := readChunkReply_eq_ok hread
    simp [isAttemptOf, isUnauthorized, ← hanswer, hstatus]

section

variable {p : UploadRequest × Reply → Bool} {bound last : Nat}
  (hp : ∀ event, p event = true → isPatchOf last event = true)
include hp

theorem countP_eq_zero_of_requests {P : Nat → Prop} (hlast : ¬ P last)
    {trace : Trace UploadRequest Reply} (h : ∀ event ∈ trace, IsChunkRequest P event.1) :
    trace.countP p = 0 := by
  rw [List.countP_eq_zero]
  intro event hevent hcounted
  have hrequest := h event hevent
  have hpatch := hp event hcounted
  unfold isPatchOf at hpatch
  split at hpatch
  · rename_i hrange
    rw [hrange] at hrequest
    exact hlast (of_decide_eq_true hpatch ▸ hrequest)
  · simp at hpatch

variable (hbound : AttemptBound X p bound)
include hbound

theorem countP_retryChunk {chunk : Bytes} {chunkStart chunkEnd attempts : Nat} {state : ChunkState}
    {trace : Trace UploadRequest Reply} {url : String}
    (h : (retryChunk X client config chunk chunkStart chunkEnd attempts state).Runs trace
      (.ok url)) : trace.countP p ≤ attempts * bound := by
  induction attempts generalizing state trace with
  | zero =>
      unfold retryChunk at h
      split at h
      · simp only [Action.runs_pure] at h
        simp [h.1]
      · simp at h
  | succ attempts ih =>
      unfold retryChunk at h
      split at h
      · simp only [Action.runs_pure] at h
        simp [h.1]
      · obtain ⟨first, rest, outcome, rfl, hsend, hrest⟩ := Action.runs_bind_ok.mp h
        obtain ⟨result, hcall, _⟩ := runs_sendChunk_ok hsend
        have hfirst := hbound _ _ _ _ _ hcall
        rw [List.countP_append, Nat.succ_mul]
        cases outcome with
        | advanced next =>
            have hrest := ih hrest
            omega
        | interrupted next error =>
            obtain ⟨probe, rest, next', rfl, hprobe, hrest⟩ := Action.runs_bind_ok.mp hrest
            have hprobe := countP_eq_zero_of_requests hp (P := fun _ => False) id
              ((only_probeChunk next error).forall_mem hprobe)
            have hrest := ih hrest
            rw [List.countP_append, hprobe]
            omega

theorem countP_uploadChunk {chunk : Bytes} {chunkStart : Nat} {trace : Trace UploadRequest Reply}
    {url url' : String}
    (h : (uploadChunkWithRetry X client config url chunk chunkStart).Runs trace (.ok url')) :
    trace.countP p ≤ config.maxPatchAttempts * bound := by
  unfold uploadChunkWithRetry at h
  simp only [runs_onSession_bind_ok] at h
  obtain ⟨_, _, hretry⟩ := h
  exact countP_retryChunk hp hbound hretry

/-- All requests of a chunk are sent in one turn of the loop over the chunks. -/
theorem countP_sendChunks {buffer : Bytes} {stream stream' : HashingStream} {url url' : String}
    {offset : Nat} {trace : Trace UploadRequest Reply}
    (h : (sendChunks X client config buffer stream url offset).Runs trace (.ok (stream', url'))) :
    trace.countP p ≤ config.maxPatchAttempts * bound := by
  induction buffer, stream, url, offset using sendChunks_induction X config
    generalizing trace with
  | step buffer stream url offset ih =>
      obtain ⟨reads, rest, rfl, hreads, hcases⟩ := runs_sendChunks_ok rfl h
      have hzero : reads.countP p = 0 := by
        apply countP_eq_zero_of_requests hp (P := fun _ => False) id
        intro event hevent
        have hmem : event.1 ∈ reads.map Prod.fst := List.mem_map_of_mem hevent
        rw [hreads] at hmem
        obtain ⟨item, _, hitem⟩ := List.mem_map.mp hmem
        rw [← hitem]
        trivial
      rw [List.countP_append, hzero, Nat.zero_add]
      rcases hcases with ⟨_, _, ⟨_, rfl, _⟩ | ⟨_, hupload⟩⟩ |
        ⟨houtcome, first, more, middle, rfl, hupload, hmore⟩
      · simp
      · exact countP_uploadChunk hp hbound hupload
      · have hlimit := le_length_fillTo houtcome
        have hpos := config.chunkLimit_pos
        have hfirst := countP_uploadChunk hp hbound hupload
        have hrest := ih _ rfl houtcome middle hmore
        have honly := only_uploadChunk.forall_mem hupload
        have honly' := (only_sendChunks _ _ _ _).forall_mem hmore
        rw [List.length_take, min_eq_left hlimit] at honly
        rw [List.countP_append]
        -- the chunk with this last byte is this one, a later one or none
        by_cases hthis : last < offset + config.chunkLimit
        · rw [countP_eq_zero_of_requests hp (by omega) honly']
          omega
        · rw [countP_eq_zero_of_requests hp (by omega) honly]
          omega

end

/-! ## Opening and finishing a session -/

section

variable {trace : Trace UploadRequest Reply} {sessions after : Sessions}

/-- A POST that was refused, and the exchange for a token, leave the sessions as they are. -/
theorem Sessions.follows_refused {posted : Trace Request Reply}
    (hposted : ∀ event ∈ posted, isEffective event = false ∧
      (event.1 = .postUpload ∨ ∃ challenge, event.1 = .refreshToken challenge))
    (hfollows : Follows (Step X client session) sessions (posted.map (Prod.map .other id)) after) :
    after = sessions := by
  apply hfollows.invariant (I := fun s => s = sessions) rfl
  intro s event s' hevent hstep hs
  obtain ⟨⟨request, reply⟩, hmem, rfl⟩ := List.mem_map.mp hevent
  obtain ⟨heffective, rfl | ⟨challenge, rfl⟩⟩ := hposted _ hmem
  · have hnone : openedUrl X client reply = none := by
      cases reply with
      | error error => rfl
      | ok response =>
          have hstatus : response.status = 401 := by
            simpa [isEffective, unauthorized] using heffective
          simp [openedUrl, hstatus, isSuccess]
    have hstep' : s' = s := by simpa [Step, hnone] using hstep
    rw [hstep', hs]
  · exact Eq.trans hstep hs

theorem runs_post_events {fetched : Fetched} {operation : String}
    (hruns : (Exchange.transfer (requestPostWithAuthRetry X operation)).Runs trace (.ok fetched)) :
    ∀ event ∈ trace, event.1 = .other .postUpload ∨ IsTokenEvent event := by
  obtain ⟨posted, rfl, hposted⟩ := Action.Runs.of_embed hruns
  have honly : Only (fun request : Request => request = .postUpload ∨
      ∃ challenge, request = .refreshToken challenge) (requestPostWithAuthRetry X operation) :=
    only_send (Or.inl rfl) fun challenge => Or.inr ⟨challenge, rfl⟩
  intro event hevent
  obtain ⟨inner, hinner, rfl⟩ := List.mem_map.mp hevent
  rcases honly.forall_mem hposted inner hinner with hpost | ⟨challenge, htoken⟩
  · exact Or.inl (by simp [hpost])
  · exact Or.inr ⟨challenge, by simp [htoken]⟩

/-- The session that a POST opened is empty. -/
theorem runs_openSession {fetched : Fetched} {operation location url : String}
    (hruns : (Exchange.transfer (requestPostWithAuthRetry X operation)).Runs trace (.ok fetched))
    (hsuccess : isSuccess fetched.status = true)
    (hlocation : (fetched.headers.get "location").bind headerText = some location)
    (hurl : resolvedLocation X client location = .ok url)
    (hfollows : Follows (Sessions.Step X client session) sessions trace after) :
    after (session url) = [] := by
  have hevents := runs_post_events hruns
  obtain ⟨posted, rfl, hposted⟩ := Action.Runs.of_embed hruns
  obtain ⟨response, heffective, hstatus, hheaders, _⟩ := runs_requestWithAuthRetry_ok hposted trivial
  obtain ⟨before, rest, rfl, _, _, hrest⟩ := List.filter_eq_cons_iff.mp heffective
  rw [List.filter_eq_nil_iff] at hrest
  have hopened : openedUrl X client (.ok response) = some url := by
    rw [openedUrl, if_pos (hstatus ▸ hsuccess), ← hheaders, hlocation]
    simp [hurl, Except.toOption]
  rw [List.map_append, List.map_cons] at hfollows
  obtain ⟨first, _, second, hstep, hlast⟩ := Program.follows_append.mp hfollows
  have hsecond : second = Function.update first (session url) [] := by
    simpa [Sessions.Step, hopened] using hstep
  have hafter : after = second := by
    apply Sessions.follows_refused _ hlast
    intro event hevent
    refine ⟨by simpa using hrest event hevent, ?_⟩
    rcases hevents (Prod.map .other id event) (List.mem_map_of_mem (by simp [hevent])) with
      hpost | ⟨challenge, htoken⟩
    · exact Or.inl (by simpa using hpost)
    · exact Or.inr ⟨challenge, by simpa using htoken⟩
  rw [hafter, hsecond, Function.update_self]

/-- The PUT that finishes a session, and what is returned then. -/
theorem runs_finishUpload_ok {url : String} {stream : HashingStream} {digest : ContentDigest}
    {size : UInt64} (hended : stream.Ended X.toCrates)
    (hruns : (finishUpload X url stream).Runs trace (.ok (digest, size))) :
    digest = ContentDigest.fromBytes X.toCrates stream.hashed ∧
      size = UInt64.ofNat stream.hashed.length ∧
      (∃ response, (.putFinish url digest.val, .ok response) ∈ trace ∧
        (response.status = 201 ∨ response.status = 200 ∨ response.status = 202)) ∧
      ∀ event ∈ trace, event.1 = .putFinish url digest.val ∨ IsTokenEvent event := by
  unfold finishUpload at hruns
  simp only [Action.runs_ofExcept_bind_ok, okOr_eq_ok, hended.digest_eq, Option.some.injEq] at hruns
  obtain ⟨_, rfl, hfinish⟩ := hruns
  obtain ⟨call, tail, finished, rfl, hcall, htail⟩ := Action.runs_bind_ok.mp hfinish
  simp only [Action.runs_ofExcept_bind_ok, ensure_eq_ok, Action.runs_pure, Except.ok.injEq,
    Prod.mk.injEq] at htail
  obtain ⟨_, hstatus, rfl, rfl, rfl⟩ := htail
  obtain ⟨before, reply, rfl, hread, _, hbefore⟩ := runs_authRetry_ok hcall
  obtain ⟨response, rfl, hresponse, _⟩ := readReply_eq_ok.mp hread
  refine ⟨rfl, rfl, ⟨response, by simp, hresponse ▸ hstatus⟩, ?_⟩
  simpa using runs_authRetry_events hcall

end

/-! ## The whole upload -/

/-- An element that the first part does not hold stands in the second. -/
theorem exists_eq_append_of_not_mem {α : Type} {first second before rest : List α} {x : α}
    (h : first ++ second = before ++ x :: rest) (hx : x ∉ first) :
    ∃ more, before = first ++ more ∧ second = more ++ x :: rest := by
  rcases List.append_eq_append_iff.mp h with ⟨more, hbefore, hsecond⟩ | ⟨more, hfirst, hrest⟩
  · exact ⟨more, hbefore, hsecond⟩
  · cases more with
    | nil => exact ⟨[], by simpa using hfirst.symm, by simpa using hrest.symm⟩
    | cons y more =>
        rw [List.cons_append, List.cons.injEq] at hrest
        exact absurd (by simp [hfirst, hrest.1]) hx

theorem runs_readBody_ok {filled : Filled} {trace : Trace UploadRequest Reply} {u : Unit}
    (h : (readBody filled).Runs trace (.ok u)) :
    trace.map Prod.fst = filled.reads.map UploadRequest.readBody ∧
      ∀ error, filled.outcome ≠ .failed error := by
  obtain ⟨reads, rest, _, rfl, hreads, hrest⟩ := Action.runs_bind_ok.mp h
  obtain ⟨hreads, _⟩ := runs_recordReads hreads
  cases houtcome : filled.outcome with
  | failed error =>
      rw [houtcome] at hrest
      simp at hrest
  | ended =>
      rw [houtcome] at hrest
      obtain ⟨rfl, _⟩ := hrest
      exact ⟨by simpa using hreads, by simp⟩
  | stopped =>
      rw [houtcome] at hrest
      obtain ⟨rfl, _⟩ := hrest
      exact ⟨by simpa using hreads, by simp⟩

/-- An upload of `bytes` that returned `digest` and `size`, from sessions in any state. -/
structure Faithful (X : OciCrates) (client : OciClient) (config : UploadConfig)
    (session : String → Nat) (sessions : Sessions) (bytes : Bytes)
    (trace : Trace UploadRequest Reply) (digest : ContentDigest) (size : UInt64) : Prop where
  digest_eq : digest = ContentDigest.fromBytes X.toCrates bytes
  size_eq : size = UInt64.ofNat bytes.length
  /-- A finishing PUT comes after the end of the stream, and its session holds the stream. -/
  finished : ∀ before rest url target reply,
    trace = before ++ (.putFinish url target, reply) :: rest →
      target = digest.val ∧ bytes.length < 18446744073709551616 ∧
      .readBody none ∈ before.map Prod.fst ∧
      ∀ held, Follows (Sessions.Step X client session) sessions before held →
        held (session url) = bytes
  /-- The registry confirmed the whole blob. -/
  confirmed :
    (∃ url response, (.putFinish url digest.val, .ok response) ∈ trace ∧
      (response.status = 201 ∨ response.status = 200 ∨ response.status = 202)) ∨
    ∃ request reply, (.other request, reply) ∈ trace ∧ Stored digest.val bytes (request, reply)
  attempts : ∀ last, trace.countP (isAttemptOf last) ≤ config.maxRetryAttempts.toNat + 1
  patches : ∀ last, trace.countP (isPatchOf last) ≤ 2 * (config.maxRetryAttempts.toNat + 1)

section

variable {body : List BodyItem} {trace : Trace UploadRequest Reply} {digest : ContentDigest}
  {size : UInt64} {sessions : Sessions}

theorem isPatchOf_isAttemptOf {last : Nat} (event : UploadRequest × Reply)
    (h : isAttemptOf last event = true) : isPatchOf last event = true :=
  (Bool.and_eq_true_iff.mp h).1

/-- Requests that are no part of a chunk do not count as its PATCH. -/
theorem countP_isPatchOf_eq_zero {last : Nat}
    (h : ∀ event ∈ trace, ∀ url range bytes, event.1 ≠ .patchChunk url range bytes) :
    trace.countP (isPatchOf last) = 0 := by
  rw [List.countP_eq_zero]
  intro event hevent hcounted
  unfold isPatchOf at hcounted
  split at hcounted
  · rename_i url range bytes hrequest
    exact h event hevent url range bytes hrequest
  · simp at hcounted

theorem countP_isAttemptOf_le {last : Nat} (trace : Trace UploadRequest Reply) :
    trace.countP (isAttemptOf last) ≤ trace.countP (isPatchOf last) :=
  List.countP_mono_left fun event _ => isPatchOf_isAttemptOf event

theorem maxPatchAttempts_le (config : UploadConfig) :
    config.maxPatchAttempts ≤ config.maxRetryAttempts.toNat + 1 :=
  min_le_left _ _

theorem exists_readBody_of_mem {reads : Trace UploadRequest Reply} {items : List (Option BodyItem)}
    (hreads : reads.map Prod.fst = items.map UploadRequest.readBody) {event : UploadRequest × Reply}
    (hevent : event ∈ reads) : ∃ item, event.1 = .readBody item := by
  have hmem : event.1 ∈ reads.map Prod.fst := List.mem_map_of_mem hevent
  rw [hreads] at hmem
  obtain ⟨item, _, hitem⟩ := List.mem_map.mp hmem
  exact ⟨item, hitem.symm⟩

/-- A trace of reads and of requests of the client has no PATCH and no finishing PUT. -/
theorem faithful_of_stored {bytes : Bytes} {reads : Trace UploadRequest Reply}
    {pushed : Trace Request Reply} {items : List (Option BodyItem)}
    (hreads : reads.map Prod.fst = items.map UploadRequest.readBody)
    (hdigest : digest = ContentDigest.fromBytes X.toCrates bytes)
    (hsize : size = UInt64.ofNat bytes.length)
    (hstored : ∃ event ∈ pushed, Stored digest.val bytes event) :
    Faithful X client config session sessions bytes
      (reads ++ pushed.map (Prod.map UploadRequest.other id)) digest size := by
  have hevents : ∀ event ∈ reads ++ pushed.map (Prod.map UploadRequest.other id),
      (∃ item, event.1 = .readBody item) ∨ ∃ request, event.1 = .other request := by
    intro event hevent
    rcases List.mem_append.mp hevent with hevent | hevent
    · exact Or.inl (exists_readBody_of_mem hreads hevent)
    · obtain ⟨inner, _, rfl⟩ := List.mem_map.mp hevent
      exact Or.inr ⟨inner.1, rfl⟩
  have hzero : ∀ last,
      (reads ++ pushed.map (Prod.map UploadRequest.other id)).countP (isPatchOf last) = 0 := by
    intro last
    apply countP_isPatchOf_eq_zero
    rintro event hevent url range bytes hrequest
    rcases hevents event hevent with ⟨item, h⟩ | ⟨request, h⟩
    · simp [h] at hrequest
    · simp [h] at hrequest
  refine ⟨hdigest, hsize, ?_, Or.inr ?_, ?_, ?_⟩
  · intro before rest url target reply htrace
    rcases hevents (.putFinish url target, reply) (by simp [htrace]) with ⟨item, h⟩ | ⟨request, h⟩
    · simp at h
    · simp at h
  · obtain ⟨⟨request, reply⟩, hmem, hevent⟩ := hstored
    refine ⟨request, reply, List.mem_append_right _ ?_, hevent⟩
    exact List.mem_map.mpr ⟨(request, reply), hmem, rfl⟩
  · intro last
    have hle := @countP_isAttemptOf_le last
      (reads ++ pushed.map (Prod.map UploadRequest.other id))
    rw [hzero last] at hle
    omega
  · intro last
    rw [hzero last]
    omega

theorem pushBuffered_faithful {buffer : Bytes} {stream : HashingStream}
    {reads : Trace UploadRequest Reply} {items : List (Option BodyItem)}
    (hreads : reads.map Prod.fst = items.map UploadRequest.readBody)
    (hread : stream.ReadOf X.toCrates body) (hbuffer : stream.hashed = buffer)
    (hruns : (pushBuffered X client buffer stream).Runs trace (.ok (digest, size))) :
    ∃ chunks : List Bytes, body = chunks.map Except.ok ∧
      Faithful X client config session sessions chunks.flatten (reads ++ trace) digest size := by
  unfold pushBuffered at hruns
  obtain ⟨more, rest, _, rfl, hmore, hrest⟩ := Action.runs_bind_ok.mp hruns
  obtain ⟨hmore, hok⟩ := runs_readBody_ok hmore
  have hstop : (readUntil X.toCrates (fun _ => false) buffer stream).outcome ≠ .stopped :=
    fun h => absurd (readUntil_stop h) (by simp)
  obtain ⟨hreadOf, ⟨bytes, hbytes, hhashed⟩, hended⟩ := readUntil_reads hread hok
  generalize readUntil X.toCrates (fun _ => false) buffer stream = filled at *
  have hended : filled.stream.Ended X.toCrates := by
    apply (hended ?_).1
    cases houtcome : filled.outcome with
    | stopped => exact absurd houtcome hstop
    | ended => rfl
    | failed error => exact absurd houtcome (hok error)
  have hall : filled.stream.hashed = filled.buffer := by rw [hhashed, hbytes, hbuffer]
  obtain ⟨chunks, hbody, hchunks⟩ := hreadOf.eq_of_ended hended
  simp only [Action.runs_ofExcept_bind_ok, okOr_eq_ok, hended.digest_eq, Option.some.injEq] at hrest
  obtain ⟨_, rfl, hpush⟩ := hrest
  obtain ⟨call, tail, pushed, rfl, hcall, htail⟩ := Action.runs_bind_ok.mp hpush
  simp only [Action.runs_ofExcept_bind_ok, ensure_eq_ok, Action.runs_pure, Except.ok.injEq,
    Prod.mk.injEq] at htail
  obtain ⟨_, rfl, rfl, rfl, rfl⟩ := htail
  obtain ⟨inner, rfl, hinner⟩ := Action.Runs.of_embed hcall
  obtain ⟨_, hstored⟩ := BlobClient.runs_pushBytes_ok hinner
  refine ⟨chunks, hbody, ?_⟩
  rw [List.append_nil, ← List.append_assoc]
  have hitems : (reads ++ more).map Prod.fst = (items ++ filled.reads).map UploadRequest.readBody := by
    rw [List.map_append, List.map_append, hreads, hmore]
  rw [← hchunks]
  exact faithful_of_stored hitems rfl rfl (by rw [hall] at hstored ⊢; exact hstored)

theorem pushChunked_faithful {stream : HashingStream} {reads : Trace UploadRequest Reply}
    {items : List (Option BodyItem)}
    (hreads : reads.map Prod.fst = items.map UploadRequest.readBody)
    (hread : stream.ReadOf X.toCrates body)
    (hruns : (pushChunked X client config stream.hashed stream).Runs trace (.ok (digest, size))) :
    ∃ chunks : List Bytes, body = chunks.map Except.ok ∧
      Faithful X client config session sessions chunks.flatten (reads ++ trace) digest size := by
  unfold pushChunked at hruns
  obtain ⟨posted, rest, fetched, rfl, hpost, hrest⟩ := Action.runs_bind_ok.mp hruns
  simp only [Action.runs_ofExcept_bind_ok, ensure_eq_ok, okOr_eq_ok] at hrest
  obtain ⟨_, hsuccess, location, hlocation, url, hurl, hrest⟩ := hrest
  obtain ⟨upload, tail, result, rfl, hattempt, htail⟩ := Action.runs_bind_ok.mp hrest
  obtain ⟨result', hresult, hupload⟩ := Action.runs_attempt.mp hattempt
  obtain rfl := Except.ok.inj hresult
  cases result with
  | error failure =>
      obtain ⟨_, _, _, _, _, hfailed⟩ := Action.runs_bind_ok.mp htail
      simp at hfailed
  | ok uploaded =>
      simp only [Action.runs_pure, Except.ok.injEq] at htail
      obtain ⟨rfl, rfl⟩ := htail
      obtain ⟨sent, finish, ⟨last, url'⟩, rfl, hsend, hfinish⟩ := Action.runs_bind_ok.mp hupload
      rw [runs_onSession_ok] at hfinish
      have hhashed : stream.hashed = [] ++ stream.hashed := rfl
      obtain ⟨hlast, hended, hsmall, hnone⟩ :=
        sendChunks_reads hread hhashed rfl (by simp) hsend
      obtain ⟨hdigest, hsize, hconfirmed, hfinished⟩ := runs_finishUpload_ok hended hfinish
      obtain ⟨chunks, hbody, hchunks⟩ := hlast.eq_of_ended hended
      have hposted := runs_post_events hpost
      refine ⟨chunks, hbody, ?_⟩
      rw [hchunks] at hdigest hsize hsmall
      have hunfinished : ∀ event ∈ reads ++ posted ++ sent, ∀ url target,
          event.1 ≠ .putFinish url target := by
        intro event hevent url target hrequest
        rcases List.mem_append.mp hevent with hevent | hevent
        · rcases List.mem_append.mp hevent with hevent | hevent
          · obtain ⟨item, hitem⟩ := exists_readBody_of_mem hreads hevent
            simp [hitem] at hrequest
          · rcases hposted event hevent with h | ⟨_, h⟩
            · simp [h] at hrequest
            · simp [h] at hrequest
        · have h := (only_sendChunks _ _ _ _).forall_mem hsend event hevent
          rw [hrequest] at h
          exact h
      have hcount : ∀ last (p : UploadRequest × Reply → Bool) bound,
          (∀ event, p event = true → isPatchOf last event = true) → AttemptBound X p bound →
          (reads ++ (posted ++ (sent ++ finish ++ []))).countP p ≤
            config.maxPatchAttempts * bound := by
        intro last p bound hp hbound
        have hzero : ∀ t : Trace UploadRequest Reply,
            (∀ event ∈ t, ∀ url range bytes, event.1 ≠ .patchChunk url range bytes) →
            t.countP p = 0 := by
          intro t ht
          have hle := List.countP_mono_left (l := t) fun event _ => hp event
          rw [countP_isPatchOf_eq_zero ht] at hle
          omega
        have hreads' : reads.countP p = 0 := by
          apply hzero
          intro event hevent url range bytes hrequest
          obtain ⟨item, hitem⟩ := exists_readBody_of_mem hreads hevent
          simp [hitem] at hrequest
        have hposted' : posted.countP p = 0 := by
          apply hzero
          intro event hevent url range bytes hrequest
          rcases hposted event hevent with h | ⟨_, h⟩
          · simp [h] at hrequest
          · simp [h] at hrequest
        have hfinish' : finish.countP p = 0 := by
          apply hzero
          intro event hevent url range bytes hrequest
          rcases hfinished event hevent with h | ⟨_, h⟩
          · simp [h] at hrequest
          · simp [h] at hrequest
        have hsent := countP_sendChunks hp hbound hsend
        simp only [List.countP_append, hreads', hposted', hfinish', List.countP_nil]
        omega
      refine ⟨hdigest, hsize, ?_, Or.inl ?_, ?_, ?_⟩
      · intro before rest url₂ target reply htrace
        have hsplit : (reads ++ posted ++ sent) ++ finish =
            before ++ (.putFinish url₂ target, reply) :: rest := by
          rw [← htrace]
          simp
        obtain ⟨more, rfl, hmore⟩ := exists_eq_append_of_not_mem hsplit
          fun hmem => hunfinished _ hmem url₂ target rfl
        have hevent := hfinished (.putFinish url₂ target, reply) (by simp [hmore])
        have hfinal : url₂ = url' ∧ target = digest.val := by
          rcases hevent with h | ⟨_, h⟩
          · simpa using h
          · simp at h
        obtain ⟨rfl, rfl⟩ := hfinal
        refine ⟨rfl, hsmall, ?_, ?_⟩
        · simp only [List.map_append, List.mem_append]
          exact Or.inl (Or.inr hnone)
        · intro held hheld
          obtain ⟨third, hthird, hlastFollows⟩ := Program.follows_append.mp hheld
          obtain ⟨second, hsecond, hsendFollows⟩ := Program.follows_append.mp hthird
          obtain ⟨first, hfirst, hpostFollows⟩ := Program.follows_append.mp hsecond
          have hopened := runs_openSession hpost hsuccess hlocation hurl hpostFollows
          obtain ⟨hid, hcontent⟩ :=
            sendChunks_holds hread hhashed rfl rfl hopened hsend hsendFollows
          have hsame : held = third := by
            apply hlastFollows.invariant (I := fun s => s = third) rfl
            intro s event s' hevent hstep hs
            obtain ⟨request, reply'⟩ := event
            rcases hfinished _ (hmore ▸ List.mem_append_left _ hevent) with h | htoken
            · obtain rfl : request = _ := h
              exact Eq.trans hstep hs
            · rw [Sessions.step_token hstep htoken, hs]
          rw [hsame, hid, hcontent, hchunks]
      · obtain ⟨response, hmem, hstatus⟩ := hconfirmed
        exact ⟨url', response, by simp [hmem], hstatus⟩
      · intro last
        have hle := hcount last _ 1 isPatchOf_isAttemptOf (attemptBound_isAttemptOf X last)
        have hmax := maxPatchAttempts_le config
        omega
      · intro last
        have hle := hcount last _ 2 (fun _ => id) (attemptBound_isPatchOf X last)
        have hmax := maxPatchAttempts_le config
        omega

theorem faithful_of_runs
    (hruns : (pushResumable X client config body).Runs trace (.ok (digest, size))) :
    ∃ chunks : List Bytes, body = chunks.map Except.ok ∧
      Faithful X client config session sessions chunks.flatten trace digest size := by
  unfold pushResumable at hruns
  obtain ⟨reads, rest, _, rfl, hreads, hrest⟩ := Action.runs_bind_ok.mp hruns
  obtain ⟨hreads, hok⟩ := runs_readBody_ok hreads
  obtain ⟨hreadOf, ⟨bytes, hbytes, hhashed⟩, _⟩ :=
    readUntil_reads (HashingStream.readOf_start X.toCrates body) hok
  generalize readUntil X.toCrates _ [] { inner := body } = filled at *
  have hbuffer : filled.stream.hashed = filled.buffer := by rw [hhashed, hbytes]
  split at hrest
  · exact pushBuffered_faithful hreads hreadOf hbuffer hrest
  · rw [← hbuffer] at hrest
    exact pushChunked_faithful hreads hreadOf hrest

/-- An upload that returned is faithful: the digest and the size are those of the stream, the
session held exactly the stream when its finishing PUT was sent, which was after the end of the
stream, and every chunk was sent in at most `maxRetryAttempts + 1` attempts, each of them one PATCH
or, after a challenge, two. -/
theorem pushResumable_faithful
    (hruns : (pushResumable X client config body).Runs trace (.ok (digest, size))) :
    ∃ chunks : List Bytes, body = chunks.map Except.ok ∧
      Faithful X client config session sessions chunks.flatten trace digest size :=
  faithful_of_runs hruns

end

/-! ## A stream of one chunk -/

/-- A server that asks for a token with one challenge. -/
def uploadCrates : OciCrates :=
  { storingCrates sampleCrates with
    parseWwwAuthenticate := fun headers =>
      .ok ((headers.get "www-authenticate").map fun _ =>
        ⟨"https://cache.example/token", none, none⟩) }

def uploadClient : OciClient :=
  ⟨⟨.https, "cache.example", none, "cache.example", ""⟩, "owner/repo", .genericOci, {}⟩

def uploadUrl : String := "https://cache.example/upload"

/-- Chunks of one mebibyte. -/
def mebibyteChunks (retries : UInt64) : UploadConfig := ⟨1, 1, retries⟩

def mebibyte : Bytes := List.replicate 1048576 0

/-- The stream of a block, after its end. -/
def endedStream (X : Crates) (block : Bytes) : HashingStream :=
  ⟨[], block, some (.complete (ContentDigest.fromBytes X block))⟩

def plainReply (status : StatusCode) : Reply := .ok ⟨status, [], []⟩

/-- The reply that opens the session. -/
def openedReply : Reply := .ok ⟨202, [("location", Str.asBytes "/upload")], []⟩

def challengeHeaders : HeaderMap :=
  [("www-authenticate", Str.asBytes "Bearer realm=\"https://cache.example/token\"")]

def blockPatch (block : Bytes) : UploadRequest := .patchChunk uploadUrl (0, 1048575) block

/-- The exchange in which a PATCH is answered with a challenge and sent again. -/
def challengedPatches (block : Bytes) : Trace UploadRequest Reply :=
  [(blockPatch block, .ok ⟨401, challengeHeaders, []⟩),
    (.other (.refreshToken ⟨"https://cache.example/token", none, none⟩), plainReply 200),
    (blockPatch block, plainReply 202)]

/-- Reading the block and opening the session. -/
def blockStart (block : Bytes) : Trace UploadRequest Reply :=
  [(.readBody (some (.ok block)), plainReply 200), (.other .postUpload, openedReply)]

/-- Reading the end of the stream and finishing the session. -/
def blockFinish (block : Bytes) : Trace UploadRequest Reply :=
  [(.readBody none, plainReply 200),
    (.putFinish uploadUrl (ContentDigest.fromBytes uploadCrates.toCrates block).val,
      plainReply 201)]

theorem chunkLimit_mebibyteChunks (retries : UInt64) :
    (mebibyteChunks retries).chunkLimit = 1048576 := rfl

theorem threshold_mebibyteChunks (retries : UInt64) :
    (mebibyteChunks retries).threshold = 1048576 := rfl

theorem length_mebibyte : mebibyte.length = 1048576 := List.length_replicate

theorem resolvedLocation_upload :
    resolvedLocation uploadCrates uploadClient "/upload" = .ok uploadUrl := by decide

theorem readUntil_block {stop : Bytes → Bool} {block : Bytes} (X : Crates) (h : stop block = true) :
    readUntil X stop [] { inner := [.ok block] } =
      ⟨[some (.ok block)], block, { inner := [], hashed := block }, .stopped⟩ := by
  rw [readUntil]
  simp [HashingStream.pollNext, h]

theorem readUntil_end (X : Crates) (stop : Bytes → Bool) (buffer hashed : Bytes) :
    readUntil X stop buffer { inner := [], hashed := hashed } =
      ⟨[none], buffer, endedStream X hashed, .ended⟩ := by
  rw [readUntil]
  simp [HashingStream.pollNext, endedStream]

theorem runs_recordReads_one (item : Option BodyItem) :
    (recordReads [item]).Runs [(.readBody item, plainReply 200)] (.ok ()) :=
  Runs.bind (Runs.request _ _) (runs_pure.mpr ⟨rfl, rfl⟩)

theorem runs_transferOnce {α : Type} {operation : String} {status : α → StatusCode}
    {headers : α → HeaderMap} {request : UploadRequest} {read : Reply → Except OciError α}
    {reply : Reply} {value : α} (hread : read reply = .ok value) (hstatus : status value ≠ 401) :
    (transferWithAuthRetry X operation status headers (transferCall request read)).Runs
      [(request, reply)] (.ok value) := by
  have hcall : (transferCall request read).Runs [(request, reply)] (.ok value) :=
    runs_transferCall.mpr ⟨reply, rfl, hread.symm⟩
  unfold transferWithAuthRetry
  apply Runs.bind hcall
  rw [if_pos hstatus]
  exact ⟨rfl, rfl⟩

theorem runs_requestOnce {request : Request} {operation : String} {reply : Reply}
    {fetched : Fetched} {collect : Response → Except TransportError Bytes}
    (hread : readReply collect reply = .ok fetched) (hstatus : fetched.status ≠ 401) :
    (requestWithAuthRetry X operation (transportCall request collect)).Runs
      [(request, reply)] (.ok fetched) := by
  have hcall : (transportCall request collect).Runs [(request, reply)] (.ok fetched) :=
    runs_transportCall.mpr ⟨reply, rfl, hread.symm⟩
  unfold requestWithAuthRetry
  apply Runs.bind hcall
  rw [if_pos hstatus]
  exact ⟨rfl, rfl⟩

section

variable {retries : UInt64} {block : Bytes} {patches rest : Trace UploadRequest Reply}
  {result : Except OciError (ContentDigest × UInt64)}

/-- The upload up to the opened session; what follows decides the result. -/
theorem runs_pushResumable_block (hblock : block.length = 1048576)
    {outcome : Except SessionFailure (ContentDigest × UInt64)}
    (hrest : (match outcome with
      | .ok uploaded => pure uploaded
      | .error failure => do
          Exchange.transfer (BlobClient.abortUploadSession uploadCrates failure.sessionUrl)
          Action.ofExcept (.error failure.error) : Transfer (ContentDigest × UInt64)).Runs rest
            result)
    (hupload : (uploadStream uploadCrates uploadClient (mebibyteChunks retries) block
      { inner := [], hashed := block } uploadUrl).Runs patches outcome) :
    (pushResumable uploadCrates uploadClient (mebibyteChunks retries) [.ok block]).Runs
      (blockStart block ++ (patches ++ rest)) result := by
  have hstop : decide ((mebibyteChunks retries).threshold ≤ block.length ∧
      uploadClient.allowsChunked = true) = true := by
    rw [threshold_mebibyteChunks, hblock]
    decide
  have hread : (readBody ⟨[some (.ok block)], block, { inner := [], hashed := block },
      .stopped⟩).Runs [(.readBody (some (.ok block)), plainReply 200)] (.ok ()) :=
    Runs.bind (runs_recordReads_one _) ⟨rfl, rfl⟩
  have hpost : (Exchange.transfer
      (requestPostWithAuthRetry uploadCrates "initialize chunked upload")).Runs
      [(.other .postUpload, openedReply)]
      (.ok ⟨202, [("location", Str.asBytes "/upload")], []⟩) :=
    Runs.embed UploadRequest.other (runs_requestOnce rfl (by decide))
  have hlocation : (HeaderMap.get [("location", Str.asBytes "/upload")] "location").bind headerText =
      some "/upload" := by decide
  unfold pushResumable
  rw [readUntil_block _ hstop]
  apply Runs.bind hread
  rw [if_neg]
  · apply Runs.bind hpost
    apply Runs.ofExcept_bind (ensure_of _ (by decide))
    apply Runs.ofExcept_bind (okOr_eq_ok.mpr hlocation)
    apply Runs.ofExcept_bind resolvedLocation_upload
    exact Runs.bind (runs_attempt.mpr ⟨outcome, rfl, hupload⟩) hrest
  · dsimp only
    rw [threshold_mebibyteChunks, hblock]
    decide

/-- The upload of the block after its only chunk has been accepted. -/
theorem runs_uploadStream_block (hblock : block.length = 1048576)
    (hchunk : (uploadChunkWithRetry uploadCrates uploadClient (mebibyteChunks retries) uploadUrl
      block 0).Runs patches (.ok uploadUrl)) :
    (uploadStream uploadCrates uploadClient (mebibyteChunks retries) block
      { inner := [], hashed := block } uploadUrl).Runs (patches ++ blockFinish block)
      (.ok (ContentDigest.fromBytes uploadCrates.toCrates block, UInt64.ofNat block.length)) := by
  have hempty : block.drop 1048576 = [] := by rw [← hblock, List.drop_length]
  have hlast : (sendChunks uploadCrates uploadClient (mebibyteChunks retries) []
      { inner := [], hashed := block } uploadUrl 1048576).Runs [(.readBody none, plainReply 200)]
      (.ok (endedStream uploadCrates.toCrates block, uploadUrl)) := by
    rw [sendChunks, fillTo, if_neg (by rw [chunkLimit_mebibyteChunks]; decide), readUntil_end]
    exact Runs.bind (runs_onSession_ok.mpr (runs_recordReads_one none)) ⟨rfl, rfl⟩
  have hsend : (sendChunks uploadCrates uploadClient (mebibyteChunks retries) block
      { inner := [], hashed := block } uploadUrl 0).Runs
      (patches ++ [(.readBody none, plainReply 200)])
      (.ok (endedStream uploadCrates.toCrates block, uploadUrl)) := by
    have hne : block ≠ [] := List.ne_nil_of_length_pos (by omega)
    have hreads : (onSession uploadUrl (recordReads [])).Runs [] (.ok ()) :=
      runs_onSession_ok.mpr ⟨rfl, rfl⟩
    rw [sendChunks, fillTo, if_pos (by rw [chunkLimit_mebibyteChunks, hblock])]
    apply Runs.bind hreads
    simp only [hne, dite_false, chunkLimit_mebibyteChunks, hblock, min_self, Nat.zero_add]
    rw [hempty, List.take_of_length_le (by omega)]
    exact Runs.bind hchunk hlast
  have hput : (transferWithAuthRetry uploadCrates "finish blob upload" Fetched.status
      Fetched.headers (transferCall (.putFinish uploadUrl
        (ContentDigest.fromBytes uploadCrates.toCrates block).val)
        (readReply fun _ => .ok []))).Runs
      [(.putFinish uploadUrl (ContentDigest.fromBytes uploadCrates.toCrates block).val,
        plainReply 201)] (.ok ⟨201, [], []⟩) :=
    runs_transferOnce rfl (by decide)
  have hfinish : (finishUpload uploadCrates uploadUrl (endedStream uploadCrates.toCrates block)).Runs
      [(.putFinish uploadUrl (ContentDigest.fromBytes uploadCrates.toCrates block).val,
        plainReply 201)]
      (.ok (ContentDigest.fromBytes uploadCrates.toCrates block, UInt64.ofNat block.length)) :=
    Runs.ofExcept_bind rfl
      (Runs.bind hput (Runs.ofExcept_bind (ensure_of _ (by decide)) ⟨rfl, rfl⟩))
  unfold uploadStream blockFinish
  rw [show ∀ a b : UploadRequest × Reply, patches ++ [a, b] = (patches ++ [a]) ++ [b] by simp]
  exact Runs.bind hsend (runs_onSession_ok.mpr hfinish)

theorem runs_challengedPatches (block : Bytes) :
    (requestPatchChunkWithAuthRetry uploadCrates uploadUrl block (0, 1048575)).Runs
      (challengedPatches block) (.ok ⟨202, [], none, none⟩) := by
  have hfirst : (transferCall (blockPatch block) readChunkReply).Runs
      [(blockPatch block, .ok ⟨401, challengeHeaders, []⟩)]
      (.ok ⟨401, challengeHeaders, none, none⟩) :=
    runs_transferCall.mpr ⟨_, rfl, rfl⟩
  have hsecond : (transferCall (blockPatch block) readChunkReply).Runs
      [(blockPatch block, plainReply 202)] (.ok ⟨202, [], none, none⟩) :=
    runs_transferCall.mpr ⟨_, rfl, rfl⟩
  have hrefresh : (transportSend (.refreshToken ⟨"https://cache.example/token", none, none⟩)).Runs
      [(.refreshToken ⟨"https://cache.example/token", none, none⟩, plainReply 200)]
      (.ok ⟨200, [], []⟩) :=
    runs_transportCall.mpr ⟨_, rfl, rfl⟩
  have htoken : (requestChallengeForResponse uploadCrates "upload blob chunk"
      challengeHeaders).Runs
      [(.refreshToken ⟨"https://cache.example/token", none, none⟩, plainReply 200)] (.ok ()) :=
    Runs.ofExcept_bind rfl (Runs.ofExcept_bind rfl (Runs.bind hrefresh ⟨rfl, rfl⟩))
  have hagain : (do
      let second ← transferCall (blockPatch block) readChunkReply
      Action.ofExcept <| ensure (second.status ≠ 401) (.authenticationFailed "upload blob chunk"
        second.status "Bearer challenge retry was rejected")
      pure second : Transfer UploadChunkResponse).Runs [(blockPatch block, plainReply 202)]
      (.ok ⟨202, [], none, none⟩) :=
    Runs.bind hsecond (Runs.ofExcept_bind (ensure_of _ (by decide)) ⟨rfl, rfl⟩)
  exact Runs.bind hfirst (Runs.bind (Runs.embed UploadRequest.other htoken) hagain)

theorem runs_uploadChunk_challenged (hblock : block.length = 1048576) :
    (uploadChunkWithRetry uploadCrates uploadClient (mebibyteChunks 0) uploadUrl block 0).Runs
      (challengedPatches block) (.ok uploadUrl) := by
  have hsend : (sendChunk uploadCrates uploadClient (mebibyteChunks 0) block 0 1048575
      { sessionUrl := uploadUrl, remoteNext := 0 }).Runs (challengedPatches block)
      (.ok (.advanced { sessionUrl := uploadUrl, remoteNext := 1048576, patchAttempts := 1 })) :=
    Runs.bind (runs_attempt.mpr ⟨_, rfl, runs_challengedPatches block⟩) ⟨rfl, rfl⟩
  have hretry : (retryChunk uploadCrates uploadClient (mebibyteChunks 0) block 0 1048575 1
      { sessionUrl := uploadUrl, remoteNext := 0 }).Runs (challengedPatches block)
      (.ok uploadUrl) := by
    rw [retryChunk, if_neg (by decide)]
    exact Runs.bind hsend ⟨rfl, rfl⟩
  have hensure : (onSession uploadUrl (Action.ofExcept (ensure (0 + 1048576 < 18446744073709551616 ∧
      0 < 0 + 1048576) (invalidUploadRange "chunk end offset overflowed")))).Runs [] (.ok ()) :=
    runs_onSession_ok.mpr ⟨rfl, rfl⟩
  unfold uploadChunkWithRetry
  rw [hblock]
  exact Runs.bind hensure hretry

/-- The whole run with the challenge. -/
theorem runs_challenged (hblock : block.length = 1048576) :
    (pushResumable uploadCrates uploadClient (mebibyteChunks 0) [.ok block]).Runs
      (blockStart block ++ ((challengedPatches block ++ blockFinish block) ++ []))
      (.ok (ContentDigest.fromBytes uploadCrates.toCrates block, UInt64.ofNat block.length)) :=
  runs_pushResumable_block hblock (runs_pure.mpr ⟨rfl, rfl⟩)
    (runs_uploadStream_block hblock (runs_uploadChunk_challenged hblock))

/-- A registry that refuses the first PATCH takes part in it. -/
theorem follows_challenged (block : Bytes) :
    ∃ after, Follows (Sessions.Step uploadCrates uploadClient fun _ => 0) (fun _ => [])
      (blockStart block ++ ((challengedPatches block ++ blockFinish block) ++ [])) after := by
  have hopened : openedUrl uploadCrates uploadClient openedReply = some uploadUrl := by decide
  have hopen : Sessions.Step uploadCrates uploadClient (fun _ => 0) (fun _ => [])
      (.other .postUpload, openedReply) fun _ => [] := by
    simp [Sessions.Step, hopened]
  have hrefused : Sessions.Step uploadCrates uploadClient (fun _ => 0) (fun _ => [])
      (blockPatch block, .ok ⟨401, challengeHeaders, []⟩) fun _ => [] := by
    refine ⟨⟨[], List.nil_prefix, fun h => absurd rfl h, by simp⟩, ?_⟩
    rintro _ ⟨rfl⟩
    have hrange : reportedRange challengeHeaders = none := by decide
    exact ⟨fun _ _ => rfl, fun reported h => by simp [hrange] at h, fun h => by simp [isSuccess] at h⟩
  have hstored : Sessions.Step uploadCrates uploadClient (fun _ => 0) (fun _ => [])
      (blockPatch block, plainReply 202) (Function.update (fun _ => []) 0 block) := by
    refine ⟨⟨block, List.prefix_rfl, fun _ => rfl, by simp⟩, ?_⟩
    rintro _ ⟨rfl⟩
    exact ⟨fun _ _ => rfl, fun reported h => by simp [reportedRange, HeaderMap.get] at h,
      fun _ _ => by simp⟩
  exact ⟨_, _, rfl, _, hopen, _, hrefused, _, rfl, _, hstored, _, rfl, _, rfl, rfl⟩

/-- Without retries, a chunk is still sent in two PATCH requests when the first is answered with a
challenge. -/
theorem challenged_patch_sent_twice :
    ∃ trace digest size after,
      (pushResumable uploadCrates uploadClient (mebibyteChunks 0) [.ok mebibyte]).Runs trace
        (.ok (digest, size)) ∧
      Follows (Sessions.Step uploadCrates uploadClient fun _ => 0) (fun _ => []) trace after ∧
      (mebibyteChunks 0).maxRetryAttempts.toNat + 1 < trace.countP (isPatchOf 1048575) := by
  obtain ⟨after, hfollows⟩ := follows_challenged mebibyte
  refine ⟨_, _, _, after, runs_challenged length_mebibyte, hfollows, ?_⟩
  generalize mebibyte = block
  simp [blockStart, challengedPatches, blockFinish, isPatchOf, blockPatch, mebibyteChunks]

/-- The theorem on that run. -/
theorem pushResumable_faithful_mebibyte :
    ∃ trace digest size,
      (pushResumable uploadCrates uploadClient (mebibyteChunks 0) [.ok mebibyte]).Runs trace
        (.ok (digest, size)) ∧
      (∃ after, Follows (Sessions.Step uploadCrates uploadClient fun _ => 0) (fun _ => []) trace
        after) ∧
      ∃ chunks : List Bytes, [.ok mebibyte] = chunks.map (Except.ok : Bytes → BodyItem) ∧
        Faithful uploadCrates uploadClient (mebibyteChunks 0) (fun _ => 0) (fun _ => [])
          chunks.flatten trace digest size :=
  ⟨_, _, _, runs_challenged length_mebibyte, follows_challenged mebibyte,
    pushResumable_faithful (runs_challenged length_mebibyte)⟩

end

end NixCache.Oci
