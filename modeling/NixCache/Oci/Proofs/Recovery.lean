import NixCache.Oci.Proofs.Faithful
/-!
# Resumable uploads recover

Against a registry with the convention of Docker Distribution, the offset of the client is that of
the registry before every PATCH, unless a failure leaves the session empty: then `0-0` is read as
one byte.  With the offsets equal, every failure within the retry budget is recovered from.
-/

namespace NixCache.Oci

open NixCache.Lib NixCache.Lib.Result NixCache.Core NixCache.Lib.Action
open Program (Trace Follows)

variable {X : OciCrates} {client : OciClient} {config : UploadConfig} {session : String → Nat}

/-! ## Requests that are served -/

namespace Docker

variable {docker after : Docker} {trace : Trace UploadRequest Reply}

theorem step_refreshToken {challenge : BearerChallenge} {reply : Reply}
    (h : Step X client session docker (.other (.refreshToken challenge), reply) after) :
    after = ⟨docker.sessions, true⟩ ∧
      ∃ response, reply = .ok response ∧ isSuccess response.status = true :=
  h

/-- The requests of an upload beside the fetch of a token. -/
def IsUse (request : UploadRequest) : Prop := ∀ challenge, request ≠ .other (.refreshToken challenge)

theorem step_use {request : UploadRequest} {reply : Reply} (huse : IsUse request)
    (h : Step X client session docker (request, reply) after) :
    (docker.fresh = false ∧ after = docker ∧ Challenges X client request reply) ∨
      Serves X client session docker.sessions request reply after.sessions := by
  unfold Step at h
  split at h
  · rename_i challenge hrequest
    exact absurd hrequest (huse challenge)
  · exact h

/-- A request that is served is not answered with a challenge. -/
theorem status_of_serves {before after : Sessions} {request : UploadRequest} {response : Response}
    (h : Serves X client session before request (.ok response) after) : response.status ≠ 401 := by
  intro hstatus
  unfold Serves at h
  split at h
  · obtain ⟨_, ⟨htransient, _⟩ | ⟨response', hresponse, ⟨hsuccess, _⟩ | ⟨h416, _⟩⟩⟩ := h
    · simp [isTransient, retryableStatus, hstatus] at htransient
    · obtain rfl := Except.ok.inj hresponse
      simp [isSuccess, hstatus] at hsuccess
    · obtain rfl := Except.ok.inj hresponse
      simp [hstatus] at h416
  · obtain ⟨_, response', hresponse, hsuccess, _⟩ := h
    obtain rfl := Except.ok.inj hresponse
    simp [isSuccess, hstatus] at hsuccess
  · obtain ⟨_, response', hresponse, hfinal⟩ := h
    obtain rfl := Except.ok.inj hresponse
    rw [hstatus] at hfinal
    split at hfinal <;> simp at hfinal
  · obtain ⟨url, hopened, _⟩ := h
    simp [openedUrl, isSuccess, hstatus] at hopened
  · obtain ⟨_, response', hresponse, hfinal⟩ := h
    obtain rfl := Except.ok.inj hresponse
    simp [hstatus] at hfinal
  · obtain ⟨_, response', hresponse, hfinal⟩ := h
    obtain rfl := Except.ok.inj hresponse
    simp [hstatus] at hfinal
  · exact h.2 response rfl hstatus

/-- The challenge of a 401 is answered with a token. -/
theorem follows_challenge {operation : String} {headers : HeaderMap} {challenge : BearerChallenge}
    {result : Except OciError Unit}
    (hparse : X.parseWwwAuthenticate headers = .ok (some challenge))
    (hruns : (Exchange.transfer (requestChallengeForResponse X operation headers)).Runs trace result)
    (hfollows : Follows (Step X client session) docker trace after) :
    result = .ok () ∧ after = ⟨docker.sessions, true⟩ := by
  unfold requestChallengeForResponse at hruns
  simp only [Exchange.transfer, Action.embed_bind, Action.embed_ofExcept] at hruns
  rw [hparse] at hruns
  change Runs (Exchange.transfer (transportCall (.refreshToken challenge) fun _ => .ok []) >>= _)
    trace result at hruns
  rw [transfer_transportCall] at hruns
  rcases Action.runs_bind.mp hruns with ⟨first, rest, token, rfl, hcall, hrest⟩ | ⟨error, rfl, hcall⟩
  · obtain ⟨reply, rfl, hread⟩ := runs_transferCall.mp hcall
    obtain ⟨rfl, rfl⟩ := hrest
    obtain ⟨middle, hstep, rfl⟩ := hfollows
    obtain ⟨rfl, response, rfl, hsuccess⟩ := step_refreshToken hstep
    obtain ⟨_, ⟨rfl⟩, hstatus, _⟩ := readReply_eq_ok.mp hread.symm
    exact ⟨ensure_of _ (hstatus ▸ hsuccess), rfl⟩
  · obtain ⟨reply, rfl, hread⟩ := runs_transferCall.mp hcall
    obtain ⟨middle, hstep, rfl⟩ := hfollows
    obtain ⟨rfl, response, rfl, hsuccess⟩ := step_refreshToken hstep
    exact absurd hread (by simp [readReply, Result.mapErr, bind, Except.bind, pure, Except.pure])

/-- The steps of the registry that also satisfy `K`. -/
def StepWith (X : OciCrates) (client : OciClient) (session : String → Nat)
    (K : UploadRequest × Reply → Docker → Prop) (before : Docker) (event : UploadRequest × Reply)
    (after : Docker) : Prop :=
  Step X client session before event after ∧ K event after

variable {K : UploadRequest × Reply → Docker → Prop}

theorem follows_step (h : Follows (StepWith X client session K) docker trace after) :
    Follows (Step X client session) docker trace after := by
  induction trace generalizing docker with
  | nil => exact h
  | cons event rest ih =>
      obtain ⟨middle, hstep, hrest⟩ := h
      exact ⟨middle, hstep.1, ih hrest⟩

/-- What is read from a response carries its status and its headers. -/
structure ReadsResponse {α : Type} (client : OciClient) (request : UploadRequest)
    (status : α → StatusCode) (headers : α → HeaderMap) (read : Reply → Except OciError α) : Prop where
  ok : ∀ reply value, read reply = .ok value →
    ∃ response, reply = .ok response ∧ status value = response.status ∧
      headers value = response.headers
  challenge : ∀ response : Response, response.headers.get "range" = none →
    (∀ url, request = .probe url →
      ∃ body, collectBody url client.limits.maxManifestBytes response = .ok body) →
    ∃ value, read (.ok response) = .ok value

/-- A request is served in the end: once, or again after a challenge was answered. -/
theorem runs_served {α : Type} {operation : String} {status : α → StatusCode}
    {headers : α → HeaderMap} {request : UploadRequest} {read : Reply → Except OciError α}
    {result : Except OciError α} (huse : IsUse request)
    (hreads : ReadsResponse client request status headers read)
    (hruns : (transferWithAuthRetry X operation status headers (transferCall request read)).Runs
      trace result)
    (hfollows : Follows (StepWith X client session K) docker trace after) :
    ∃ before reply, trace = before ++ [(request, reply)] ∧ read reply = result ∧
      Serves X client session docker.sessions request reply after.sessions ∧
      K (request, reply) after ∧
      ∀ event ∈ before, IsTokenEvent event ∨ isUnauthorized event = true := by
  have hchallenged : ∀ {reply : Reply}, Challenges X client request reply →
      ∃ value response challenge, reply = .ok response ∧ read reply = .ok value ∧
        status value = 401 ∧
        X.parseWwwAuthenticate (headers value) = .ok (some challenge) := by
    rintro reply ⟨response, challenge, rfl, hstatus, hparse, hrange, hbody⟩
    obtain ⟨value, hvalue⟩ := hreads.challenge response hrange hbody
    obtain ⟨_, ⟨rfl⟩, hstatus', hheaders⟩ := hreads.ok _ _ hvalue
    exact ⟨value, response, challenge, rfl, hvalue, by rw [hstatus', hstatus], by rw [hheaders, hparse]⟩
  have hserved : ∀ {reply : Reply} {before after : Sessions} {value : α},
      Serves X client session before request reply after → read reply = .ok value →
        status value ≠ 401 := by
    intro reply before after value hserves hvalue
    obtain ⟨response, rfl, hstatus, _⟩ := hreads.ok _ _ hvalue
    rw [hstatus]
    exact status_of_serves hserves
  rcases runs_transferWithAuthRetry hruns with ⟨reply, rfl, hread, hnot⟩ |
    ⟨reply, value, token, challenged, hread, hstatus, htoken, hcases⟩
  · obtain ⟨_, ⟨hstep, hK⟩, rfl⟩ := hfollows
    rcases step_use huse hstep with ⟨_, _, hchallenge⟩ | hserves
    · obtain ⟨value, _, _, _, hvalue, hstatus, _⟩ := hchallenged hchallenge
      exact absurd hstatus (hnot value (by rw [← hread, hvalue]))
    · exact ⟨[], reply, rfl, hread, hserves, hK, by simp⟩
  · have hrefused : ∃ challenge response, reply = .ok response ∧ response.status = 401 ∧
        X.parseWwwAuthenticate (headers value) = .ok (some challenge) ∧
        ∃ rest, trace = (request, reply) :: rest ∧
          Follows (StepWith X client session K) docker rest after := by
      have htrace : ∃ rest, trace = (request, reply) :: rest := by
        rcases hcases with ⟨_, _, _, h⟩ | ⟨_, h, _⟩
        · exact ⟨_, h⟩
        · exact ⟨_, h⟩
      obtain ⟨rest, rfl⟩ := htrace
      obtain ⟨middle, ⟨hstep, _⟩, hrest⟩ := hfollows
      rcases step_use huse hstep with ⟨_, rfl, hchallenge⟩ | hserves
      · obtain ⟨value', response, challenge, rfl, hvalue, hstatus', hparse⟩ := hchallenged hchallenge
        obtain rfl := Except.ok.inj (hread.symm.trans hvalue)
        obtain ⟨_, ⟨rfl⟩, hsame, _⟩ := hreads.ok _ _ hvalue
        exact ⟨challenge, response, rfl, by rw [← hsame, hstatus'], hparse, rest, rfl, hrest⟩
      · exact absurd hstatus (hserved hserves hread)
    obtain ⟨challenge, response, rfl, h401, hparse, rest, rfl, hrest⟩ := hrefused
    rcases hcases with ⟨error, _, rfl, htrace⟩ | ⟨again, htrace, hagain⟩
    · obtain ⟨_, rfl⟩ := List.cons.inj htrace
      have hok := (follows_challenge hparse htoken (follows_step hrest)).1
      simp at hok
    · obtain ⟨_, rfl⟩ := List.cons.inj htrace
      obtain ⟨middle, hfirst, _, ⟨hstep, hK⟩, rfl⟩ := Program.follows_append.mp hrest
      obtain ⟨_, rfl⟩ := follows_challenge hparse htoken (follows_step hfirst)
      rcases step_use huse hstep with ⟨hfresh, _⟩ | hserves
      · simp at hfresh
      · refine ⟨(request, .ok response) :: token, again, rfl, ?_, hserves, hK, ?_⟩
        · rcases hagain with ⟨hread', _⟩ | ⟨_, value', _, hvalue', hstatus'⟩
          · exact hread'
          · exact absurd hstatus' (hserved hserves hvalue')
        · intro event hevent
          rcases List.mem_cons.mp hevent with rfl | hevent
          · exact Or.inr (by simp [isUnauthorized, h401])
          · exact Or.inl (runs_challenge htoken event hevent)

/-- What the transport returns for the response to a PATCH. -/
def answerOf (response : Response) : UploadChunkResponse :=
  ⟨response.status, response.headers, (response.headers.get "location").bind headerText,
    reportedRange response.headers⟩

theorem readRange_ok {ε : Type} {notText : ε} {invalid : String → ε} {headers : HeaderMap}
    (h : headers.get "range" = none ∨ ∃ range, reportedRange headers = some range) :
    readRange notText invalid headers = .ok (reportedRange headers) := by
  unfold readRange reportedRange at *
  cases hget : headers.get "range" with
  | none => rfl
  | some value =>
      rw [hget] at h
      obtain ⟨range, hrange⟩ := h.resolve_left (by simp)
      obtain ⟨text, htext, hparse⟩ := Option.bind_eq_some_iff.mp hrange
      have htext : headerText value = some text := htext
      simp [htext, hparse, okOr, bind, Except.bind, pure, Except.pure]

theorem readChunkReply_ok {response : Response}
    (h : response.headers.get "range" = none ∨ ∃ range, reportedRange response.headers = some range) :
    readChunkReply (.ok response) = .ok (answerOf response) := by
  unfold readChunkReply
  change Result.mapErr OciError.ofTransport (readRange _ _ response.headers >>= _) = _
  rw [readRange_ok h]
  rfl

theorem readsResponse_chunk {url : String} {range : Nat × Nat} {body : Bytes} :
    ReadsResponse client (.patchChunk url range body) UploadChunkResponse.status
      UploadChunkResponse.headers readChunkReply where
  ok reply answer h := by
    obtain ⟨response, rfl, hstatus, hheaders, _⟩ := readChunkReply_eq_ok h
    exact ⟨response, rfl, hstatus, hheaders⟩
  challenge response hrange _ := ⟨_, readChunkReply_ok (Or.inl hrange)⟩

theorem readsResponse_send {request : UploadRequest} :
    ReadsResponse client request Fetched.status Fetched.headers (readReply fun _ => .ok []) where
  ok reply fetched h := by
    obtain ⟨response, rfl, hstatus, hheaders, _⟩ := readReply_eq_ok.mp h
    exact ⟨response, rfl, hstatus, hheaders⟩
  challenge response _ _ := ⟨⟨response.status, response.headers, []⟩, rfl⟩

theorem readsResponse_probe {url : String} :
    ReadsResponse client (.probe url) Fetched.status Fetched.headers
      (readReply (collectBody url client.limits.maxManifestBytes)) where
  ok reply fetched h := by
    obtain ⟨response, rfl, hstatus, hheaders, _⟩ := readReply_eq_ok.mp h
    exact ⟨response, rfl, hstatus, hheaders⟩
  challenge response _ hbody := by
    obtain ⟨body, hbody⟩ := hbody url rfl
    exact ⟨⟨response.status, response.headers, body⟩,
      readReply_eq_ok.mpr ⟨response, rfl, rfl, rfl, hbody⟩⟩

/-! ## One chunk -/

/-- A PATCH of the chunk whose last byte is at `last` that failed for the time being. -/
def isInterruptedOf (last : Nat) (event : UploadRequest × Reply) : Bool :=
  isPatchOf last event && isTransient event.2

/-- No failure leaves the session empty. -/
def KeepsSome (session : String → Nat) (event : UploadRequest × Reply) (after : Docker) : Prop :=
  ∀ url range body, event.1 = .patchChunk url range body → isTransient event.2 = true →
    after.sessions (session url) ≠ []

/-- The offset of the client is that of the session, which holds what was sent before and a part of
the chunk. -/
structure InSync (session : String → Nat) (id : Nat) (sent chunk : Bytes) (state : ChunkState)
    (sessions : Sessions) : Prop where
  same : session state.sessionUrl = id
  clean : state.probed416 = false
  held : ∃ n ≤ chunk.length, sessions id = sent ++ chunk.take n ∧
    state.remoteNext = sent.length + n

theorem not_success_of_retryable {status : Nat} (h : retryableStatus status = true) :
    isSuccess status = false ∧ status ≠ 416 := by
  have hcases : status = 408 ∨ status = 425 ∨ status = 429 ∨ (500 ≤ status ∧ status < 600) :=
    of_decide_eq_true h
  have hnot : ¬ (200 ≤ status ∧ status < 300) := by omega
  exact ⟨decide_eq_false hnot, by omega⟩

section

variable {chunkStart chunkEnd : Nat} (state : ChunkState) {response : Response} {url : String}

/-- What the client makes of a response that asks to try again. -/
theorem handleChunkResponse_interrupted
    (hurl : updateLocation X client state.sessionUrl response.headers = .ok url)
    (hretry : retryableStatus response.status = true)
    (hbudget : state.retryCount < config.maxRetryAttempts.toNat) :
    handleChunkResponse X client config chunkStart chunkEnd state (answerOf response) =
      pure (.interrupted { state with sessionUrl := url } (.blobUploadFailed response.status)) := by
  obtain ⟨hsuccess, h416⟩ := not_success_of_retryable hretry
  have hretry' : retryableError (.blobUploadFailed response.status) = true := hretry
  unfold handleChunkResponse answerOf
  rw [onSession_ok_bind hurl, onSession_ok_bind (location_again rfl hurl)]
  simp [hsuccess, h416, hretry', Nat.not_le.mpr hbudget]

/-- What the client makes of a success. -/
theorem handleChunkResponse_advanced {next : Nat}
    (hurl : updateLocation X client state.sessionUrl response.headers = .ok url)
    (hsuccess : isSuccess response.status = true)
    (hnext : responseNextOffset (reportedRange response.headers) chunkStart state.remoteNext
      chunkEnd = .ok next) :
    handleChunkResponse X client config chunkStart chunkEnd state (answerOf response) =
      pure (.advanced { state with sessionUrl := url, remoteNext := next }) := by
  unfold handleChunkResponse answerOf
  rw [onSession_ok_bind hurl, onSession_ok_bind (location_again rfl hurl)]
  simp only [hsuccess, if_true]
  rw [onSession_ok_bind hnext]

theorem handleChunkError_interrupted {error : OciError} (hretry : retryableError error = true)
    (hbudget : state.retryCount < config.maxRetryAttempts.toNat) :
    handleChunkError config state error = pure (.interrupted state error) := by
  simp [handleChunkError, hretry, Nat.not_le.mpr hbudget]

end

section

variable {id : Nat} {sent chunk : Bytes} {state : ChunkState} {chunkEnd : Nat}

/-- Only the last PATCH of an attempt can count as interrupted. -/
theorem countP_attempt {before : Trace UploadRequest Reply} {event : UploadRequest × Reply}
    (hbefore : ∀ event ∈ before, IsTokenEvent event ∨ isUnauthorized event = true) :
    (before ++ [event]).countP (isInterruptedOf chunkEnd) =
      if isInterruptedOf chunkEnd event = true then 1 else 0 := by
  have hzero : before.countP (isInterruptedOf chunkEnd) = 0 := by
    rw [List.countP_eq_zero]
    rintro ⟨request, reply⟩ hevent hcounted
    simp only [isInterruptedOf, Bool.and_eq_true] at hcounted
    rcases hbefore _ hevent with htoken | h401
    · rw [isPatchOf_token htoken] at hcounted
      simp at hcounted
    · cases reply with
      | error error => simp [isUnauthorized] at h401
      | ok response =>
          have hstatus : response.status = 401 := by simpa [isUnauthorized] using h401
          simp [isTransient, hstatus, retryableStatus] at hcounted
  rw [List.countP_append, hzero, List.countP_singleton, Nat.zero_add]

/-- A PATCH in step with the registry completes the chunk or is interrupted, and then the session
holds a part of the chunk that is not behind the offset. -/
theorem InSync.sendChunk {result : Except SessionFailure PatchOutcome}
    (h : InSync session id sent chunk state docker.sessions)
    (hend : chunkEnd + 1 = sent.length + chunk.length) (hnext : state.remoteNext ≤ chunkEnd)
    (hsmall : sent.length + chunk.length < 18446744073709551616)
    (hbudget : state.retryCount + trace.countP (isInterruptedOf chunkEnd) ≤
      config.maxRetryAttempts.toNat)
    (hruns : (sendChunk X client config chunk sent.length chunkEnd state).Runs trace result)
    (hfollows : Follows (StepWith X client session (KeepsSome session)) docker trace after) :
    (∃ next, result = .ok (.advanced next) ∧ chunkEnd < next.remoteNext ∧
        session next.sessionUrl = id ∧ after.sessions id = sent ++ chunk) ∨
      ∃ next error n, result = .ok (.interrupted next error) ∧
        trace.countP (isInterruptedOf chunkEnd) = 1 ∧ next.retryCount = state.retryCount ∧
        next.probed416 = false ∧ next.remoteNext = state.remoteNext ∧
        session next.sessionUrl = id ∧ after.sessions id ≠ [] ∧ n ≤ chunk.length ∧
        after.sessions id = sent ++ chunk.take n ∧ state.remoteNext ≤ sent.length + n := by
  obtain ⟨n, hn, hheld, hremote⟩ := h.held
  have hlength : (docker.sessions id).length = sent.length + n := by
    rw [hheld, List.length_append, List.length_take, min_eq_left hn]
  have hdrop : state.remoteNext - sent.length = n := by omega
  rcases Action.runs_bind.mp hruns with ⟨call, tail, outcome, rfl, hattempt, htail⟩ |
    ⟨error, _, hattempt⟩
  swap
  · obtain ⟨_, herror, _⟩ := Action.runs_attempt.mp hattempt
    simp at herror
  obtain ⟨_, houtcome, hcall⟩ := Action.runs_attempt.mp hattempt
  obtain rfl := Except.ok.inj houtcome
  obtain ⟨middle, hfirst, hlast⟩ := Program.follows_append.mp hfollows
  obtain ⟨before, reply, rfl, hread, ⟨hdescribes, hserves⟩, hkeeps, hbefore⟩ :=
    runs_served (by intro challenge; simp) readsResponse_chunk hcall hfirst
  rw [h.same] at hdescribes hserves
  rw [hdrop] at hserves
  rcases hserves with ⟨htransient, kept, hleading, _, hkept⟩ | ⟨response, rfl, hdone⟩
  · -- the response is lost, or asks to try again
    right
    have hcount : (before ++ [(patchRequest chunk sent.length chunkEnd state, reply)]).countP
        (isInterruptedOf chunkEnd) = 1 := by
      rw [countP_attempt hbefore, if_pos (by simp [isInterruptedOf, isPatchOf, htransient])]
    have hbudget' : state.retryCount < config.maxRetryAttempts.toNat := by
      rw [List.countP_append, hcount] at hbudget
      omega
    have hattempted : ({ state with patchAttempts := state.patchAttempts + 1 } :
        ChunkState).retryCount < config.maxRetryAttempts.toNat := hbudget'
    have hcontent : middle.sessions id = sent ++ chunk.take (n + kept.length) := by
      rw [hkept, Function.update_self, hheld, List.append_assoc, List.take_add,
        ← List.prefix_iff_eq_take.mp hleading]
    have hle : n + kept.length ≤ chunk.length := by
      have hlen := hleading.length_le
      rw [List.length_drop] at hlen
      omega
    have hsome : middle.sessions id ≠ [] := by
      have hsome := hkeeps _ _ _ rfl htransient
      rwa [h.same] at hsome
    have hresult : ∃ next error, tail = [] ∧ result = .ok (.interrupted next error) ∧
        next.retryCount = state.retryCount ∧ next.probed416 = false ∧
        next.remoteNext = state.remoteNext ∧ session next.sessionUrl = id := by
      cases reply with
      | error error =>
          obtain rfl : outcome = .error (OciError.ofTransport error) := hread.symm
          have hpure : (handleChunkError config { state with patchAttempts := state.patchAttempts + 1 }
              (OciError.ofTransport error)).Runs tail result := htail
          rw [handleChunkError_interrupted _ htransient hattempted] at hpure
          obtain ⟨rfl, rfl⟩ := hpure
          exact ⟨_, _, rfl, rfl, rfl, h.clean, rfl, h.same⟩
      | ok response =>
          obtain ⟨⟨url, hurl, hsame⟩, hrange⟩ := hdescribes response rfl
          rw [readChunkReply_ok (hrange.imp_right fun h => ⟨_, h⟩)] at hread
          obtain rfl := hread
          have hpure : (handleChunkResponse X client config sent.length chunkEnd
              { state with patchAttempts := state.patchAttempts + 1 } (answerOf response)).Runs tail
              result := htail
          rw [handleChunkResponse_interrupted { state with patchAttempts := state.patchAttempts + 1 }
            hurl htransient hattempted] at hpure
          obtain ⟨rfl, rfl⟩ := hpure
          exact ⟨_, _, rfl, rfl, rfl, h.clean, rfl, by rw [hsame, h.same]⟩
    obtain ⟨next, error, rfl, rfl, hretry, hclean, hremote', hsame⟩ := hresult
    obtain rfl := hlast
    exact ⟨next, error, n + kept.length, rfl, by rw [List.append_nil, hcount], hretry, hclean,
      hremote', hsame, hsome, hle, hcontent, by omega⟩
  · left
    rcases hdone with ⟨hsuccess, _, hcontent⟩ | ⟨_, hoffset, _⟩
    · have hall : middle.sessions id = sent ++ chunk := by
        rw [hcontent, Function.update_self, hheld, List.append_assoc, List.take_append_drop]
      obtain ⟨⟨url, hurl, hsame⟩, hrange⟩ := hdescribes response rfl
      rw [readChunkReply_ok (hrange.imp_right fun h => ⟨_, h⟩)] at hread
      obtain rfl := hread
      have hoffset : responseNextOffset (reportedRange response.headers) sent.length
          state.remoteNext chunkEnd = .ok (chunkEnd + 1) := by
        rcases hrange with hnone | hsome
        · rw [reportedRange, hnone]
          exact checkedNext_eq_ok.mpr ⟨by omega, rfl⟩
        · rw [hsome, hall, rangeOf, List.length_append, ← hend]
          simp only [responseNextOffset, bind_eq_ok, ensure_eq_ok, checkedNext_eq_ok]
          exact ⟨(), by simp, (), by omega, (), by omega, by omega, by omega⟩
      have hpure : (handleChunkResponse X client config sent.length chunkEnd
          { state with patchAttempts := state.patchAttempts + 1 } (answerOf response)).Runs tail
          result := htail
      rw [handleChunkResponse_advanced { state with patchAttempts := state.patchAttempts + 1 } hurl
        hsuccess hoffset] at hpure
      obtain ⟨rfl, rfl⟩ := hpure
      obtain rfl := hlast
      exact ⟨_, rfl, Nat.lt_succ_self _, by rw [hsame, h.same], hall⟩
    · exact absurd (by rw [hlength]; exact hremote) hoffset

/-- What the client makes of a probe that reports the length of the session. -/
theorem handleProbe_inSync {headers : HeaderMap} {status : StatusCode} {url : String} {length : Nat}
    (chunkStart : Nat) (lastError : OciError)
    (hurl : updateLocation X client state.sessionUrl headers = .ok url)
    (hsuccess : isSuccess status = true) (hclean : state.probed416 = false) (hpos : 0 < length)
    (hle : length ≤ chunkEnd + 1) (hremote : state.remoteNext ≤ length)
    (hsmall : chunkEnd + 1 < 18446744073709551616)
    (hbudget : state.retryCount < config.maxRetryAttempts.toNat) :
    ∃ next, handleProbe X client config chunkStart chunkEnd state lastError
        (status, headers, some (rangeOf length)) = pure next ∧
      next.sessionUrl = url ∧ next.remoteNext = length ∧ next.probed416 = false ∧
      (chunkEnd < length ∨ next.retryCount = state.retryCount + 1) := by
  have hnext : probeNextOffset (some (rangeOf length)) chunkStart state.remoteNext chunkEnd =
      .ok (some length) := by
    simp only [rangeOf, probeNextOffset, bind_eq_ok, ensure_eq_ok, checkedNext_eq_ok, pure_eq_ok]
    exact ⟨(), by simp, (), ensure_of _ (by omega), length, ⟨by omega, by omega⟩, (), hremote, rfl⟩
  unfold handleProbe
  simp only [onSession_ok_bind hurl, hsuccess, hclean, not_true_eq_false, if_false,
    Bool.false_eq_true, false_and, onSession_ok_bind hnext, Option.getD_some, Option.isSome_some,
    true_and]
  by_cases hdone : chunkEnd < length
  · rw [if_pos hdone]
    exact ⟨_, rfl, rfl, rfl, rfl, Or.inl hdone⟩
  · rw [if_neg hdone, if_neg (Nat.not_le.mpr hbudget)]
    exact ⟨_, rfl, rfl, rfl, rfl, Or.inr rfl⟩

theorem runs_probeUploadSession {url : String}
    {result : Except OciError (StatusCode × HeaderMap × Option (Nat × Nat))}
    (hruns : (probeUploadSession X client url).Runs trace result)
    (hfollows : Follows (StepWith X client session K) docker trace after) :
    after.sessions = docker.sessions ∧ ∃ response, isSuccess response.status = true ∧
      Describes X client session url (docker.sessions (session url)) response ∧
      result = .ok (response.status, response.headers,
        some (rangeOf (docker.sessions (session url)).length)) := by
  unfold probeUploadSession at hruns
  rcases Action.runs_bind.mp hruns with ⟨call, tail, fetched, rfl, hcall, htail⟩ | ⟨error, rfl, hcall⟩
  · obtain ⟨middle, hfirst, hlast⟩ := Program.follows_append.mp hfollows
    obtain ⟨before, reply, rfl, hread, hserves, _, _⟩ :=
      runs_served (by intro challenge; simp) readsResponse_probe hcall hfirst
    obtain ⟨hsame, response, rfl, hsuccess, hdescribes, hreported, _⟩ := hserves
    obtain ⟨_, ⟨rfl⟩, hstatus, hheaders, _⟩ := readReply_eq_ok.mp hread
    have hrange : readRange (OciError.transport (.headerParse "Range"))
        (fun text => invalidUploadRange ("cannot parse Range header '" ++ text ++ "'"))
        fetched.headers = .ok (some (rangeOf (docker.sessions (session url)).length)) := by
      rw [hheaders, readRange_ok (Or.inr ⟨_, hreported⟩), hreported]
    rw [hrange] at htail
    obtain ⟨rfl, rfl⟩ := htail
    obtain rfl := hlast
    exact ⟨hsame, response, hsuccess, hdescribes, by rw [hstatus, hheaders]⟩
  · obtain ⟨before, reply, rfl, hread, hserves, _, _⟩ :=
      runs_served (by intro challenge; simp) readsResponse_probe hcall hfollows
    obtain ⟨hsame, response, rfl, hsuccess, hdescribes, hreported, body, hbody⟩ := hserves
    have hok : readReply (collectBody url client.limits.maxManifestBytes) (.ok response) =
        .ok ⟨response.status, response.headers, body⟩ :=
      readReply_eq_ok.mpr ⟨response, rfl, rfl, rfl, hbody⟩
    rw [hok] at hread
    simp at hread

/-- A probe of a session that is not empty brings the client in step with it. -/
theorem runs_probeChunk_inSync {lastError : OciError} {result : Except SessionFailure ChunkState}
    {n : Nat} (hsame : session state.sessionUrl = id) (hclean : state.probed416 = false)
    (hn : n ≤ chunk.length) (hheld : docker.sessions id = sent ++ chunk.take n)
    (hsome : docker.sessions id ≠ []) (hremote : state.remoteNext ≤ sent.length + n)
    (hend : chunkEnd + 1 = sent.length + chunk.length)
    (hsmall : sent.length + chunk.length < 18446744073709551616)
    (hbudget : state.retryCount < config.maxRetryAttempts.toNat)
    (hruns : (probeChunk X client config sent.length chunkEnd state lastError).Runs trace result)
    (hfollows : Follows (StepWith X client session K) docker trace after) :
    ∃ next, result = .ok next ∧ InSync session id sent chunk next after.sessions ∧
      (chunkEnd < next.remoteNext ∨ next.retryCount = state.retryCount + 1) := by
  have hlength : (docker.sessions id).length = sent.length + n := by
    rw [hheld, List.length_append, List.length_take, min_eq_left hn]
  have hpos : 0 < (docker.sessions id).length := List.length_pos_iff.mpr hsome
  unfold probeChunk at hruns
  rcases Action.runs_bind.mp hruns with ⟨call, tail, probed, rfl, hcall, htail⟩ | ⟨error, rfl, hcall⟩
  · rw [Action.runs_mapErr_ok] at hcall
    obtain ⟨middle, hfirst, hlast⟩ := Program.follows_append.mp hfollows
    obtain ⟨hsessions, response, hsuccess, ⟨⟨url, hurl, hsame'⟩, _⟩, hprobed⟩ :=
      runs_probeUploadSession hcall hfirst
    obtain rfl := Except.ok.inj hprobed
    rw [hsame] at htail hsame'
    have hle : (docker.sessions id).length ≤ chunkEnd + 1 := by omega
    have hremote' : state.remoteNext ≤ (docker.sessions id).length := by omega
    have hsmall' : chunkEnd + 1 < 18446744073709551616 := by omega
    obtain ⟨next, hpure, hnextUrl, hnextRemote, hnextClean, hnext⟩ :=
      handleProbe_inSync sent.length lastError hurl hsuccess hclean hpos hle hremote' hsmall' hbudget
    rw [hpure] at htail
    obtain ⟨rfl, rfl⟩ := htail
    obtain rfl := hlast
    refine ⟨next, rfl, ⟨by rw [hnextUrl, hsame'], hnextClean, n, hn, ?_, ?_⟩, ?_⟩
    · rw [hsessions, hheld]
    · rw [hnextRemote, hlength]
    · rw [hnextRemote]
      exact hnext
  · obtain ⟨outcome, houtcome, hcall⟩ := Action.runs_mapErr.mp hcall
    obtain ⟨_, response, _, _, rfl⟩ := runs_probeUploadSession hcall hfollows
    simp [Result.mapErr] at houtcome

/-- A chunk is completed while its failures are within the budget. -/
theorem InSync.retryChunk {attempts : Nat} {result : Except SessionFailure String}
    (h : InSync session id sent chunk state docker.sessions)
    (hend : chunkEnd + 1 = sent.length + chunk.length)
    (hsmall : sent.length + chunk.length < 18446744073709551616)
    (hbudget : state.retryCount + trace.countP (isInterruptedOf chunkEnd) ≤
      config.maxRetryAttempts.toNat)
    (hattempts : trace.countP (isInterruptedOf chunkEnd) < attempts)
    (hruns : (retryChunk X client config chunk sent.length chunkEnd attempts state).Runs trace result)
    (hfollows : Follows (StepWith X client session (KeepsSome session)) docker trace after) :
    ∃ url, result = .ok url ∧ session url = id ∧ after.sessions id = sent ++ chunk := by
  have hdone : ∀ {state : ChunkState} {docker : Docker} {attempts : Nat}
      {trace : Trace UploadRequest Reply}, session state.sessionUrl = id →
      docker.sessions id = sent ++ chunk → chunkEnd < state.remoteNext →
      (NixCache.Oci.retryChunk X client config chunk sent.length chunkEnd attempts state).Runs trace
        result → Follows (StepWith X client session (KeepsSome session)) docker trace after →
      ∃ url, result = .ok url ∧ session url = id ∧ after.sessions id = sent ++ chunk := by
    intro state docker attempts trace hsame hheld hlt hruns hfollows
    unfold NixCache.Oci.retryChunk at hruns
    rw [if_pos hlt] at hruns
    obtain ⟨rfl, rfl⟩ := hruns
    obtain rfl := hfollows
    exact ⟨_, rfl, hsame, hheld⟩
  have hcomplete : ∀ {state : ChunkState} {sessions : Sessions},
      InSync session id sent chunk state sessions → chunkEnd < state.remoteNext →
      sessions id = sent ++ chunk := by
    intro state sessions hsync hlt
    obtain ⟨n, hn, hheld, hremote⟩ := hsync.held
    have hall : n = chunk.length := by omega
    rw [hheld, hall, List.take_length]
  induction attempts generalizing state docker trace with
  | zero => omega
  | succ attempts ih =>
      by_cases hlt : chunkEnd < state.remoteNext
      · exact hdone h.same (hcomplete h hlt) hlt hruns hfollows
      · unfold NixCache.Oci.retryChunk at hruns
        rw [if_neg hlt] at hruns
        rcases Action.runs_bind.mp hruns with ⟨first, rest, outcome, rfl, hsend, hrest⟩ |
          ⟨error, _, hsend⟩
        · obtain ⟨middle, hfirst, hlast⟩ := Program.follows_append.mp hfollows
          rw [List.countP_append] at hbudget hattempts
          rcases h.sendChunk hend (by omega) hsmall (by omega) hsend hfirst with
            ⟨next, houtcome, hlt', hsame, hall⟩ |
            ⟨next, error, n, houtcome, hcount, hretry, hclean, hremote, hsame, hsome, hn, hheld, hle⟩
          · obtain rfl := Except.ok.inj houtcome
            exact hdone hsame hall hlt' hrest hlast
          · obtain rfl := Except.ok.inj houtcome
            rcases Action.runs_bind.mp hrest with ⟨probe, rest', next', rfl, hprobe, hrest'⟩ |
              ⟨error', _, hprobe⟩
            · obtain ⟨middle', hprobed, hlast'⟩ := Program.follows_append.mp hlast
              obtain ⟨_, hnext', hsync, hbranch⟩ := runs_probeChunk_inSync hsame hclean hn hheld
                hsome (by omega) hend hsmall (by omega) hprobe hprobed
              obtain rfl := Except.ok.inj hnext'
              rw [List.countP_append] at hbudget hattempts
              rcases hbranch with hlt' | hretry'
              · exact hdone hsync.same (hcomplete hsync hlt') hlt' hrest' hlast'
              · exact ih hsync (by omega) (by omega) hrest' hlast'
            · obtain ⟨_, hnext', _⟩ := runs_probeChunk_inSync hsame hclean hn hheld hsome
                (by omega) hend hsmall (by omega) hprobe hlast
              simp at hnext'
        · rcases h.sendChunk hend (by omega) hsmall (by omega) hsend hfollows with
            ⟨_, houtcome, _⟩ | ⟨_, _, _, houtcome, _⟩
          · simp at houtcome
          · simp at houtcome

end

/-- The failures of every chunk are within the budget of the client. -/
def WithinBudget (config : UploadConfig) (trace : Trace UploadRequest Reply) : Prop :=
  ∀ last, trace.countP (isInterruptedOf last) < config.maxPatchAttempts

theorem WithinBudget.left {first rest : Trace UploadRequest Reply}
    (h : WithinBudget config (first ++ rest)) : WithinBudget config first := by
  intro last
  have hcount := h last
  rw [List.countP_append] at hcount
  omega

theorem WithinBudget.right {first rest : Trace UploadRequest Reply}
    (h : WithinBudget config (first ++ rest)) : WithinBudget config rest := by
  intro last
  have hcount := h last
  rw [List.countP_append] at hcount
  omega

theorem uploadChunk_recovers {id : Nat} {sent chunk : Bytes} {url : String}
    {result : Except SessionFailure String} (hid : session url = id)
    (hheld : docker.sessions id = sent) (hchunk : chunk ≠ [])
    (hsmall : sent.length + chunk.length < 18446744073709551616)
    (hbudget : WithinBudget config trace)
    (hruns : (uploadChunkWithRetry X client config url chunk sent.length).Runs trace result)
    (hfollows : Follows (StepWith X client session (KeepsSome session)) docker trace after) :
    ∃ url', result = .ok url' ∧ session url' = id ∧ after.sessions id = sent ++ chunk := by
  have hpos := List.length_pos_iff.mpr hchunk
  unfold uploadChunkWithRetry at hruns
  rw [onSession_ok_bind (ensure_of _ ⟨hsmall, by omega⟩)] at hruns
  have hstart : InSync session id sent chunk { sessionUrl := url, remoteNext := sent.length }
      docker.sessions :=
    ⟨hid, rfl, 0, Nat.zero_le _, by simpa using hheld, rfl⟩
  have hcount := hbudget (sent.length + chunk.length - 1)
  have hmax : config.maxPatchAttempts ≤ config.maxRetryAttempts.toNat + 1 := min_le_left _ _
  apply hstart.retryChunk (by omega) hsmall _ hcount hruns hfollows
  change 0 + _ ≤ _
  omega

end Docker

/-! ## Streams without errors -/

theorem HashingStream.ReadOf.length_le {X : Crates} {chunks : List Bytes} {stream : HashingStream}
    (h : stream.ReadOf X (chunks.map Except.ok)) :
    stream.hashed.length ≤ chunks.flatten.length := by
  obtain ⟨read, hbody, hhashed, _⟩ := h
  obtain ⟨first, rest, rfl, hfirst, _⟩ := List.map_eq_append_iff.mp hbody
  have hread : first = read := List.map_injective_iff.mpr (fun _ _ h => Except.ok.inj h) hfirst
  rw [hhashed, hread, List.flatten_append, List.length_append]
  omega

theorem readUntil_not_failed {X : Crates} {stop : Bytes → Bool} {chunks : List Bytes}
    {buffer : Bytes} {stream : HashingStream} (h : stream.ReadOf X (chunks.map Except.ok))
    (error : TransportError) : (readUntil X stop buffer stream).outcome ≠ .failed error := by
  fun_induction readUntil X stop buffer stream with
  | case1 buffer stream next _ => simp
  | case2 buffer stream error' next hpoll =>
      obtain ⟨read, hbody, _⟩ := h
      have hinner : stream.inner = .error error' :: next.inner := by
        unfold HashingStream.pollNext at hpoll
        split at hpoll <;> simp_all
        rw [← hpoll.2]
      have hmem : (.error error' : BodyItem) ∈ chunks.map Except.ok := by
        rw [hbody, hinner]
        simp
      simp at hmem
  | case3 buffer stream bytes next _ _ => simp
  | case4 buffer stream bytes next hpoll _ filled ih => exact ih (h.pollNext_ok hpoll).1

theorem fillTo_not_failed {X : Crates} {limit : Nat} {chunks : List Bytes} {buffer : Bytes}
    {stream : HashingStream} (h : stream.ReadOf X (chunks.map Except.ok)) (error : TransportError) :
    (fillTo X limit buffer stream).outcome ≠ .failed error := by
  unfold fillTo
  split
  · simp
  · exact readUntil_not_failed h error

namespace Docker

variable {docker after : Docker} {trace : Trace UploadRequest Reply}
  {K : UploadRequest × Reply → Docker → Prop}

theorem follows_reads {reads : List (Option BodyItem)}
    (hreads : trace.map Prod.fst = reads.map UploadRequest.readBody)
    (hfollows : Follows (StepWith X client session K) docker trace after) :
    after.sessions = docker.sessions := by
  apply hfollows.invariant (I := fun s => s.sessions = docker.sessions) rfl
  rintro s ⟨request, reply⟩ s' hevent ⟨hstep, _⟩ hs
  obtain ⟨item, rfl⟩ : ∃ item, request = .readBody item := exists_readBody_of_mem hreads hevent
  rcases step_use (by intro challenge; simp) hstep with ⟨_, rfl, _⟩ | hserves
  · exact hs
  · exact hserves.1.trans hs

/-- The reads of a loop do not fail, and the rest goes on from the same sessions. -/
theorem runs_recordReads_bind {α : Type} {url : String} {reads : List (Option BodyItem)}
    {next : Unit → SessionTransfer α} {result : Except SessionFailure α}
    (hruns : (onSession url (recordReads reads) >>= next).Runs trace result)
    (hfollows : Follows (StepWith X client session K) docker trace after) :
    ∃ first rest middle, trace = first ++ rest ∧
      first.map Prod.fst = reads.map UploadRequest.readBody ∧
      middle.sessions = docker.sessions ∧ (next ()).Runs rest result ∧
      Follows (StepWith X client session K) middle rest after := by
  rcases Action.runs_bind.mp hruns with ⟨first, rest, _, rfl, hreads, hrest⟩ | ⟨error, rfl, hreads⟩
  · obtain ⟨hreads, _⟩ := runs_recordReads (runs_onSession_ok.mp hreads)
    obtain ⟨middle, hfirst, hlast⟩ := Program.follows_append.mp hfollows
    exact ⟨first, rest, middle, rfl, hreads, follows_reads hreads hfirst, hrest, hlast⟩
  · obtain ⟨outcome, houtcome, hreads⟩ := Action.runs_mapErr.mp hreads
    obtain ⟨_, rfl⟩ := runs_recordReads hreads
    simp [Result.mapErr] at houtcome

/-- All chunks of a stream without errors are completed. -/
theorem sendChunks_recovers {chunks : List Bytes} {buffer sent : Bytes} {stream : HashingStream}
    {url : String} {offset id : Nat} {result : Except SessionFailure (HashingStream × String)}
    (hsmall : chunks.flatten.length < 18446744073709551616)
    (hread : stream.ReadOf X.toCrates (chunks.map Except.ok))
    (hhashed : stream.hashed = sent ++ buffer) (hoffset : offset = sent.length)
    (hid : session url = id) (hheld : docker.sessions id = sent)
    (hbudget : WithinBudget config trace)
    (hruns : (sendChunks X client config buffer stream url offset).Runs trace result)
    (hfollows : Follows (StepWith X client session (KeepsSome session)) docker trace after) :
    ∃ last url', result = .ok (last, url') ∧ last.Ended X.toCrates ∧ session url' = id ∧
      after.sessions id = last.hashed := by
  induction buffer, stream, url, offset using sendChunks_induction X config
    generalizing trace sent docker with
  | step buffer stream url offset ih =>
      generalize hfilled : fillTo X.toCrates config.chunkLimit buffer stream = filled at ih
      subst hoffset
      rw [sendChunks, hfilled] at hruns
      obtain ⟨reads, rest, middle, rfl, _, hmiddle, hrest, hlast⟩ :=
        runs_recordReads_bind hruns hfollows
      have hbudget := hbudget.right
      have hok : filled.outcome = .ended ∨ filled.outcome = .stopped := by
        cases houtcome : filled.outcome with
        | failed error =>
            rw [← hfilled] at houtcome
            exact absurd houtcome (fillTo_not_failed hread error)
        | ended => exact Or.inl rfl
        | stopped => exact Or.inr rfl
      obtain ⟨hreadOf, hall, hended⟩ := fillTo_reads_of_runs hfilled.symm hread hhashed hok
      have htotal : sent.length + filled.buffer.length < 18446744073709551616 := by
        have hle := hreadOf.length_le
        rw [hall, List.length_append] at hle
        omega
      rw [← hmiddle] at hheld
      rcases hok with houtcome | houtcome
      · obtain ⟨hstream, _⟩ := hended houtcome
        rw [houtcome] at hrest
        by_cases hempty : filled.buffer = []
        · simp only [hempty, if_true] at hrest
          obtain ⟨rfl, rfl⟩ := hrest
          obtain rfl := hlast
          rw [hempty, List.append_nil] at hall
          exact ⟨_, _, rfl, hstream, hid, by rw [hall, hheld]⟩
        · simp only [hempty, if_false] at hrest
          rcases Action.runs_bind.mp hrest with ⟨first, more, url₁, rfl, hupload, hmore⟩ |
            ⟨error, _, hupload⟩
          · obtain ⟨middle', hfirst, hmore'⟩ := Program.follows_append.mp hlast
            obtain ⟨url', hurl, hid', hafter⟩ :=
              uploadChunk_recovers hid hheld hempty htotal hbudget.left hupload hfirst
            obtain rfl := Except.ok.inj hurl
            obtain ⟨rfl, rfl⟩ := hmore
            obtain rfl := hmore'
            exact ⟨_, _, rfl, hstream, hid', by rw [hafter, hall]⟩
          · obtain ⟨_, hurl, _⟩ :=
              uploadChunk_recovers hid hheld hempty htotal hbudget hupload hlast
            simp at hurl
      · rw [houtcome] at hrest
        have hlimit : config.chunkLimit ≤ filled.buffer.length :=
          hfilled ▸ le_length_fillTo (hfilled.symm ▸ houtcome)
        have hpos := config.chunkLimit_pos
        have hempty : filled.buffer ≠ [] := List.ne_nil_of_length_pos (by omega)
        have htake : (filled.buffer.take config.chunkLimit).length = config.chunkLimit := by
          rw [List.length_take, min_eq_left hlimit]
        have hchunk : filled.buffer.take config.chunkLimit ≠ [] :=
          List.ne_nil_of_length_pos (by omega)
        simp only [hempty, dite_false, min_eq_left hlimit] at hrest
        obtain ⟨hsplit, hlength⟩ := hashed_eq_of_stopped hfilled.symm hall houtcome
        rcases Action.runs_bind.mp hrest with ⟨first, more, url₁, rfl, hupload, hmore⟩ |
          ⟨error, _, hupload⟩
        · obtain ⟨middle', hfirst, hmore'⟩ := Program.follows_append.mp hlast
          obtain ⟨url', hurl, hid', hafter⟩ :=
            uploadChunk_recovers hid hheld hchunk (by omega) hbudget.left hupload hfirst
          obtain rfl := Except.ok.inj hurl
          exact ih filled rfl houtcome url₁ hreadOf hsplit hlength hid' hafter hbudget.right hmore
            hmore'
        · obtain ⟨_, hurl, _⟩ :=
            uploadChunk_recovers hid hheld hchunk (by omega) hbudget hupload hlast
          simp at hurl

/-! ## Whole blobs -/

/-- Opening a session succeeds, and the session is empty. -/
theorem runs_post {operation : String} {result : Except OciError Fetched}
    (hruns : (Exchange.transfer (requestPostWithAuthRetry X operation)).Runs trace result)
    (hfollows : Follows (StepWith X client session K) docker trace after) :
    ∃ fetched location url, result = .ok fetched ∧ isSuccess fetched.status = true ∧
      (fetched.headers.get "location").bind headerText = some location ∧
      resolvedLocation X client location = .ok url ∧ after.sessions (session url) = [] := by
  rw [requestPostWithAuthRetry, transportSend, transfer_requestWithAuthRetry] at hruns
  obtain ⟨before, reply, rfl, hread, ⟨url, hopened, hafter⟩, _, _⟩ :=
    runs_served (by intro challenge; simp) readsResponse_send hruns hfollows
  cases reply with
  | error error => simp [openedUrl] at hopened
  | ok response =>
      simp only [openedUrl] at hopened
      split at hopened
      · rename_i hsuccess
        obtain ⟨location, hlocation, hurl⟩ := Option.bind_eq_some_iff.mp hopened
        refine ⟨⟨response.status, response.headers, []⟩, location, url, hread.symm, hsuccess,
          hlocation, ?_, by rw [hafter, Function.update_self]⟩
        cases hresolved : resolvedLocation X client location with
        | ok url' =>
            rw [hresolved] at hurl
            exact congrArg _ (Option.some.inj hurl)
        | error error =>
            rw [hresolved] at hurl
            simp [Except.toOption] at hurl
      · simp at hopened

theorem runs_head {digest : String} {result : Except OciError Bool}
    (hruns : (Exchange.transfer (BlobClient.head X digest)).Runs trace result)
    (hfollows : Follows (StepWith X client session K) docker trace after) :
    ∃ present, result = .ok present := by
  unfold BlobClient.head at hruns
  rw [Exchange.transfer, Action.embed_bind] at hruns
  have hcalls : ∀ {t : Trace UploadRequest Reply} {r : Except OciError Fetched} {final : Docker},
      (Exchange.transfer (requestHeadWithAuthRetry X digest "head blob")).Runs t r →
      Follows (StepWith X client session K) docker t final →
      ∃ fetched : Fetched, r = .ok fetched ∧ (fetched.status = 200 ∨ fetched.status = 404) := by
    intro t r final hcall hfirst
    rw [requestHeadWithAuthRetry, transportSend, transfer_requestWithAuthRetry] at hcall
    obtain ⟨before, reply, rfl, hread, ⟨_, response, rfl, hstatus⟩, _, _⟩ :=
      runs_served (by intro challenge; simp) readsResponse_send hcall hfirst
    exact ⟨⟨response.status, response.headers, []⟩, hread.symm, hstatus⟩
  rcases Action.runs_bind.mp hruns with ⟨call, tail, fetched, rfl, hcall, htail⟩ | ⟨error, rfl, hcall⟩
  · obtain ⟨middle, hfirst, _⟩ := Program.follows_append.mp hfollows
    obtain ⟨_, hfetched, hstatus⟩ := hcalls hcall hfirst
    obtain rfl := Except.ok.inj hfetched
    rcases hstatus with hstatus | hstatus
    · rw [if_pos hstatus] at htail
      exact ⟨true, htail.2⟩
    · rw [if_neg (by simp [hstatus]), if_pos hstatus] at htail
      exact ⟨false, htail.2⟩
  · obtain ⟨_, hfetched, _⟩ := hcalls hcall hfollows
    simp at hfetched

theorem runs_putUpload {url : String} {digest : ContentDigest} {bytes : Bytes}
    {result : Except OciError Unit}
    (hruns : (Exchange.transfer (BlobClient.putUpload X url digest bytes)).Runs trace result)
    (hfollows : Follows (StepWith X client session K) docker trace after) : result = .ok () := by
  unfold BlobClient.putUpload at hruns
  rw [Exchange.transfer, Action.embed_bind] at hruns
  have hcalls : ∀ {t : Trace UploadRequest Reply} {r : Except OciError Fetched} {final : Docker},
      (Exchange.transfer (requestPutBytesWithAuthRetry X (.putUpload url digest.val bytes)
        "upload blob")).Runs t r → Follows (StepWith X client session K) docker t final →
      ∃ fetched : Fetched, r = .ok fetched ∧ fetched.status = 201 := by
    intro t r final hcall hfirst
    rw [requestPutBytesWithAuthRetry, transportSend, transfer_requestWithAuthRetry] at hcall
    obtain ⟨before, reply, rfl, hread, ⟨_, response, rfl, hstatus⟩, _, _⟩ :=
      runs_served (by intro challenge; simp) readsResponse_send hcall hfirst
    exact ⟨⟨response.status, response.headers, []⟩, hread.symm, hstatus⟩
  rcases Action.runs_bind.mp hruns with ⟨call, tail, fetched, rfl, hcall, htail⟩ | ⟨error, rfl, hcall⟩
  · obtain ⟨middle, hfirst, _⟩ := Program.follows_append.mp hfollows
    obtain ⟨_, hfetched, hstatus⟩ := hcalls hcall hfirst
    obtain rfl := Except.ok.inj hfetched
    exact htail.2.trans (ensure_of _ (Or.inl hstatus))
  · obtain ⟨_, hfetched, _⟩ := hcalls hcall hfollows
    simp at hfetched

theorem runs_twoStep {digest : ContentDigest} {bytes : Bytes} {result : Except OciError Unit}
    (hruns : (Exchange.transfer (BlobClient.executeTwoStepPut X client digest bytes)).Runs trace
      result)
    (hfollows : Follows (StepWith X client session K) docker trace after) : result = .ok () := by
  unfold BlobClient.executeTwoStepPut at hruns
  simp only [Exchange.transfer, Action.embed_bind, Action.embed_ofExcept, Action.embed_attempt]
    at hruns
  rcases Action.runs_bind.mp hruns with ⟨call, tail, fetched, rfl, hcall, htail⟩ | ⟨error, rfl, hcall⟩
  · obtain ⟨middle, hfirst, hlast⟩ := Program.follows_append.mp hfollows
    obtain ⟨_, location, url, hfetched, hsuccess, hlocation, hurl, _⟩ := runs_post hcall hfirst
    obtain rfl := Except.ok.inj hfetched
    rw [ofExcept_bind_eq (ensure_of _ hsuccess), ofExcept_bind_eq (okOr_eq_ok.mpr hlocation)] at htail
    have hresolved : Result.mapErr OciError.invalidEndpoint
        (client.endpoint.resolveLocation X.parseUri location) = .ok url := hurl
    rw [ofExcept_bind_eq hresolved] at htail
    rcases Action.runs_bind.mp htail with ⟨put, last, outcome, rfl, hattempt, hdone⟩ |
      ⟨error, _, hattempt⟩
    · obtain ⟨_, houtcome, hput⟩ := Action.runs_attempt.mp hattempt
      obtain rfl := Except.ok.inj houtcome
      obtain ⟨middle', hput', _⟩ := Program.follows_append.mp hlast
      obtain rfl := runs_putUpload hput hput'
      exact hdone.2
    · obtain ⟨_, houtcome, _⟩ := Action.runs_attempt.mp hattempt
      simp at houtcome
  · obtain ⟨_, _, _, hfetched, _⟩ := runs_post hcall hfollows
    simp at hfetched

/-- A blob that is sent as a whole arrives. -/
theorem runs_pushBytes {bytes : Bytes} {result : Except OciError ContentDigest}
    (hruns : (Exchange.transfer (BlobClient.pushBytes X client bytes)).Runs trace result)
    (hfollows : Follows (StepWith X client session K) docker trace after) :
    result = .ok (ContentDigest.fromBytes X.toCrates bytes) := by
  have htwo : ∀ {t : Trace UploadRequest Reply} {start final : Docker},
      (Exchange.transfer (do
        BlobClient.executeTwoStepPut X client (ContentDigest.fromBytes X.toCrates bytes) bytes
        pure (ContentDigest.fromBytes X.toCrates bytes))).Runs t result →
      Follows (StepWith X client session K) start t final →
      result = .ok (ContentDigest.fromBytes X.toCrates bytes) := by
    intro t start final htwo hfollows
    rw [Exchange.transfer, Action.embed_bind] at htwo
    rcases Action.runs_bind.mp htwo with ⟨put, tail, _, rfl, hput, htail⟩ | ⟨error, rfl, hput⟩
    · exact htail.2
    · have hok := runs_twoStep hput hfollows
      simp at hok
  unfold BlobClient.pushBytes at hruns
  rw [Exchange.transfer, Action.embed_bind] at hruns
  rcases Action.runs_bind.mp hruns with ⟨first, rest, present, rfl, hhead, hrest⟩ | ⟨error, rfl, hhead⟩
  · obtain ⟨middle, _, hlast⟩ := Program.follows_append.mp hfollows
    cases present with
    | true => exact hrest.2
    | false =>
        simp only [Bool.false_eq_true, if_false] at hrest
        split at hrest
        · exact htwo hrest hlast
        all_goals
          rw [Action.embed_bind, Action.embed_attempt] at hrest
          rcases Action.runs_bind.mp hrest with ⟨post, more, outcome, rfl, _, hmore⟩ |
            ⟨error, _, hattempt⟩
          · obtain ⟨middle', _, hlast'⟩ := Program.follows_append.mp hlast
            cases outcome with
            | error error => exact htwo hmore hlast'
            | ok fetched =>
                dsimp only at hmore
                split at hmore
                · exact hmore.2
                · exact htwo hmore hlast'
          · obtain ⟨_, houtcome, _⟩ := Action.runs_attempt.mp hattempt
            simp at houtcome
  · obtain ⟨_, hpresent⟩ := runs_head hhead hfollows
    simp at hpresent

/-! ## The whole upload -/

theorem runs_finishUpload {stream : HashingStream} {url : String}
    {result : Except OciError (ContentDigest × UInt64)} (hended : stream.Ended X.toCrates)
    (hheld : docker.sessions (session url) = stream.hashed)
    (hruns : (finishUpload X url stream).Runs trace result)
    (hfollows : Follows (StepWith X client session K) docker trace after) :
    ∃ uploaded, result = .ok uploaded := by
  have hcalls : ∀ {t : Trace UploadRequest Reply} {r : Except OciError Fetched} {final : Docker},
      (transferWithAuthRetry X "finish blob upload" Fetched.status Fetched.headers
        (transferCall (.putFinish url (ContentDigest.fromBytes X.toCrates stream.hashed).val)
          (readReply fun _ => .ok []))).Runs t r →
      Follows (StepWith X client session K) docker t final →
      ∃ fetched : Fetched, r = .ok fetched ∧ fetched.status = 201 := by
    intro t r final hcall hfirst
    obtain ⟨before, reply, rfl, hread, ⟨_, response, rfl, hstatus⟩, _, _⟩ :=
      runs_served (by intro challenge; simp) readsResponse_send hcall hfirst
    rw [hheld, digestOf, if_pos rfl] at hstatus
    exact ⟨⟨response.status, response.headers, []⟩, hread.symm, hstatus⟩
  unfold finishUpload at hruns
  rw [ofExcept_bind_eq (okOr_eq_ok.mpr hended.digest_eq)] at hruns
  rcases Action.runs_bind.mp hruns with ⟨call, tail, fetched, rfl, hcall, htail⟩ | ⟨error, rfl, hcall⟩
  · obtain ⟨middle, hfirst, _⟩ := Program.follows_append.mp hfollows
    obtain ⟨_, hfetched, hstatus⟩ := hcalls hcall hfirst
    obtain rfl := Except.ok.inj hfetched
    rw [ofExcept_bind_eq (ensure_of _ (Or.inl hstatus))] at htail
    exact ⟨_, htail.2⟩
  · obtain ⟨_, hfetched, _⟩ := hcalls hcall hfollows
    simp at hfetched

section

variable {chunks : List Bytes} {buffer : Bytes} {stream : HashingStream}

theorem uploadStream_recovers {url : String}
    {result : Except SessionFailure (ContentDigest × UInt64)}
    (hsmall : chunks.flatten.length < 18446744073709551616)
    (hread : stream.ReadOf X.toCrates (chunks.map Except.ok)) (hhashed : stream.hashed = buffer)
    (hempty : docker.sessions (session url) = []) (hbudget : WithinBudget config trace)
    (hruns : (uploadStream X client config buffer stream url).Runs trace result)
    (hfollows : Follows (StepWith X client session (KeepsSome session)) docker trace after) :
    ∃ uploaded, result = .ok uploaded := by
  have hsent : stream.hashed = [] ++ buffer := hhashed
  unfold uploadStream at hruns
  rcases Action.runs_bind.mp hruns with ⟨first, rest, pair, rfl, hsend, hrest⟩ | ⟨error, _, hsend⟩
  · obtain ⟨middle, hfirst, hlast⟩ := Program.follows_append.mp hfollows
    obtain ⟨last, url', hpair, hended, hid, hheld⟩ :=
      sendChunks_recovers hsmall hread hsent rfl rfl hempty hbudget.left hsend hfirst
    obtain rfl := Except.ok.inj hpair
    obtain ⟨outcome, rfl, hfinish⟩ := Action.runs_mapErr.mp hrest
    rw [← hid] at hheld
    obtain ⟨uploaded, rfl⟩ := runs_finishUpload hended hheld hfinish hlast
    exact ⟨uploaded, rfl⟩
  · obtain ⟨_, _, hpair, _⟩ :=
      sendChunks_recovers hsmall hread hsent rfl rfl hempty hbudget hsend hfollows
    simp at hpair

theorem pushChunked_recovers {result : Except OciError (ContentDigest × UInt64)}
    (hsmall : chunks.flatten.length < 18446744073709551616)
    (hread : stream.ReadOf X.toCrates (chunks.map Except.ok)) (hhashed : stream.hashed = buffer)
    (hbudget : WithinBudget config trace)
    (hruns : (pushChunked X client config buffer stream).Runs trace result)
    (hfollows : Follows (StepWith X client session (KeepsSome session)) docker trace after) :
    ∃ uploaded, result = .ok uploaded := by
  unfold pushChunked at hruns
  rcases Action.runs_bind.mp hruns with ⟨post, rest, fetched, rfl, hpost, hrest⟩ | ⟨error, _, hpost⟩
  swap
  · obtain ⟨_, _, _, hfetched, _⟩ := runs_post hpost hfollows
    simp at hfetched
  obtain ⟨middle, hfirst, hlast⟩ := Program.follows_append.mp hfollows
  obtain ⟨_, location, url, hfetched, hsuccess, hlocation, hurl, hempty⟩ := runs_post hpost hfirst
  obtain rfl := Except.ok.inj hfetched
  rw [ofExcept_bind_eq (ensure_of _ hsuccess), ofExcept_bind_eq (okOr_eq_ok.mpr hlocation),
    ofExcept_bind_eq hurl] at hrest
  rcases Action.runs_bind.mp hrest with ⟨upload, done, outcome, rfl, hattempt, hdone⟩ |
    ⟨error, _, hattempt⟩
  · obtain ⟨_, houtcome, hupload⟩ := Action.runs_attempt.mp hattempt
    obtain rfl := Except.ok.inj houtcome
    obtain ⟨middle', hupload', _⟩ := Program.follows_append.mp hlast
    obtain ⟨uploaded, rfl⟩ :=
      uploadStream_recovers hsmall hread hhashed hempty hbudget.right.left hupload hupload'
    exact ⟨uploaded, hdone.2⟩
  · obtain ⟨_, houtcome, _⟩ := Action.runs_attempt.mp hattempt
    simp at houtcome

/-- Reading a stream without errors. -/
theorem runs_readBody_bind {α : Type} {filled : Filled} {next : Transfer α}
    {result : Except OciError α} (hok : ∀ error, filled.outcome ≠ .failed error)
    (hruns : (readBody filled >>= fun _ => next).Runs trace result)
    (hfollows : Follows (StepWith X client session K) docker trace after) :
    ∃ first rest middle, trace = first ++ rest ∧ next.Runs rest result ∧
      Follows (StepWith X client session K) middle rest after := by
  rcases Action.runs_bind.mp hruns with ⟨first, rest, _, rfl, _, hrest⟩ | ⟨error, rfl, hbody⟩
  · obtain ⟨middle, _, hlast⟩ := Program.follows_append.mp hfollows
    exact ⟨first, rest, middle, rfl, hrest, hlast⟩
  · unfold readBody at hbody
    rcases Action.runs_bind.mp hbody with ⟨first, rest, _, rfl, _, hrest⟩ | ⟨error', _, hreads⟩
    · split at hrest
      · rename_i error' houtcome
        exact absurd houtcome (hok error')
      · exact absurd hrest.2 (by simp)
    · have hreads := (runs_recordReads hreads).2
      simp at hreads

theorem pushBuffered_recovers {result : Except OciError (ContentDigest × UInt64)}
    (hread : stream.ReadOf X.toCrates (chunks.map Except.ok)) (hhashed : stream.hashed = buffer)
    (hruns : (pushBuffered X client buffer stream).Runs trace result)
    (hfollows : Follows (StepWith X client session K) docker trace after) :
    ∃ uploaded, result = .ok uploaded := by
  have hok : ∀ error, (readUntil X.toCrates (fun _ => false) buffer stream).outcome ≠
      .failed error := readUntil_not_failed hread
  unfold pushBuffered at hruns
  obtain ⟨reads, rest, middle, rfl, hrest, hlast⟩ := runs_readBody_bind hok hruns hfollows
  obtain ⟨_, ⟨more, hbuffer, hmore⟩, hended⟩ := readUntil_reads hread hok
  have hstream : (readUntil X.toCrates (fun _ => false) buffer stream).stream.Ended X.toCrates := by
    cases houtcome : (readUntil X.toCrates (fun _ => false) buffer stream).outcome with
    | failed error => exact absurd houtcome (hok error)
    | stopped =>
        have hstop := readUntil_stop houtcome
        simp at hstop
    | ended => exact (hended houtcome).1
  have hsame : (readUntil X.toCrates (fun _ => false) buffer stream).stream.hashed =
      (readUntil X.toCrates (fun _ => false) buffer stream).buffer := by
    rw [hmore, hbuffer, hhashed]
  rw [ofExcept_bind_eq (okOr_eq_ok.mpr hstream.digest_eq)] at hrest
  rcases Action.runs_bind.mp hrest with ⟨push, tail, pushed, rfl, hpush, htail⟩ | ⟨error, _, hpush⟩
  · obtain ⟨middle', hpush', _⟩ := Program.follows_append.mp hlast
    obtain rfl := Except.ok.inj (runs_pushBytes hpush hpush')
    rw [ofExcept_bind_eq (ensure_of _ (by rw [hsame]))] at htail
    exact ⟨_, htail.2⟩
  · have hpushed := runs_pushBytes hpush hlast
    simp at hpushed

end

end Docker

/-- Against a registry with the convention of Docker Distribution, a stream of less than `2 ^ 64`
bytes is uploaded whenever no chunk fails more often than it is retried and no failure leaves the
session empty. -/
theorem pushResumable_recovers {chunks : List Bytes} {trace : Trace UploadRequest Reply}
    {docker after : Docker} {result : Except OciError (ContentDigest × UInt64)}
    (hsmall : chunks.flatten.length < 18446744073709551616)
    (hruns : (pushResumable X client config (chunks.map .ok)).Runs trace result)
    (hfollows : Follows (Docker.StepWith X client session (Docker.KeepsSome session)) docker trace
      after)
    (hretries : ∀ last,
      trace.countP (Docker.isInterruptedOf last) ≤ config.maxRetryAttempts.toNat)
    (hbelow : ∀ last, trace.countP (Docker.isInterruptedOf last) < 18446744073709551615) :
    ∃ uploaded, result = .ok uploaded := by
  have hbudget : Docker.WithinBudget config trace := by
    intro last
    have hle := hretries last
    have hlt := hbelow last
    unfold UploadConfig.maxPatchAttempts
    omega
  have hstart := HashingStream.readOf_start X.toCrates (chunks.map Except.ok)
  unfold pushResumable at hruns
  have hok : ∀ error, (readUntil X.toCrates
      (fun buffer => config.threshold ≤ buffer.length ∧ client.allowsChunked) []
      { inner := chunks.map Except.ok }).outcome ≠ .failed error := readUntil_not_failed hstart
  obtain ⟨reads, rest, middle, rfl, hrest, hlast⟩ := Docker.runs_readBody_bind hok hruns hfollows
  obtain ⟨hreadOf, ⟨bytes, hbytes, hhashed⟩, _⟩ := readUntil_reads hstart hok
  generalize readUntil X.toCrates _ [] { inner := chunks.map Except.ok } = filled at *
  have hbuffer : filled.stream.hashed = filled.buffer := by rw [hhashed, hbytes]
  split at hrest
  · exact Docker.pushBuffered_recovers hreadOf hbuffer hrest hlast
  · exact Docker.pushChunked_recovers hsmall hreadOf hbuffer hbudget.right hrest hlast

/-! ## A PATCH whose response is lost -/

def lostReply : Reply := .error (.timeout 30000)

/-- What a probe reports of an empty session, and of one byte. -/
def firstByteReply : Reply := .ok ⟨204, [("range", Str.asBytes "0-0")], []⟩

/-- The first PATCH is lost and the session is probed. -/
def lostPatch (block : Bytes) : Trace UploadRequest Reply :=
  [(blockPatch block, lostReply), (.probe uploadUrl, firstByteReply)]

/-- The PATCH of all but the first byte. -/
def restPatch (block : Bytes) : UploadRequest :=
  .patchChunk uploadUrl (1, 1048575) (block.drop 1)

/-- The registry has nothing: the rest is refused, and the next probe says the same again. -/
def refusedPatches (block : Bytes) : Trace UploadRequest Reply :=
  lostPatch block ++ [(restPatch block, plainReply 416), (.probe uploadUrl, firstByteReply)]

/-- The registry has the first byte: the rest is accepted. -/
def resumedPatches (block : Bytes) : Trace UploadRequest Reply :=
  lostPatch block ++ [(restPatch block, plainReply 202)]

section

variable {block : Bytes} {patches : Trace UploadRequest Reply}

theorem runs_probe_firstByte :
    (probeUploadSession uploadCrates uploadClient uploadUrl).Runs
      [(.probe uploadUrl, firstByteReply)]
      (.ok (204, [("range", Str.asBytes "0-0")], some (0, 0))) := by
  have hcall : (transferWithAuthRetry uploadCrates "probe upload session" Fetched.status
      Fetched.headers (transferCall (.probe uploadUrl)
        (readReply (collectBody uploadUrl uploadClient.limits.maxManifestBytes)))).Runs
      [(.probe uploadUrl, firstByteReply)] (.ok ⟨204, [("range", Str.asBytes "0-0")], []⟩) :=
    runs_transferOnce (by decide) (by decide)
  have hrange : readRange (OciError.transport (.headerParse "Range"))
      (fun text => invalidUploadRange ("cannot parse Range header '" ++ text ++ "'"))
      [("range", Str.asBytes "0-0")] = .ok (some (0, 0)) := by decide
  exact Runs.bind hcall (Runs.ofExcept_bind hrange ⟨rfl, rfl⟩)

/-- After the loss the client is at the second byte, with one retry used. -/
theorem runs_uploadChunk_lost {result : Except SessionFailure String}
    (hblock : block.length = 1048576)
    (hrest : (retryChunk uploadCrates uploadClient (mebibyteChunks 1) block 0 1048575 1
      { sessionUrl := uploadUrl, remoteNext := 1, retryCount := 1, patchAttempts := 1 }).Runs patches
      result) :
    (uploadChunkWithRetry uploadCrates uploadClient (mebibyteChunks 1) uploadUrl block 0).Runs
      (lostPatch block ++ patches) result := by
  have hcall : (requestPatchChunkWithAuthRetry uploadCrates uploadUrl block (0, 1048575)).Runs
      [(blockPatch block, lostReply)] (.error (.transport (.timeout 30000))) :=
    Runs.bind_error (runs_transferCall.mpr ⟨_, rfl, rfl⟩)
  have hsend : (sendChunk uploadCrates uploadClient (mebibyteChunks 1) block 0 1048575
      { sessionUrl := uploadUrl, remoteNext := 0 }).Runs [(blockPatch block, lostReply)]
      (.ok (.interrupted { sessionUrl := uploadUrl, remoteNext := 0, patchAttempts := 1 }
        (.transport (.timeout 30000)))) :=
    Runs.bind (runs_attempt.mpr ⟨_, rfl, hcall⟩) ⟨rfl, rfl⟩
  have hprobe : (probeChunk uploadCrates uploadClient (mebibyteChunks 1) 0 1048575
      { sessionUrl := uploadUrl, remoteNext := 0, patchAttempts := 1 }
      (.transport (.timeout 30000))).Runs [(.probe uploadUrl, firstByteReply)]
      (.ok { sessionUrl := uploadUrl, remoteNext := 1, retryCount := 1, patchAttempts := 1 }) :=
    Runs.bind (runs_mapErr_ok.mpr runs_probe_firstByte) ⟨rfl, rfl⟩
  have hretry : (retryChunk uploadCrates uploadClient (mebibyteChunks 1) block 0 1048575 2
      { sessionUrl := uploadUrl, remoteNext := 0 }).Runs
      ([(blockPatch block, lostReply)] ++ ([(.probe uploadUrl, firstByteReply)] ++ patches))
      result := by
    rw [retryChunk, if_neg (by decide)]
    exact Runs.bind hsend (Runs.bind hprobe hrest)
  unfold uploadChunkWithRetry
  rw [hblock, onSession_ok_bind (ensure_of _ (by decide))]
  exact hretry

theorem runs_uploadChunk_resumed (hblock : block.length = 1048576) :
    (uploadChunkWithRetry uploadCrates uploadClient (mebibyteChunks 1) uploadUrl block 0).Runs
      (resumedPatches block) (.ok uploadUrl) := by
  have hcall : (requestPatchChunkWithAuthRetry uploadCrates uploadUrl (block.drop 1)
      (1, 1048575)).Runs [(restPatch block, plainReply 202)] (.ok ⟨202, [], none, none⟩) :=
    runs_transferOnce rfl (by decide)
  have hsend : (sendChunk uploadCrates uploadClient (mebibyteChunks 1) block 0 1048575
      { sessionUrl := uploadUrl, remoteNext := 1, retryCount := 1, patchAttempts := 1 }).Runs
      [(restPatch block, plainReply 202)] (.ok (.advanced ⟨uploadUrl, 1048576, 1, 2, false⟩)) :=
    Runs.bind (runs_attempt.mpr ⟨_, rfl, hcall⟩) ⟨rfl, rfl⟩
  apply runs_uploadChunk_lost hblock
  rw [retryChunk, if_neg (by decide)]
  exact Runs.bind hsend ⟨rfl, rfl⟩

theorem runs_uploadChunk_refused (hblock : block.length = 1048576) :
    (uploadChunkWithRetry uploadCrates uploadClient (mebibyteChunks 1) uploadUrl block 0).Runs
      (refusedPatches block)
      (.error ⟨.resumableUploadFailed 2 (.blobUploadFailed 416), uploadUrl⟩) := by
  have hcall : (requestPatchChunkWithAuthRetry uploadCrates uploadUrl (block.drop 1)
      (1, 1048575)).Runs [(restPatch block, plainReply 416)] (.ok ⟨416, [], none, none⟩) :=
    runs_transferOnce rfl (by decide)
  have hsend : (sendChunk uploadCrates uploadClient (mebibyteChunks 1) block 0 1048575
      { sessionUrl := uploadUrl, remoteNext := 1, retryCount := 1, patchAttempts := 1 }).Runs
      [(restPatch block, plainReply 416)]
      (.ok (.interrupted ⟨uploadUrl, 1, 1, 2, true⟩ (.blobUploadFailed 416))) :=
    Runs.bind (runs_attempt.mpr ⟨_, rfl, hcall⟩) ⟨rfl, rfl⟩
  have hprobe : (probeChunk uploadCrates uploadClient (mebibyteChunks 1) 0 1048575
      ⟨uploadUrl, 1, 1, 2, true⟩ (.blobUploadFailed 416)).Runs [(.probe uploadUrl, firstByteReply)]
      (.error ⟨.resumableUploadFailed 2 (.blobUploadFailed 416), uploadUrl⟩) :=
    Runs.bind (runs_mapErr_ok.mpr runs_probe_firstByte) ⟨rfl, rfl⟩
  apply runs_uploadChunk_lost hblock
  rw [retryChunk, if_neg (by decide)]
  exact Runs.bind hsend (Runs.bind_error hprobe)

theorem runs_resumed (hblock : block.length = 1048576) :
    (pushResumable uploadCrates uploadClient (mebibyteChunks 1) ([block].map .ok)).Runs
      (blockStart block ++ ((resumedPatches block ++ blockFinish block) ++ []))
      (.ok (ContentDigest.fromBytes uploadCrates.toCrates block, UInt64.ofNat block.length)) :=
  runs_pushResumable_block hblock (runs_pure.mpr ⟨rfl, rfl⟩)
    (runs_uploadStream_block hblock (runs_uploadChunk_resumed hblock))

theorem runs_refused (hblock : block.length = 1048576) :
    (pushResumable uploadCrates uploadClient (mebibyteChunks 1) ([block].map .ok)).Runs
      (blockStart block ++ (refusedPatches block ++
        [(.other (.deleteUpload uploadUrl), plainReply 204)]))
      (.error (.resumableUploadFailed 2 (.blobUploadFailed 416))) := by
  have hne : block ≠ [] := List.ne_nil_of_length_pos (by omega)
  have hreads : (onSession uploadUrl (recordReads [])).Runs [] (.ok ()) :=
    runs_onSession_ok.mpr ⟨rfl, rfl⟩
  have hsend : (sendChunks uploadCrates uploadClient (mebibyteChunks 1) block
      { inner := [], hashed := block } uploadUrl 0).Runs (refusedPatches block)
      (.error ⟨.resumableUploadFailed 2 (.blobUploadFailed 416), uploadUrl⟩) := by
    rw [sendChunks, fillTo, if_pos (by rw [chunkLimit_mebibyteChunks, hblock])]
    apply Runs.bind hreads
    simp only [hne, dite_false, chunkLimit_mebibyteChunks, hblock, min_self]
    rw [List.take_of_length_le (by omega)]
    exact Runs.bind_error (runs_uploadChunk_refused hblock)
  have hdelete : (requestDeleteWithAuthRetry uploadCrates (.deleteUpload uploadUrl)
      "abort upload session").Runs [(.deleteUpload uploadUrl, plainReply 204)] (.ok ⟨204, [], []⟩) :=
    runs_requestOnce rfl (by decide)
  have habort : (BlobClient.abortUploadSession uploadCrates uploadUrl).Runs
      [(.deleteUpload uploadUrl, plainReply 204)] (.ok ()) :=
    Runs.bind (runs_attempt.mpr ⟨_, rfl, hdelete⟩) ⟨rfl, rfl⟩
  have hrest : (do
      Exchange.transfer (BlobClient.abortUploadSession uploadCrates uploadUrl)
      Action.ofExcept (.error (.resumableUploadFailed 2 (.blobUploadFailed 416))) :
        Transfer (ContentDigest × UInt64)).Runs
      [(.other (.deleteUpload uploadUrl), plainReply 204)]
      (.error (.resumableUploadFailed 2 (.blobUploadFailed 416))) :=
    Runs.bind (Runs.embed UploadRequest.other habort) ⟨rfl, rfl⟩
  have hupload : (uploadStream uploadCrates uploadClient (mebibyteChunks 1) block
      { inner := [], hashed := block } uploadUrl).Runs (refusedPatches block)
      (.error ⟨.resumableUploadFailed 2 (.blobUploadFailed 416), uploadUrl⟩) :=
    Runs.bind_error hsend
  refine runs_pushResumable_block hblock ?_ hupload
  exact hrest

end

namespace Docker

section

variable {K : UploadRequest × Reply → Docker → Prop} {docker after : Docker} {block : Bytes}

/-- The registry before the upload. -/
def idle : Docker := ⟨fun _ => [], true⟩

/-- The registry with `content` in the session. -/
def holding (content : Bytes) : Docker := ⟨Function.update (fun _ => []) 0 content, true⟩

@[simp] theorem sessions_holding (content : Bytes) : (holding content).sessions 0 = content := by
  simp [holding]

theorem update_holding (content content' : Bytes) :
    (holding content').sessions = Function.update (holding content).sessions 0 content' := by
  simp [holding]

theorem step_read (item : Option BodyItem) :
    Step uploadCrates uploadClient (fun _ => 0) docker (.readBody item, plainReply 200) docker :=
  Or.inr ⟨rfl, by rintro _ ⟨rfl⟩; simp⟩

theorem step_open :
    Step uploadCrates uploadClient (fun _ => 0) idle (.other .postUpload, openedReply)
      (holding []) := by
  have hopened : openedUrl uploadCrates uploadClient openedReply = some uploadUrl := by decide
  exact Or.inr ⟨uploadUrl, hopened, rfl⟩

/-- The response is lost after `n` bytes were kept. -/
theorem step_lost (n : Nat) :
    Step uploadCrates uploadClient (fun _ => 0) (holding []) (blockPatch block, lostReply)
      (holding (block.take n)) :=
  Or.inr ⟨by rintro _ ⟨⟩, Or.inl ⟨rfl, block.take n, List.take_prefix n block, fun _ => by simp,
    by rw [sessions_holding, List.nil_append, ← update_holding]⟩⟩

/-- Nothing and one byte are reported alike. -/
theorem step_probe (h : (docker.sessions 0).length ≤ 1) :
    Step uploadCrates uploadClient (fun _ => 0) docker (.probe uploadUrl, firstByteReply)
      docker := by
  have hrange : reportedRange [("range", Str.asBytes "0-0")] =
      some (rangeOf (docker.sessions 0).length) := by
    have hzero : (docker.sessions 0).length - 1 = 0 := by omega
    rw [rangeOf, hzero]
    decide
  have hbody : collectBody uploadUrl uploadClient.limits.maxManifestBytes
      ⟨204, [("range", Str.asBytes "0-0")], []⟩ = .ok [] := by decide
  have hdescribes : Describes uploadCrates uploadClient (fun _ => 0) uploadUrl (docker.sessions 0)
      ⟨204, [("range", Str.asBytes "0-0")], []⟩ :=
    ⟨⟨uploadUrl, rfl, rfl⟩, Or.inr hrange⟩
  exact Or.inr ⟨rfl, _, rfl, by decide, hdescribes, hrange, [], hbody⟩

theorem describes_plain (content : Bytes) (status : StatusCode) :
    Describes uploadCrates uploadClient (fun _ => 0) uploadUrl content ⟨status, [], []⟩ :=
  ⟨⟨uploadUrl, rfl, rfl⟩, Or.inl rfl⟩

/-- The rest is refused by an empty session. -/
theorem step_refused :
    Step uploadCrates uploadClient (fun _ => 0) (holding []) (restPatch block, plainReply 416)
      (holding []) := by
  refine Or.inr ⟨?_, Or.inr ⟨_, rfl, Or.inr ⟨rfl, by simp, rfl⟩⟩⟩
  rintro _ ⟨rfl⟩
  exact describes_plain _ 416

/-- The rest is accepted after the first byte. -/
theorem step_resumed (hblock : block.length = 1048576) :
    Step uploadCrates uploadClient (fun _ => 0) (holding (block.take 1))
      (restPatch block, plainReply 202) (holding block) := by
  have hone : (block.take 1).length = 1 := by rw [List.length_take, hblock, min_eq_left (by decide)]
  refine Or.inr ⟨?_, Or.inr ⟨_, rfl, Or.inl ⟨by decide, ?_, ?_⟩⟩⟩
  · rintro _ ⟨rfl⟩
    exact describes_plain _ 202
  · rw [sessions_holding, hone]
  · rw [sessions_holding, List.take_append_drop, ← update_holding]

theorem step_finish :
    Step uploadCrates uploadClient (fun _ => 0) (holding block)
      (.putFinish uploadUrl (ContentDigest.fromBytes uploadCrates.toCrates block).val,
        plainReply 201) (holding block) := by
  refine Or.inr ⟨rfl, _, rfl, ?_⟩
  rw [sessions_holding, if_pos (by rfl)]

theorem step_abort :
    Step uploadCrates uploadClient (fun _ => 0) docker
      (.other (.deleteUpload uploadUrl), plainReply 204) docker :=
  Or.inr ⟨rfl, by rintro _ ⟨rfl⟩; simp⟩

/-- A step that is not a failed PATCH keeps what there is. -/
theorem stepWith_of {event : UploadRequest × Reply}
    (h : Step uploadCrates uploadClient (fun _ => 0) docker event after)
    (hevent : isTransient event.2 = false) :
    StepWith uploadCrates uploadClient (fun _ => 0) (KeepsSome fun _ => 0) docker event after := by
  refine ⟨h, ?_⟩
  intro url range body _ htransient
  simp [hevent] at htransient

theorem follows_resumed (hblock : block.length = 1048576) :
    Follows (StepWith uploadCrates uploadClient (fun _ => 0) (KeepsSome fun _ => 0)) idle
      (blockStart block ++ ((resumedPatches block ++ blockFinish block) ++ []))
      (holding block) := by
  have hone : (block.take 1).length = 1 := by rw [List.length_take, hblock, min_eq_left (by decide)]
  have hkeeps : KeepsSome (fun _ => 0) (blockPatch block, lostReply) (holding (block.take 1)) := by
    intro url range body _ _
    rw [sessions_holding]
    exact List.ne_nil_of_length_pos (by omega)
  have hprobe : ((holding (block.take 1)).sessions 0).length ≤ 1 := by rw [sessions_holding, hone]
  exact ⟨_, stepWith_of (step_read _) rfl, _, stepWith_of step_open rfl,
    _, ⟨step_lost 1, hkeeps⟩, _, stepWith_of (step_probe hprobe) rfl,
    _, stepWith_of (step_resumed hblock) rfl, _, stepWith_of (step_read _) rfl,
    _, stepWith_of step_finish rfl, rfl⟩

theorem follows_refused (block : Bytes) :
    Follows (Step uploadCrates uploadClient fun _ => 0) idle
      (blockStart block ++ (refusedPatches block ++
        [(.other (.deleteUpload uploadUrl), plainReply 204)])) (holding []) := by
  have hprobe : ((holding []).sessions 0).length ≤ 1 := by simp
  exact ⟨_, step_read _, _, step_open, _, step_lost 0, _, step_probe hprobe, _, step_refused,
    _, step_probe hprobe, _, step_abort, rfl⟩

/-- One failure in the first chunk, and none in the others. -/
theorem countP_interrupted_le_one {trace : Trace UploadRequest Reply} (last : Nat)
    (h : (trace.filter fun event => isTransient event.2).length = 1) :
    trace.countP (isInterruptedOf last) ≤ 1 := by
  rw [← h, ← List.countP_eq_length_filter]
  apply List.countP_mono_left
  intro event _ hcounted
  exact (Bool.and_eq_true_iff.mp hcounted).2

end

end Docker

/-- A first PATCH that is lost with nothing stored is not recovered from, although one retry is
allowed: the answer `0-0` is taken for one stored byte, and the registry refuses what follows. -/
theorem lost_patch_not_recovered :
    ∃ trace after,
      (pushResumable uploadCrates uploadClient (mebibyteChunks 1) ([mebibyte].map .ok)).Runs trace
        (.error (.resumableUploadFailed 2 (.blobUploadFailed 416))) ∧
      Follows (Docker.Step uploadCrates uploadClient fun _ => 0) Docker.idle trace after ∧
      ∀ last, trace.countP (Docker.isInterruptedOf last) ≤
        (mebibyteChunks 1).maxRetryAttempts.toNat := by
  refine ⟨_, _, runs_refused length_mebibyte, Docker.follows_refused mebibyte, ?_⟩
  intro last
  exact Docker.countP_interrupted_le_one last rfl

/-- With the first byte stored it is. -/
theorem pushResumable_recovers_mebibyte :
    ∃ trace result after,
      (pushResumable uploadCrates uploadClient (mebibyteChunks 1) ([mebibyte].map .ok)).Runs trace
        result ∧
      Follows (Docker.StepWith uploadCrates uploadClient (fun _ => 0)
        (Docker.KeepsSome fun _ => 0)) Docker.idle trace after ∧
      (∃ event ∈ trace, Docker.isInterruptedOf 1048575 event = true) ∧
      ∃ uploaded, result = .ok uploaded := by
  have hsmall : [mebibyte].flatten.length < 18446744073709551616 := by
    simp [length_mebibyte]
  have hcount : ∀ last, (blockStart mebibyte ++
      ((resumedPatches mebibyte ++ blockFinish mebibyte) ++ [])).countP
        (Docker.isInterruptedOf last) ≤ 1 :=
    fun last => Docker.countP_interrupted_le_one last rfl
  refine ⟨_, _, _, runs_resumed length_mebibyte, Docker.follows_resumed length_mebibyte,
    ⟨(blockPatch mebibyte, lostReply), by simp [resumedPatches, lostPatch], rfl⟩, ?_⟩
  exact pushResumable_recovers hsmall (runs_resumed length_mebibyte)
    (Docker.follows_resumed length_mebibyte) hcount fun last => by
      have hle := hcount last
      omega

end NixCache.Oci
