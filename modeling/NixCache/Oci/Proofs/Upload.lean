import NixCache.Oci.Proofs.Writing
import NixCache.Oci.Session
/-!
# Resumable uploads are faithful

The bytes of a session are a prefix of the stream at every moment of an upload, and the client's
offset is never ahead of them.  A chunk is left only when the session holds all of it, so the
session holds the whole stream when the upload is finished.
-/

namespace NixCache.Oci

open NixCache.Lib NixCache.Lib.Result NixCache.Core NixCache.Lib.Action
open Program (Trace Follows)

variable {X : OciCrates} {client : OciClient} {config : UploadConfig} {session : String → Nat}

/-! ## Reading the stream -/

namespace HashingStream

/-- The stream has read a part of `body`, without an error. -/
def ReadOf (X : Crates) (body : List BodyItem) (stream : HashingStream) : Prop :=
  ∃ chunks : List Bytes, body = chunks.map Except.ok ++ stream.inner ∧ stream.hashed = chunks.flatten ∧
    (stream.terminal = none ∨
      stream.inner = [] ∧
        stream.terminal = some (.complete (ContentDigest.fromBytes X stream.hashed)))

/-- The stream has been read to its end. -/
def Ended (X : Crates) (stream : HashingStream) : Prop :=
  stream.inner = [] ∧ stream.terminal = some (.complete (ContentDigest.fromBytes X stream.hashed))

theorem readOf_start (X : Crates) (body : List BodyItem) : ReadOf X body { inner := body } :=
  ⟨[], by simp, rfl, Or.inl rfl⟩

theorem Ended.digest_eq {X : Crates} {stream : HashingStream} (h : stream.Ended X) :
    stream.digest = some (ContentDigest.fromBytes X stream.hashed) := by
  unfold digest
  rw [h.2]

theorem ReadOf.eq_of_ended {X : Crates} {body : List BodyItem} {stream : HashingStream}
    (h : stream.ReadOf X body) (hended : stream.Ended X) :
    ∃ chunks : List Bytes, body = chunks.map Except.ok ∧ stream.hashed = chunks.flatten := by
  obtain ⟨chunks, hbody, hhashed, _⟩ := h
  rw [hended.1, List.append_nil] at hbody
  exact ⟨chunks, hbody, hhashed⟩

theorem ReadOf.pollNext_none {X : Crates} {body : List BodyItem} {stream next : HashingStream}
    (h : stream.ReadOf X body) (hpoll : stream.pollNext X = (none, next)) :
    next.ReadOf X body ∧ next.Ended X ∧ next.hashed = stream.hashed := by
  obtain ⟨chunks, hbody, hhashed, hterminal⟩ := h
  unfold pollNext at hpoll
  split at hpoll
  · rename_i terminal hsome
    obtain ⟨_, rfl⟩ := Prod.mk.inj hpoll
    rcases hterminal with hnone | hended
    · simp [hnone] at hsome
    · exact ⟨⟨chunks, hbody, hhashed, Or.inr hended⟩, hended, rfl⟩
  · rename_i hinner
    obtain ⟨_, rfl⟩ := Prod.mk.inj hpoll
    exact ⟨⟨chunks, hbody, hhashed, Or.inr ⟨hinner, rfl⟩⟩, ⟨hinner, rfl⟩, rfl⟩
  · simp at hpoll
  · simp at hpoll

theorem ReadOf.pollNext_ok {X : Crates} {body : List BodyItem} {stream next : HashingStream}
    {bytes : Bytes} (h : stream.ReadOf X body) (hpoll : stream.pollNext X = (some (.ok bytes), next)) :
    next.ReadOf X body ∧ next.hashed = stream.hashed ++ bytes := by
  obtain ⟨chunks, hbody, hhashed, _⟩ := h
  obtain ⟨_, hinner, hnone, hnext⟩ := HashingStream.pollNext_ok hpoll
  refine ⟨⟨chunks ++ [bytes], ?_, ?_, Or.inl hnone⟩, hnext⟩
  · simp [hbody, hinner]
  · simp [hnext, hhashed]

end HashingStream

/-- What a reading loop leaves, unless the stream fails. -/
structure Filled.Reads (X : Crates) (body : List BodyItem) (buffer : Bytes) (stream : HashingStream)
    (filled : Filled) : Prop where
  readOf : filled.stream.ReadOf X body
  bytes : ∃ more, filled.buffer = buffer ++ more ∧ filled.stream.hashed = stream.hashed ++ more
  ended : filled.outcome = .ended → filled.stream.Ended X ∧ none ∈ filled.reads

theorem readUntil_reads {X : Crates} {stop : Bytes → Bool} {body : List BodyItem} {buffer : Bytes}
    {stream : HashingStream} (hread : stream.ReadOf X body)
    (hok : ∀ error, (readUntil X stop buffer stream).outcome ≠ .failed error) :
    (readUntil X stop buffer stream).Reads X body buffer stream := by
  fun_induction readUntil X stop buffer stream with
  | case1 buffer stream next h =>
      obtain ⟨hnext, hended, hhashed⟩ := hread.pollNext_none h
      exact ⟨hnext, ⟨[], by simp, by simpa using hhashed⟩, fun _ => ⟨hended, by simp⟩⟩
  | case2 buffer stream error next h => exact absurd rfl (hok error)
  | case3 buffer stream bytes next h hstop =>
      obtain ⟨hnext, hhashed⟩ := hread.pollNext_ok h
      exact ⟨hnext, ⟨bytes, rfl, hhashed⟩, fun h => by simp at h⟩
  | case4 buffer stream bytes next h hstop filled ih =>
      obtain ⟨hnext, hhashed⟩ := hread.pollNext_ok h
      obtain ⟨hreadOf, ⟨more, hbuffer, hmore⟩, hended⟩ := ih hnext hok
      refine ⟨hreadOf, ⟨bytes ++ more, ?_, ?_⟩, fun hout => ?_⟩
      · rw [← List.append_assoc]
        exact hbuffer
      · rw [← List.append_assoc, ← hhashed]
        exact hmore
      · exact ⟨(hended hout).1, List.mem_cons_of_mem _ (hended hout).2⟩

theorem readUntil_stop {X : Crates} {stop : Bytes → Bool} {buffer : Bytes} {stream : HashingStream}
    (h : (readUntil X stop buffer stream).outcome = .stopped) :
    stop (readUntil X stop buffer stream).buffer = true := by
  fun_induction readUntil X stop buffer stream with
  | case1 buffer stream next _ => simp at h
  | case2 buffer stream error next _ => simp at h
  | case3 buffer stream bytes next _ hstop => exact hstop
  | case4 buffer stream bytes next _ hstop filled ih => exact ih h

theorem fillTo_reads {X : Crates} {limit : Nat} {body : List BodyItem} {buffer : Bytes}
    {stream : HashingStream} (hread : stream.ReadOf X body)
    (hok : ∀ error, (fillTo X limit buffer stream).outcome ≠ .failed error) :
    (fillTo X limit buffer stream).Reads X body buffer stream := by
  unfold fillTo at hok ⊢
  split
  · exact ⟨hread, ⟨[], by simp, by simp⟩, fun h => by simp at h⟩
  · rename_i hlimit
    rw [if_neg hlimit] at hok
    exact readUntil_reads hread hok

theorem le_length_fillTo {X : Crates} {limit : Nat} {buffer : Bytes} {stream : HashingStream}
    (h : (fillTo X limit buffer stream).outcome = .stopped) :
    limit ≤ (fillTo X limit buffer stream).buffer.length := by
  unfold fillTo at h ⊢
  split
  · assumption
  · rename_i hlimit
    rw [if_neg hlimit] at h
    exact of_decide_eq_true (readUntil_stop h)

theorem runs_recordReads {reads : List (Option BodyItem)} {trace : Trace UploadRequest Reply}
    {result : Except OciError Unit} (h : (recordReads reads).Runs trace result) :
    trace.map Prod.fst = reads.map UploadRequest.readBody ∧ result = .ok () := by
  induction reads generalizing trace with
  | nil =>
      obtain ⟨rfl, rfl⟩ := h
      exact ⟨rfl, rfl⟩
  | cons item reads ih =>
      rcases Action.runs_bind.mp h with ⟨before, after, reply, rfl, hfirst, hrest⟩ | ⟨error, _, h⟩
      · obtain ⟨_, rfl, _⟩ := Action.runs_request.mp hfirst
        obtain ⟨htrace, hresult⟩ := ih hrest
        exact ⟨by simp [htrace], hresult⟩
      · obtain ⟨_, _, herror⟩ := Action.runs_request.mp h
        simp at herror

/-! ## Requests -/

/-- The exchange of a challenge for a token. -/
def IsTokenEvent (event : UploadRequest × Reply) : Prop :=
  ∃ challenge, event.1 = .other (.refreshToken challenge)

theorem runs_challenge {operation : String} {headers : HeaderMap}
    {trace : Trace UploadRequest Reply} {result : Except OciError Unit}
    (h : (Exchange.transfer (requestChallengeForResponse X operation headers)).Runs trace result) :
    ∀ event ∈ trace, IsTokenEvent event := by
  obtain ⟨trace', rfl, hinner⟩ := Action.Runs.of_embed h
  intro event hevent
  obtain ⟨inner, hmem, rfl⟩ := List.mem_map.mp hevent
  obtain ⟨challenge, hchallenge⟩ :=
    only_requestChallengeForResponse.forall_mem hinner inner hmem
  exact ⟨challenge, by simp [hchallenge]⟩

/-! ## Exchanges of the client as parts of an upload -/

theorem transfer_transportCall (request : Request)
    (collect : Response → Except TransportError Bytes) :
    Exchange.transfer (transportCall request collect) =
      transferCall (.other request) (readReply collect) := by
  unfold transportCall transferCall Exchange.transfer
  rw [Action.embed_bind]
  rfl

/-- The two kinds of retry are one. -/
theorem transfer_requestWithAuthRetry (operation : String) (request : Request)
    (collect : Response → Except TransportError Bytes) :
    Exchange.transfer (requestWithAuthRetry X operation (transportCall request collect)) =
      transferWithAuthRetry X operation Fetched.status Fetched.headers
        (transferCall (.other request) (readReply collect)) := by
  unfold requestWithAuthRetry transferWithAuthRetry
  rw [← transfer_transportCall]
  unfold Exchange.transfer
  rw [Action.embed_bind]
  congr 1
  funext first
  split
  · rfl
  · simp only [Action.embed_bind, Action.embed_ofExcept, Action.embed_pure]

theorem runs_transferCall {α : Type} {request : UploadRequest} {read : Reply → Except OciError α}
    {trace : Trace UploadRequest Reply} {result : Except OciError α} :
    (transferCall request read).Runs trace result ↔
      ∃ reply, trace = [(request, reply)] ∧ result = read reply :=
  Action.runs_request_ofExcept

/-- The request is sent once, or a second time after a 401. -/
theorem runs_transferWithAuthRetry {α : Type} {operation : String} {status : α → StatusCode}
    {headers : α → HeaderMap} {request : UploadRequest} {read : Reply → Except OciError α}
    {trace : Trace UploadRequest Reply} {result : Except OciError α}
    (h : (transferWithAuthRetry X operation status headers (transferCall request read)).Runs trace
      result) :
    (∃ reply, trace = [(request, reply)] ∧ read reply = result ∧
        ∀ value, result = .ok value → status value ≠ 401) ∨
      ∃ reply value token challenged, read reply = .ok value ∧ status value = 401 ∧
        (Exchange.transfer (requestChallengeForResponse X operation (headers value))).Runs token
          challenged ∧
        ((∃ error, result = .error error ∧ challenged = .error error ∧
            trace = (request, reply) :: token) ∨
          ∃ again, trace = (request, reply) :: (token ++ [(request, again)]) ∧
            ((read again = result ∧ ∀ value, result = .ok value → status value ≠ 401) ∨
              ∃ error value, result = .error error ∧ read again = .ok value ∧
                status value = 401)) := by
  rcases Action.runs_bind.mp h with ⟨first, rest, value, rfl, hfirst, hrest⟩ | ⟨error, rfl, hcall⟩
  · obtain ⟨reply, rfl, hread⟩ := runs_transferCall.mp hfirst
    by_cases hstatus : status value = 401
    · rw [if_neg (by simpa using hstatus)] at hrest
      right
      rcases Action.runs_bind.mp hrest with ⟨token, last, _, rfl, htoken, hlast⟩ |
        ⟨error, rfl, htoken⟩
      · refine ⟨reply, value, token, _, hread.symm, hstatus, htoken, Or.inr ?_⟩
        rcases Action.runs_bind.mp hlast with ⟨call, tail, second, rfl, hcall, htail⟩ |
          ⟨error, rfl, hcall⟩
        · obtain ⟨again, rfl, hagain⟩ := runs_transferCall.mp hcall
          rcases Action.runs_bind.mp htail with ⟨_, _, _, rfl, ⟨rfl, hensure⟩, rfl, rfl⟩ |
            ⟨error, rfl, rfl, hensure⟩
          · refine ⟨again, rfl, Or.inl ⟨hagain.symm, ?_⟩⟩
            rintro _ ⟨rfl⟩
            exact ensure_eq_ok.mp hensure.symm
          · refine ⟨again, rfl, Or.inr ⟨error, second, rfl, hagain.symm, ?_⟩⟩
            by_contra hne
            rw [ensure_of _ hne] at hensure
            simp at hensure
        · obtain ⟨again, rfl, hagain⟩ := runs_transferCall.mp hcall
          exact ⟨again, by simp, Or.inl ⟨hagain.symm, by simp⟩⟩
      · exact ⟨reply, value, rest, _, hread.symm, hstatus, htoken, Or.inl ⟨error, rfl, rfl, rfl⟩⟩
    · rw [if_pos hstatus] at hrest
      obtain ⟨rfl, rfl⟩ := hrest
      refine Or.inl ⟨reply, by simp, hread.symm, ?_⟩
      rintro _ ⟨rfl⟩
      exact hstatus
  · obtain ⟨reply, rfl, hread⟩ := runs_transferCall.mp hcall
    exact Or.inl ⟨reply, rfl, hread.symm, by simp⟩

section

variable {α : Type} {operation : String} {status : α → StatusCode} {headers : α → HeaderMap}
  {request : UploadRequest} {read : Reply → Except OciError α} {trace : Trace UploadRequest Reply}
  {result : Except OciError α}

theorem runs_authRetry_events
    (h : (transferWithAuthRetry X operation status headers (transferCall request read)).Runs trace
      result) : ∀ event ∈ trace, event.1 = request ∨ IsTokenEvent event := by
  rcases runs_transferWithAuthRetry h with ⟨reply, rfl, _⟩ |
    ⟨reply, value, token, _, _, _, htoken, ⟨error, _, _, rfl⟩ | ⟨again, rfl, _⟩⟩
  · simp
  · intro event hevent
    rcases List.mem_cons.mp hevent with rfl | hevent
    · exact Or.inl rfl
    · exact Or.inr (runs_challenge htoken event hevent)
  · intro event hevent
    rcases List.mem_cons.mp hevent with rfl | hevent
    · exact Or.inl rfl
    · rcases List.mem_append.mp hevent with hevent | hevent
      · exact Or.inr (runs_challenge htoken event hevent)
      · exact Or.inl (by rw [List.mem_singleton.mp hevent])

/-- The answer is that of the last request. -/
theorem runs_authRetry_ok {value : α}
    (h : (transferWithAuthRetry X operation status headers (transferCall request read)).Runs trace
      (.ok value)) :
    ∃ before reply, trace = before ++ [(request, reply)] ∧ read reply = .ok value ∧
      status value ≠ 401 ∧ ∀ event ∈ before, event.1 = request ∨ IsTokenEvent event := by
  have hevents := runs_authRetry_events h
  rcases runs_transferWithAuthRetry h with ⟨reply, rfl, hread, hstatus⟩ |
    ⟨reply, first, token, _, _, _, htoken, ⟨error, herror, _⟩ |
      ⟨again, rfl, ⟨hread, hstatus⟩ | ⟨error, _, herror, _⟩⟩⟩
  · exact ⟨[], reply, rfl, hread, hstatus value rfl, by simp⟩
  · simp at herror
  · refine ⟨(request, reply) :: token, again, rfl, hread, hstatus value rfl, ?_⟩
    intro event hevent
    rcases List.mem_cons.mp hevent with rfl | hevent
    · exact Or.inl rfl
    · exact Or.inr (runs_challenge htoken event hevent)
  · simp at herror

/-- Of the events that `p` counts, where no token event is one, there are at most two. -/
theorem runs_authRetry_countP_le_two {p : UploadRequest × Reply → Bool}
    (h : (transferWithAuthRetry X operation status headers (transferCall request read)).Runs trace
      result) (htokens : ∀ event, IsTokenEvent event → p event = false) :
    trace.countP p ≤ 2 := by
  have hzero : ∀ token : Trace UploadRequest Reply, (∀ event ∈ token, IsTokenEvent event) →
      token.countP p = 0 := by
    intro token htoken
    rw [List.countP_eq_zero]
    intro event hevent
    simp [htokens event (htoken event hevent)]
  rcases runs_transferWithAuthRetry h with ⟨reply, rfl, _⟩ |
    ⟨reply, value, token, _, _, _, htoken, ⟨error, _, _, rfl⟩ | ⟨again, rfl, _⟩⟩
  · simp only [List.countP_singleton]
    split <;> omega
  · rw [List.countP_cons, hzero token (runs_challenge htoken)]
    split <;> omega
  · rw [List.countP_cons, List.countP_append, hzero token (runs_challenge htoken), List.countP_singleton]
    split <;> split <;> omega

/-- When `p` does not count a request that was refused, there is at most one. -/
theorem runs_authRetry_countP_le_one {p : UploadRequest × Reply → Bool}
    (h : (transferWithAuthRetry X operation status headers (transferCall request read)).Runs trace
      result) (htokens : ∀ event, IsTokenEvent event → p event = false)
    (hrefused : ∀ reply value, read reply = .ok value → status value = 401 →
      p (request, reply) = false) : trace.countP p ≤ 1 := by
  have hzero : ∀ token : Trace UploadRequest Reply, (∀ event ∈ token, IsTokenEvent event) →
      token.countP p = 0 := by
    intro token htoken
    rw [List.countP_eq_zero]
    intro event hevent
    simp [htokens event (htoken event hevent)]
  rcases runs_transferWithAuthRetry h with ⟨reply, rfl, _⟩ |
    ⟨reply, value, token, _, hread, hstatus, htoken, ⟨error, _, _, rfl⟩ | ⟨again, rfl, _⟩⟩
  · simp only [List.countP_singleton]
    split <;> omega
  · rw [List.countP_cons, hzero token (runs_challenge htoken), hrefused reply value hread hstatus]
    simp
  · rw [List.countP_cons, List.countP_append, hzero token (runs_challenge htoken), List.countP_singleton,
      hrefused reply value hread hstatus]
    simp only [Bool.false_eq_true, if_false]
    split <;> omega

end

theorem readRange_eq_ok {ε : Type} {notText : ε} {invalid : String → ε} {headers : HeaderMap}
    {range : Option (Nat × Nat)} (h : readRange notText invalid headers = .ok range) :
    range = reportedRange headers ∧ (range = none → headers.get "range" = none) := by
  unfold readRange at h
  unfold reportedRange
  cases hget : headers.get "range" with
  | none =>
      rw [hget] at h
      simp only [Except.ok.injEq] at h
      exact ⟨by rw [← h]; rfl, fun _ => rfl⟩
  | some value =>
      rw [hget] at h
      simp only [bind_eq_ok, okOr_eq_ok, pure_eq_ok] at h
      obtain ⟨text, htext, parsed, hparsed, rfl⟩ := h
      exact ⟨by simp [htext, hparsed], by simp⟩

theorem readChunkReply_eq_ok {reply : Reply} {answer : UploadChunkResponse}
    (h : readChunkReply reply = .ok answer) :
    ∃ response, reply = .ok response ∧ answer.status = response.status ∧
      answer.headers = response.headers ∧
      answer.location = (response.headers.get "location").bind headerText ∧
      answer.range = reportedRange response.headers ∧
      (answer.range = none → response.headers.get "range" = none) := by
  unfold readChunkReply at h
  simp only [mapErr_eq_ok, bind_eq_ok, pure_eq_ok] at h
  obtain ⟨response, rfl, range, hrange, rfl⟩ := h
  obtain ⟨hreported, hnone⟩ := readRange_eq_ok hrange
  exact ⟨response, rfl, rfl, rfl, rfl, hreported, hnone⟩

/-! ## One chunk -/

section

variable {α β : Type} {url : String} {trace : Trace UploadRequest Reply}

@[simp] theorem runs_failSession_ok {error : OciError} {value : α} :
    (failSession url error).Runs trace (.ok value) ↔ False := by
  simp [failSession]

@[simp] theorem runs_onSession_ok {transfer : Transfer α} {value : α} :
    (onSession url transfer).Runs trace (.ok value) ↔ transfer.Runs trace (.ok value) :=
  Action.runs_mapErr_ok

@[simp] theorem runs_onSession_bind_ok {first : Except OciError α} {next : α → SessionTransfer β}
    {value : β} :
    (onSession url (Action.ofExcept first) >>= next).Runs trace (.ok value) ↔
      ∃ middle, first = .ok middle ∧ (next middle).Runs trace (.ok value) := by
  rw [Action.runs_bind_ok]
  simp only [runs_onSession_ok, Action.runs_ofExcept]
  constructor
  · rintro ⟨before, after, middle, rfl, ⟨rfl, hfirst⟩, hnext⟩
    exact ⟨middle, hfirst.symm, hnext⟩
  · rintro ⟨middle, rfl, hnext⟩
    exact ⟨[], trace, middle, rfl, ⟨rfl, rfl⟩, hnext⟩

end

theorem onSession_ok_bind {α β : Type} {url : String} {first : Except OciError α} {value : α}
    {next : α → SessionTransfer β} (h : first = .ok value) :
    onSession url (Action.ofExcept first) >>= next = next value := by
  rw [h]
  rfl

theorem checkedNext_eq_ok {details : String} {last next : Nat} :
    checkedNext details last = .ok next ↔ last + 1 < 18446744073709551616 ∧ next = last + 1 := by
  simp only [checkedNext, bind_eq_ok, ensure_eq_ok, pure_eq_ok]
  constructor
  · rintro ⟨_, hlt, rfl⟩
    exact ⟨hlt, rfl⟩
  · rintro ⟨hlt, rfl⟩
    exact ⟨(), hlt, rfl⟩

theorem responseNextOffset_some {first last chunkStart requestStart chunkEnd next : Nat}
    (h : responseNextOffset (some (first, last)) chunkStart requestStart chunkEnd = .ok next) :
    requestStart ≤ last ∧ next = last + 1 := by
  simp only [responseNextOffset, bind_eq_ok, ensure_eq_ok, checkedNext_eq_ok] at h
  obtain ⟨_, _, _, hle, _, _, _, rfl⟩ := h
  exact ⟨hle, rfl⟩

theorem probeNextOffset_some {first last chunkStart current chunkEnd : Nat} {next : Option Nat}
    (h : probeNextOffset (some (first, last)) chunkStart current chunkEnd = .ok next) :
    current ≤ last + 1 ∧ next = some (last + 1) := by
  simp only [probeNextOffset, bind_eq_ok, ensure_eq_ok, checkedNext_eq_ok, pure_eq_ok] at h
  obtain ⟨_, _, _, _, _, ⟨_, rfl⟩, _, hle, rfl⟩ := h
  exact ⟨hle, rfl⟩

section

variable {chunkStart chunkEnd : Nat} {state : ChunkState} {trace : Trace UploadRequest Reply}

/-- The location of a response is resolved twice, with one result. -/
theorem location_again {sessionUrl url : String} {location : Option String} {headers : HeaderMap}
    (hlocation : location = (headers.get "location").bind headerText)
    (hurl : updateLocation X client sessionUrl headers = .ok url) :
    adoptLocation X client url location = .ok url := by
  subst hlocation
  unfold updateLocation at hurl
  cases hget : headers.get "location" with
  | none => rfl
  | some value =>
      rw [hget] at hurl
      simp only [bind_eq_ok, okOr_eq_ok] at hurl
      obtain ⟨location, htext, hresolved⟩ := hurl
      simp only [Option.bind_some, htext]
      exact hresolved

/-- A response that lets the loop go on gives the session its URL; a success also moves the
offset. -/
theorem runs_handleChunkResponse_ok {answer : UploadChunkResponse} {response : Response}
    {outcome : PatchOutcome} (hheaders : answer.headers = response.headers)
    (hlocation : answer.location = (response.headers.get "location").bind headerText)
    (h : (handleChunkResponse X client config chunkStart chunkEnd state answer).Runs trace
      (.ok outcome)) :
    trace = [] ∧ ∃ url, updateLocation X client state.sessionUrl response.headers = .ok url ∧
      match outcome with
      | .advanced next => isSuccess answer.status = true ∧ next.sessionUrl = url ∧
          responseNextOffset answer.range chunkStart state.remoteNext chunkEnd = .ok next.remoteNext
      | .interrupted next _ => next.sessionUrl = url ∧ next.remoteNext = state.remoteNext := by
  unfold handleChunkResponse at h
  simp only [runs_onSession_bind_ok] at h
  obtain ⟨url, hurl, url', hurl', hrest⟩ := h
  rw [hheaders] at hurl
  rw [location_again hlocation hurl] at hurl'
  obtain rfl := Except.ok.inj hurl'
  split at hrest
  · rename_i hsuccess
    simp only [runs_onSession_bind_ok, Action.runs_pure, Except.ok.injEq] at hrest
    obtain ⟨next, hnext, rfl, rfl⟩ := hrest
    exact ⟨rfl, url, hurl, hsuccess, rfl, hnext⟩
  · split at hrest
    · split at hrest
      · simp at hrest
      · simp only [Action.runs_pure, Except.ok.injEq] at hrest
        obtain ⟨rfl, rfl⟩ := hrest
        exact ⟨rfl, url, hurl, rfl, rfl⟩
    · split at hrest
      · simp at hrest
      · split at hrest
        · simp at hrest
        · simp only [Action.runs_pure, Except.ok.injEq] at hrest
          obtain ⟨rfl, rfl⟩ := hrest
          exact ⟨rfl, url, hurl, rfl, rfl⟩

theorem runs_handleChunkError_ok {error : OciError} {outcome : PatchOutcome}
    (h : (handleChunkError config state error).Runs trace (.ok outcome)) :
    trace = [] ∧ outcome = .interrupted state error := by
  unfold handleChunkError at h
  split at h
  · simp at h
  · split at h
    · simp at h
    · simpa using h

/-- The offset after a probe: unchanged, or the one that the probe reports. -/
def ProbedTo (current next : Nat) : Option (Nat × Nat) → Prop
  | none => next = current
  | some reported => current ≤ reported.2 + 1 ∧ next = reported.2 + 1

/-- A probe that lets the loop go on gives the session its URL, and moves the offset to the one it
reports. -/
theorem runs_handleProbe_ok {status : StatusCode} {headers : HeaderMap}
    {range : Option (Nat × Nat)} {lastError : OciError} {next : ChunkState}
    (h : (handleProbe X client config chunkStart chunkEnd state lastError
      (status, headers, range)).Runs trace (.ok next)) :
    trace = [] ∧ updateLocation X client state.sessionUrl headers = .ok next.sessionUrl ∧
      ProbedTo state.remoteNext next.remoteNext range := by
  unfold handleProbe at h
  simp only [runs_onSession_bind_ok] at h
  obtain ⟨url, hurl, hrest⟩ := h
  split at hrest
  · split at hrest <;> simp at hrest
  · split at hrest
    · simp at hrest
    · simp only [runs_onSession_bind_ok] at hrest
      obtain ⟨offset, hoffset, hlast⟩ := hrest
      have hnext : trace = [] ∧ next.sessionUrl = url ∧
          next.remoteNext = offset.getD state.remoteNext := by
        split at hlast
        · simp only [Action.runs_pure, Except.ok.injEq] at hlast
          obtain ⟨rfl, rfl⟩ := hlast
          exact ⟨rfl, rfl, rfl⟩
        · split at hlast
          · simp at hlast
          · simp only [Action.runs_pure, Except.ok.injEq] at hlast
            obtain ⟨rfl, rfl⟩ := hlast
            exact ⟨rfl, rfl, rfl⟩
      obtain ⟨rfl, rfl, hremote⟩ := hnext
      refine ⟨rfl, hurl, ?_⟩
      cases range with
      | none =>
          obtain rfl := Except.ok.inj hoffset
          exact hremote
      | some reported =>
          obtain ⟨hle, rfl⟩ := probeNextOffset_some hoffset
          exact ⟨hle, hremote⟩

end

def PatchOutcome.state : PatchOutcome → ChunkState
  | .advanced state => state
  | .interrupted state _ => state

/-- The PATCH of a chunk in a state of its loop. -/
abbrev patchRequest (chunk : Bytes) (chunkStart chunkEnd : Nat) (state : ChunkState) :
    UploadRequest :=
  .patchChunk state.sessionUrl (state.remoteNext, chunkEnd)
    (chunk.drop (state.remoteNext - chunkStart))

/-- One turn of the loop before the probe: the PATCH, and what follows from its result. -/
theorem runs_sendChunk_ok {chunk : Bytes} {chunkStart chunkEnd : Nat} {state : ChunkState}
    {trace : Trace UploadRequest Reply} {outcome : PatchOutcome}
    (h : (sendChunk X client config chunk chunkStart chunkEnd state).Runs trace (.ok outcome)) :
    ∃ result, (requestPatchChunkWithAuthRetry X state.sessionUrl
          (chunk.drop (state.remoteNext - chunkStart)) (state.remoteNext, chunkEnd)).Runs trace
          result ∧
      match result with
      | .ok answer => (handleChunkResponse X client config chunkStart chunkEnd
          { state with patchAttempts := state.patchAttempts + 1 } answer).Runs [] (.ok outcome)
      | .error error => outcome = .interrupted
          { state with patchAttempts := state.patchAttempts + 1 } error := by
  obtain ⟨before, after, result, rfl, hcall, hrest⟩ := Action.runs_bind_ok.mp h
  obtain ⟨result', hresult, hcall⟩ := Action.runs_attempt.mp hcall
  obtain rfl := Except.ok.inj hresult
  cases result with
  | ok answer =>
      obtain ⟨_, _, _, hread, _⟩ := runs_authRetry_ok hcall
      obtain ⟨response, _, _, hheaders, hlocation, _⟩ := readChunkReply_eq_ok hread
      obtain ⟨rfl, _⟩ := runs_handleChunkResponse_ok hheaders hlocation hrest
      exact ⟨.ok answer, by simpa using hcall, hrest⟩
  | error error =>
      obtain ⟨rfl, houtcome⟩ := runs_handleChunkError_ok hrest
      exact ⟨.error error, by simpa using hcall, houtcome⟩

theorem runs_probeChunk_ok {chunkStart chunkEnd : Nat} {state next : ChunkState}
    {lastError : OciError} {trace : Trace UploadRequest Reply}
    (h : (probeChunk X client config chunkStart chunkEnd state lastError).Runs trace (.ok next)) :
    ∃ before response, trace = before ++ [(.probe state.sessionUrl, .ok response)] ∧
      (∀ event ∈ before, event.1 = .probe state.sessionUrl ∨ IsTokenEvent event) ∧
      updateLocation X client state.sessionUrl response.headers = .ok next.sessionUrl ∧
      ProbedTo state.remoteNext next.remoteNext (reportedRange response.headers) := by
  obtain ⟨first, last, probed, rfl, hprobe, hrest⟩ := Action.runs_bind_ok.mp h
  rw [Action.runs_mapErr_ok] at hprobe
  obtain ⟨call, tail, fetched, rfl, hcall, htail⟩ := Action.runs_bind_ok.mp hprobe
  simp only [Action.runs_ofExcept_bind_ok, Action.runs_pure, Except.ok.injEq] at htail
  obtain ⟨range, hrange, rfl, rfl⟩ := htail
  obtain ⟨before, reply, rfl, hread, _, hbefore⟩ := runs_authRetry_ok hcall
  obtain ⟨rfl, hurl, hnext⟩ := runs_handleProbe_ok hrest
  simp only [readReply, mapErr_eq_ok, bind_eq_ok, pure_eq_ok] at hread
  obtain ⟨response, rfl, body, _, rfl⟩ := hread
  obtain ⟨rfl, _⟩ := readRange_eq_ok hrange
  exact ⟨before, response, by simp, hbefore, hurl, hnext⟩

/-! ## What a session holds -/

namespace Sessions

/-- Session `id` holds what was sent before and a part of the chunk; the offset of the client is
not ahead of it. -/
structure Holds (session : String → Nat) (id : Nat) (sent chunk : Bytes) (state : ChunkState)
    (sessions : Sessions) : Prop where
  same : session state.sessionUrl = id
  start : sent.length ≤ state.remoteNext
  held : ∃ n ≤ chunk.length, sessions id = sent ++ chunk.take n ∧
    state.remoteNext ≤ sent.length + n

variable {id : Nat} {sent chunk : Bytes} {state : ChunkState} {sessions after : Sessions}

theorem step_token {event : UploadRequest × Reply} (h : Step X client session sessions event after)
    (htoken : IsTokenEvent event) : after = sessions := by
  obtain ⟨request, reply⟩ := event
  obtain ⟨challenge, rfl⟩ := htoken
  exact h

/-- A PATCH at the offset of the client extends what the session holds of the chunk. -/
theorem step_patch {url : String} {first last n : Nat} {reply : Reply}
    (h : Step X client session sessions
      (.patchChunk url (first, last) (chunk.drop (first - sent.length)), reply) after)
    (hid : session url = id) (hn : n ≤ chunk.length) (hfirst : sent.length ≤ first)
    (hheld : sessions id = sent ++ chunk.take n) :
    ∃ m, n ≤ m ∧ m ≤ chunk.length ∧ after id = sent ++ chunk.take m := by
  obtain ⟨⟨kept, hleading, hoffset, rfl⟩, _⟩ := h
  rw [hid, Function.update_self, hheld]
  by_cases hkept : kept = []
  · exact ⟨n, le_rfl, hn, by simp [hkept]⟩
  · have hlength := hoffset hkept
    simp only [hid, hheld, List.length_append, List.length_take] at hlength
    have hn' : first - sent.length = n := by omega
    rw [hn'] at hleading
    refine ⟨n + kept.length, by omega, ?_, ?_⟩
    · have hle := hleading.length_le
      rw [List.length_drop] at hle
      omega
    · rw [List.append_assoc, List.take_add, ← List.prefix_iff_eq_take.mp hleading]

theorem Holds.patches {chunkEnd : Nat} {trace : Trace UploadRequest Reply}
    (h : Holds session id sent chunk state sessions)
    (hevents : ∀ event ∈ trace, event.1 = patchRequest chunk sent.length chunkEnd state ∨
      IsTokenEvent event)
    (hfollows : Follows (Step X client session) sessions trace after) :
    Holds session id sent chunk state after := by
  apply hfollows.invariant h
  intro s event s' hevent hstep hs
  obtain ⟨n, hn, hheld, hnext⟩ := hs.held
  obtain ⟨request, reply⟩ := event
  rcases hevents _ hevent with rfl | htoken
  · obtain ⟨m, hle, hm, hafter⟩ := step_patch hstep h.same hn h.start hheld
    exact ⟨h.same, h.start, m, hm, hafter, by omega⟩
  · rw [step_token hstep htoken]
    exact hs

theorem Holds.probes {trace : Trace UploadRequest Reply}
    (h : Holds session id sent chunk state sessions)
    (hevents : ∀ event ∈ trace, event.1 = .probe state.sessionUrl ∨ IsTokenEvent event)
    (hfollows : Follows (Step X client session) sessions trace after) :
    Holds session id sent chunk state after := by
  apply hfollows.invariant h
  intro s event s' hevent hstep hs
  obtain ⟨request, reply⟩ := event
  rcases hevents _ hevent with rfl | htoken
  · rw [hstep.1]
    exact hs
  · rw [step_token hstep htoken]
    exact hs

/-- What the answer to the last PATCH says about the session. -/
theorem step_patch_answer {url : String} {range : Nat × Nat} {body : Bytes} {response : Response}
    (h : Step X client session sessions (.patchChunk url range body, .ok response) after) :
    SameSession X client session url response ∧
      (∀ reported, reportedRange response.headers = some reported →
        reported.2 + 1 = (after (session url)).length) ∧
      (isSuccess response.status = true → response.headers.get "range" = none →
        range.1 + body.length = (after (session url)).length) :=
  h.2 response rfl

theorem Holds.length_eq {n : Nat} (hn : n ≤ chunk.length) (h : sessions id = sent ++ chunk.take n) :
    (sessions id).length = sent.length + n := by
  rw [h, List.length_append, List.length_take]
  omega

theorem Holds.sendChunk {chunkEnd : Nat} {trace : Trace UploadRequest Reply}
    {outcome : PatchOutcome} (h : Holds session id sent chunk state sessions)
    (hend : chunkEnd + 1 = sent.length + chunk.length) (hnext : state.remoteNext ≤ chunkEnd)
    (hruns : (sendChunk X client config chunk sent.length chunkEnd state).Runs trace (.ok outcome))
    (hfollows : Follows (Step X client session) sessions trace after) :
    Holds session id sent chunk outcome.state after := by
  obtain ⟨result, hcall, hresult⟩ := runs_sendChunk_ok hruns
  have hafter := h.patches (runs_authRetry_events hcall) hfollows
  cases result with
  | error error =>
      obtain rfl := hresult
      exact ⟨hafter.same, hafter.start, hafter.held⟩
  | ok answer =>
      obtain ⟨before, reply, rfl, hread, _, _⟩ := runs_authRetry_ok hcall
      obtain ⟨response, rfl, hstatus, hheaders, hlocation, hrange, hnone⟩ :=
        readChunkReply_eq_ok hread
      obtain ⟨middle, _, last, hstep, rfl⟩ := Program.follows_append.mp hfollows
      obtain ⟨hsame, hreported, hwhole⟩ := step_patch_answer hstep
      obtain ⟨_, url, hurl, houtcome⟩ := runs_handleChunkResponse_ok hheaders hlocation hresult
      have hsession : session url = id := by rw [hsame url hurl, h.same]
      obtain ⟨n, hn, hheld, hle⟩ := hafter.held
      have hlength := Holds.length_eq hn hheld
      rw [h.same] at hreported hwhole
      cases outcome with
      | interrupted next error =>
          obtain ⟨rfl, hremote⟩ := houtcome
          refine ⟨hsession, ?_, n, hn, hheld, ?_⟩
          · exact hremote ▸ h.start
          · exact hremote ▸ hle
      | advanced next =>
          obtain ⟨hsuccess, rfl, hoffset⟩ := houtcome
          -- either way the new offset is the length of the session
          have hremote : next.remoteNext = sent.length + n := by
            cases hanswer : answer.range with
            | none =>
                rw [hanswer] at hoffset
                obtain ⟨_, hoffset⟩ := checkedNext_eq_ok.mp hoffset
                have hwhole := hwhole (hstatus ▸ hsuccess) (hnone hanswer)
                have hstart := h.start
                simp only [List.length_drop] at hwhole
                rw [hoffset]
                change _ = chunkEnd + 1 at hoffset
                omega
            | some reported =>
                rw [hanswer] at hoffset
                obtain ⟨_, hoffset⟩ := responseNextOffset_some hoffset
                have hreported := hreported reported (by rw [← hrange, hanswer])
                omega
          refine ⟨hsession, ?_, n, hn, hheld, ?_⟩
          · change sent.length ≤ next.remoteNext
            omega
          · exact hremote.le

theorem Holds.probeChunk {chunkStart chunkEnd : Nat} {next : ChunkState} {lastError : OciError}
    {trace : Trace UploadRequest Reply} (h : Holds session id sent chunk state sessions)
    (hruns : (probeChunk X client config chunkStart chunkEnd state lastError).Runs trace (.ok next))
    (hfollows : Follows (Step X client session) sessions trace after) :
    Holds session id sent chunk next after := by
  obtain ⟨before, response, rfl, hbefore, hurl, hnext⟩ := runs_probeChunk_ok hruns
  obtain ⟨middle, hfirst, last, ⟨rfl, hanswer⟩, rfl⟩ := Program.follows_append.mp hfollows
  have hmiddle := h.probes hbefore hfirst
  obtain ⟨hsame, hreported⟩ := hanswer response rfl
  have hsession : session next.sessionUrl = id := by rw [hsame _ hurl, h.same]
  obtain ⟨n, hn, hheld, hle⟩ := hmiddle.held
  have hlength := Holds.length_eq hn hheld
  rw [h.same] at hreported
  cases hrange : reportedRange response.headers with
  | none =>
      rw [hrange] at hnext
      exact ⟨hsession, by rw [show next.remoteNext = _ from hnext]; exact h.start, n, hn, hheld, by
        rw [show next.remoteNext = _ from hnext]; exact hle⟩
  | some reported =>
      rw [hrange] at hnext
      have hreported := hreported reported hrange
      have hstart := h.start
      refine ⟨hsession, ?_, n, hn, hheld, ?_⟩
      · rw [hnext.2]
        exact hstart.trans hnext.1
      · rw [hnext.2]
        omega

theorem Holds.complete {chunkEnd : Nat} (h : Holds session id sent chunk state sessions)
    (hend : chunkEnd + 1 = sent.length + chunk.length) (hdone : chunkEnd < state.remoteNext) :
    sessions id = sent ++ chunk := by
  obtain ⟨n, hn, hheld, hle⟩ := h.held
  have hall : n = chunk.length := by omega
  rw [hheld, hall, List.take_length]

/-- The loop leaves a chunk only when the session holds all of it. -/
theorem Holds.retryChunk {chunkEnd attempts : Nat} {url : String}
    {trace : Trace UploadRequest Reply} (h : Holds session id sent chunk state sessions)
    (hend : chunkEnd + 1 = sent.length + chunk.length)
    (hruns : (retryChunk X client config chunk sent.length chunkEnd attempts state).Runs trace
      (.ok url))
    (hfollows : Follows (Step X client session) sessions trace after) :
    session url = id ∧ after id = sent ++ chunk := by
  induction attempts generalizing state sessions trace with
  | zero =>
      unfold NixCache.Oci.retryChunk at hruns
      split at hruns
      · rename_i hdone
        simp only [Action.runs_pure, Except.ok.injEq] at hruns
        obtain ⟨rfl, rfl⟩ := hruns
        obtain rfl := hfollows
        exact ⟨h.same, h.complete hend hdone⟩
      · simp at hruns
  | succ attempts ih =>
      unfold NixCache.Oci.retryChunk at hruns
      split at hruns
      · rename_i hdone
        simp only [Action.runs_pure, Except.ok.injEq] at hruns
        obtain ⟨rfl, rfl⟩ := hruns
        obtain rfl := hfollows
        exact ⟨h.same, h.complete hend hdone⟩
      · rename_i hdone
        obtain ⟨first, rest, outcome, rfl, hsend, hrest⟩ := Action.runs_bind_ok.mp hruns
        obtain ⟨middle, hfirst, hlast⟩ := Program.follows_append.mp hfollows
        have hsent := h.sendChunk hend (by omega) hsend hfirst
        cases outcome with
        | advanced next => exact ih hsent hrest hlast
        | interrupted next error =>
            obtain ⟨probe, rest, next', rfl, hprobe, hrest⟩ := Action.runs_bind_ok.mp hrest
            obtain ⟨middle', hprobed, hlast⟩ := Program.follows_append.mp hlast
            exact ih (Holds.probeChunk hsent hprobe hprobed) hrest hlast

theorem uploadChunk_holds {url url' : String} {trace : Trace UploadRequest Reply}
    (hid : session url = id) (hheld : sessions id = sent)
    (hruns : (uploadChunkWithRetry X client config url chunk sent.length).Runs trace (.ok url'))
    (hfollows : Follows (Step X client session) sessions trace after) :
    session url' = id ∧ after id = sent ++ chunk := by
  unfold uploadChunkWithRetry at hruns
  simp only [runs_onSession_bind_ok, ensure_eq_ok] at hruns
  obtain ⟨_, ⟨_, hpos⟩, hretry⟩ := hruns
  have hstart : Holds session id sent chunk { sessionUrl := url, remoteNext := sent.length }
      sessions :=
    ⟨hid, le_rfl, 0, Nat.zero_le _, by simpa using hheld, by simp⟩
  exact hstart.retryChunk (by omega) hretry hfollows

end Sessions

/-! ## All chunks -/

section

variable {buffer : Bytes} {stream last : HashingStream} {url url' : String} {offset : Nat}
  {trace : Trace UploadRequest Reply}

/-- One turn of the loop over the chunks. -/
theorem runs_sendChunks_ok {filled : Filled}
    (hfilled : filled = fillTo X.toCrates config.chunkLimit buffer stream)
    (h : (sendChunks X client config buffer stream url offset).Runs trace (.ok (last, url'))) :
    ∃ reads rest, trace = reads ++ rest ∧
      reads.map Prod.fst = filled.reads.map UploadRequest.readBody ∧
      ((filled.outcome = .ended ∧ last = filled.stream ∧
          ((filled.buffer = [] ∧ rest = [] ∧ url' = url) ∨
            filled.buffer ≠ [] ∧
              (uploadChunkWithRetry X client config url filled.buffer offset).Runs rest
                (.ok url'))) ∨
        filled.outcome = .stopped ∧ ∃ first more middle, rest = first ++ more ∧
          (uploadChunkWithRetry X client config url
            (filled.buffer.take config.chunkLimit) offset).Runs first (.ok middle) ∧
          (sendChunks X client config (filled.buffer.drop config.chunkLimit) filled.stream middle
            (offset + config.chunkLimit)).Runs more (.ok (last, url'))) := by
  rw [sendChunks, ← hfilled] at h
  obtain ⟨reads, rest, _, rfl, hreads, hrest⟩ := Action.runs_bind_ok.mp h
  obtain ⟨hreads, _⟩ := runs_recordReads (runs_onSession_ok.mp hreads)
  refine ⟨reads, rest, rfl, hreads, ?_⟩
  cases houtcome : filled.outcome with
  | failed error =>
      rw [houtcome] at hrest
      simp at hrest
  | ended =>
      rw [houtcome] at hrest
      left
      by_cases hempty : filled.buffer = []
      · simp only [hempty, if_true, Action.runs_pure, Except.ok.injEq, Prod.mk.injEq] at hrest
        obtain ⟨rfl, rfl, rfl⟩ := hrest
        exact ⟨rfl, rfl, Or.inl ⟨hempty, rfl, rfl⟩⟩
      · simp only [hempty, if_false] at hrest
        obtain ⟨first, more, middle, rfl, hupload, rfl, hmore⟩ := Action.runs_bind_ok.mp hrest
        obtain ⟨rfl, rfl⟩ := Prod.mk.inj (Except.ok.inj hmore)
        exact ⟨rfl, rfl, Or.inr ⟨hempty, by simpa using hupload⟩⟩
  | stopped =>
      rw [houtcome] at hrest
      have hlimit : config.chunkLimit ≤ filled.buffer.length := by
        rw [hfilled] at houtcome ⊢
        exact le_length_fillTo houtcome
      have hempty : filled.buffer ≠ [] := by
        apply List.ne_nil_of_length_pos
        have hpos := config.chunkLimit_pos
        omega
      simp only [hempty, dite_false, min_eq_left hlimit] at hrest
      obtain ⟨first, more, middle, rfl, hupload, hmore⟩ := Action.runs_bind_ok.mp hrest
      exact Or.inr ⟨rfl, first, more, middle, rfl, hupload, hmore⟩

/-- The induction along the chunks. -/
theorem sendChunks_induction (X : OciCrates) (config : UploadConfig)
    {motive : Bytes → HashingStream → String → Nat → Prop}
    (step : ∀ buffer stream url offset,
      (∀ filled, filled = fillTo X.toCrates config.chunkLimit buffer stream →
        filled.outcome = .stopped → ∀ url, motive (filled.buffer.drop config.chunkLimit)
          filled.stream url (offset + config.chunkLimit)) → motive buffer stream url offset)
    (buffer : Bytes) (stream : HashingStream) (url : String) (offset : Nat) :
    motive buffer stream url offset := by
  apply sendChunks.induct X config motive
  intro buffer stream url offset _ ih
  apply step
  rintro _ rfl hstopped next
  have hlimit := le_length_fillTo hstopped
  have hempty := List.ne_nil_of_length_pos (config.chunkLimit_pos.trans_le hlimit)
  have hnext := ih hempty next
  rwa [min_eq_left hlimit] at hnext

theorem Sessions.follows_reads {reads : List (Option BodyItem)} {sessions after : Sessions}
    (hreads : trace.map Prod.fst = reads.map UploadRequest.readBody)
    (hfollows : Follows (Sessions.Step X client session) sessions trace after) :
    after = sessions := by
  apply hfollows.invariant (I := fun s => s = sessions) rfl
  intro s event s' hevent hstep hs
  have hmem : event.1 ∈ reads.map UploadRequest.readBody := by
    rw [← hreads]
    exact List.mem_map_of_mem hevent
  obtain ⟨request, reply⟩ := event
  obtain ⟨item, _, rfl⟩ := List.mem_map.mp hmem
  exact Eq.trans hstep hs

/-- What one turn reads, when the loop goes on to its end. -/
theorem fillTo_reads_of_runs {body : List BodyItem} {sent : Bytes} {filled : Filled}
    (hfilled : filled = fillTo X.toCrates config.chunkLimit buffer stream)
    (hread : stream.ReadOf X.toCrates body) (hhashed : stream.hashed = sent ++ buffer)
    (hok : filled.outcome = .ended ∨ filled.outcome = .stopped) :
    filled.stream.ReadOf X.toCrates body ∧ filled.stream.hashed = sent ++ filled.buffer ∧
      (filled.outcome = .ended → filled.stream.Ended X.toCrates ∧ none ∈ filled.reads) := by
  subst hfilled
  have hok' : ∀ error, (fillTo X.toCrates config.chunkLimit buffer stream).outcome ≠
      .failed error := by
    intro error herror
    simp [herror] at hok
  obtain ⟨hreadOf, ⟨more, hbuffer, hmore⟩, hended⟩ := fillTo_reads hread hok'
  exact ⟨hreadOf, by rw [hmore, hhashed, List.append_assoc, ← hbuffer], hended⟩

/-- What was sent and what is still in the buffer, after a chunk of full size. -/
theorem hashed_eq_of_stopped {sent : Bytes} {filled : Filled}
    (hfilled : filled = fillTo X.toCrates config.chunkLimit buffer stream)
    (hall : filled.stream.hashed = sent ++ filled.buffer) (houtcome : filled.outcome = .stopped) :
    filled.stream.hashed = (sent ++ filled.buffer.take config.chunkLimit) ++
        filled.buffer.drop config.chunkLimit ∧
      sent.length + config.chunkLimit = (sent ++ filled.buffer.take config.chunkLimit).length := by
  subst hfilled
  have hlimit := le_length_fillTo houtcome
  constructor
  · rw [List.append_assoc, List.take_append_drop, hall]
  · rw [List.length_append, List.length_take, min_eq_left hlimit]

/-- When all chunks are sent, the stream has ended. -/
theorem sendChunks_reads {body : List BodyItem} {sent : Bytes}
    (hread : stream.ReadOf X.toCrates body) (hhashed : stream.hashed = sent ++ buffer)
    (hoffset : offset = sent.length) (hsmall : sent.length < 18446744073709551616)
    (hruns : (sendChunks X client config buffer stream url offset).Runs trace (.ok (last, url'))) :
    last.ReadOf X.toCrates body ∧ last.Ended X.toCrates ∧
      last.hashed.length < 18446744073709551616 ∧
      UploadRequest.readBody none ∈ trace.map Prod.fst := by
  have hless : ∀ {chunk : Bytes} {sent : Bytes} {url url' : String} {t : Trace UploadRequest Reply},
      (uploadChunkWithRetry X client config url chunk sent.length).Runs t (.ok url') →
        (sent ++ chunk).length < 18446744073709551616 := by
    intro chunk sent url url' t hupload
    unfold uploadChunkWithRetry at hupload
    simp only [runs_onSession_bind_ok, ensure_eq_ok] at hupload
    rw [List.length_append]
    exact hupload.choose_spec.1.1
  induction buffer, stream, url, offset using sendChunks_induction X config
    generalizing trace sent with
  | step buffer stream url offset ih =>
      generalize hfilled : fillTo X.toCrates config.chunkLimit buffer stream = filled at ih
      obtain ⟨reads, rest, rfl, hreads, hcases⟩ := runs_sendChunks_ok hfilled.symm hruns
      obtain ⟨hreadOf, hall, hended⟩ := fillTo_reads_of_runs hfilled.symm hread hhashed
        (hcases.imp And.left And.left)
      subst hoffset
      rcases hcases with ⟨houtcome, rfl, hupload⟩ | ⟨houtcome, first, tail, url₁, rfl, hupload, htail⟩
      · obtain ⟨hstream, hnone⟩ := hended houtcome
        refine ⟨hreadOf, hstream, ?_, ?_⟩
        · rw [hall]
          rcases hupload with ⟨hempty, _⟩ | ⟨_, hupload⟩
          · rwa [hempty, List.append_nil]
          · exact hless hupload
        · rw [List.map_append, hreads]
          exact List.mem_append_left _ (List.mem_map_of_mem hnone)
      · obtain ⟨hsplit, hlength⟩ := hashed_eq_of_stopped hfilled.symm hall houtcome
        obtain ⟨hlast, hlastEnded, hlastSmall, hmem⟩ :=
          ih filled rfl houtcome url₁ hreadOf hsplit hlength (hless hupload) htail
        refine ⟨hlast, hlastEnded, hlastSmall, ?_⟩
        simp only [List.map_append, List.mem_append]
        exact Or.inr (Or.inr hmem)

/-- When all chunks are sent, the session holds all of the stream. -/
theorem sendChunks_holds {body : List BodyItem} {sent : Bytes} {id : Nat}
    {sessions after : Sessions} (hread : stream.ReadOf X.toCrates body)
    (hhashed : stream.hashed = sent ++ buffer) (hoffset : offset = sent.length)
    (hid : session url = id) (hheld : sessions id = sent)
    (hruns : (sendChunks X client config buffer stream url offset).Runs trace (.ok (last, url')))
    (hfollows : Follows (Sessions.Step X client session) sessions trace after) :
    session url' = id ∧ after id = last.hashed := by
  induction buffer, stream, url, offset using sendChunks_induction X config
    generalizing trace sent sessions with
  | step buffer stream url offset ih =>
      generalize hfilled : fillTo X.toCrates config.chunkLimit buffer stream = filled at ih
      obtain ⟨reads, rest, rfl, hreads, hcases⟩ := runs_sendChunks_ok hfilled.symm hruns
      obtain ⟨middle, hfirst, hrest⟩ := Program.follows_append.mp hfollows
      obtain rfl := Sessions.follows_reads hreads hfirst
      obtain ⟨hreadOf, hall, hended⟩ := fillTo_reads_of_runs hfilled.symm hread hhashed
        (hcases.imp And.left And.left)
      subst hoffset
      rcases hcases with ⟨houtcome, rfl, hupload⟩ | ⟨houtcome, first, tail, url₁, rfl, hupload, htail⟩
      · rcases hupload with ⟨hempty, rfl, rfl⟩ | ⟨_, hupload⟩
        · obtain rfl := hrest
          rw [hempty, List.append_nil] at hall
          exact ⟨hid, by rw [hall, hheld]⟩
        · obtain ⟨hid', hafter⟩ := Sessions.uploadChunk_holds hid hheld hupload hrest
          exact ⟨hid', by rw [hafter, hall]⟩
      · obtain ⟨middle', hupload', htail'⟩ := Program.follows_append.mp hrest
        obtain ⟨hid', hafter⟩ := Sessions.uploadChunk_holds hid hheld hupload hupload'
        obtain ⟨hsplit, hlength⟩ := hashed_eq_of_stopped hfilled.symm hall houtcome
        exact ih filled rfl houtcome url₁ hreadOf hsplit hlength hid' hafter htail htail'

end

/-! ## The requests of the chunks -/

/-- What is exchanged while chunks are sent; the last byte of a PATCH, which tells the chunk, is
in `P`. -/
def IsChunkRequest (P : Nat → Prop) : UploadRequest → Prop
  | .patchChunk _ range _ => P range.2
  | .probe _ | .readBody _ | .other (.refreshToken _) => True
  | _ => False

theorem IsChunkRequest.mono {P P' : Nat → Prop} (hP : ∀ n, P n → P' n) {request : UploadRequest}
    (h : IsChunkRequest P request) : IsChunkRequest P' request := by
  unfold IsChunkRequest at h ⊢
  split <;> simp_all

section

variable {P : Nat → Prop} {α : Type}

theorem only_onSession {url : String} {transfer : Transfer α} {Q : UploadRequest → Prop}
    (h : Only Q transfer) : Only Q (onSession url transfer) :=
  only_mapErr h

theorem only_onSession_bind {β : Type} {url : String} {first : Except OciError α}
    {next : α → SessionTransfer β} {Q : UploadRequest → Prop} (h : ∀ value, Only Q (next value)) :
    Only Q (onSession url (Action.ofExcept first) >>= next) :=
  only_bind (only_mapErr (only_ofExcept first)) h

theorem only_failSession {url : String} {error : OciError} {Q : UploadRequest → Prop} :
    Only Q (failSession url error : SessionTransfer α) :=
  only_ofExcept _

theorem only_transferWithAuthRetry {operation : String} {status : α → StatusCode}
    {headers : α → HeaderMap} {request : UploadRequest} {read : Reply → Except OciError α}
    (h : IsChunkRequest P request) :
    Only (IsChunkRequest P)
      (transferWithAuthRetry X operation status headers (transferCall request read)) := by
  have hcall : Only (IsChunkRequest P) (transferCall request read) :=
    only_bind (only_request.mpr h) fun _ => only_ofExcept _
  apply only_bind hcall
  intro first
  split
  · exact only_pure first
  · have htoken : Only (IsChunkRequest P)
        (Exchange.transfer (requestChallengeForResponse X operation (headers first))) := by
      apply only_embed
      apply only_requestChallengeForResponse.mono
      rintro _ ⟨challenge, rfl⟩
      trivial
    apply only_bind htoken
    intro _
    apply only_bind hcall
    intro second
    exact only_ofExcept_bind fun _ => only_pure second

variable {chunk : Bytes} {chunkStart chunkEnd : Nat}

theorem only_handleChunkResponse {Q : UploadRequest → Prop} (state : ChunkState)
    (response : UploadChunkResponse) :
    Only Q (handleChunkResponse X client config chunkStart chunkEnd state response) := by
  apply only_onSession_bind
  intro _
  apply only_onSession_bind
  intro url
  dsimp only
  split
  · exact only_onSession_bind fun _ => only_pure _
  · split
    · split
      · exact only_failSession
      · exact only_pure _
    · split
      · exact only_failSession
      · split
        · exact only_failSession
        · exact only_pure _

theorem only_handleChunkError {Q : UploadRequest → Prop} (state : ChunkState) (error : OciError) :
    Only Q (handleChunkError config state error) := by
  unfold handleChunkError
  split
  · exact only_failSession
  · split
    · exact only_failSession
    · exact only_pure _

theorem only_handleProbe {Q : UploadRequest → Prop} (state : ChunkState) (lastError : OciError)
    (probed : StatusCode × HeaderMap × Option (Nat × Nat)) :
    Only Q (handleProbe X client config chunkStart chunkEnd state lastError probed) := by
  obtain ⟨status, headers, range⟩ := probed
  apply only_onSession_bind
  intro url
  dsimp only
  split
  · split
    · exact only_failSession
    · exact only_failSession
  · split
    · exact only_failSession
    · apply only_onSession_bind
      intro next
      split
      · exact only_pure _
      · split
        · exact only_failSession
        · exact only_pure _

theorem only_sendChunk (state : ChunkState) :
    Only (IsChunkRequest (· = chunkEnd))
      (sendChunk X client config chunk chunkStart chunkEnd state) := by
  have hpatch : IsChunkRequest (· = chunkEnd) (patchRequest chunk chunkStart chunkEnd state) := rfl
  apply only_bind (only_attempt (only_transferWithAuthRetry hpatch))
  intro result
  cases result with
  | ok response => exact only_handleChunkResponse _ response
  | error error => exact only_handleChunkError _ error

theorem only_probeChunk (state : ChunkState) (lastError : OciError) :
    Only (IsChunkRequest P) (probeChunk X client config chunkStart chunkEnd state lastError) := by
  have hrequest : IsChunkRequest P (.probe state.sessionUrl) := trivial
  have hprobe : Only (IsChunkRequest P) (probeUploadSession X client state.sessionUrl) := by
    apply only_bind (only_transferWithAuthRetry hrequest)
    intro fetched
    exact only_ofExcept_bind fun _ => only_pure _
  exact only_bind (only_mapErr hprobe) (only_handleProbe state lastError)

theorem only_retryChunk (attempts : Nat) (state : ChunkState) :
    Only (IsChunkRequest (· = chunkEnd))
      (retryChunk X client config chunk chunkStart chunkEnd attempts state) := by
  induction attempts generalizing state with
  | zero =>
      unfold retryChunk
      split
      · exact only_pure _
      · exact only_failSession
  | succ attempts ih =>
      unfold retryChunk
      split
      · exact only_pure _
      · apply only_bind (only_sendChunk state)
        intro outcome
        cases outcome with
        | advanced next => exact ih next
        | interrupted next error => exact only_bind (only_probeChunk next error) ih

theorem only_uploadChunk {url : String} :
    Only (IsChunkRequest (· = chunkStart + chunk.length - 1))
      (uploadChunkWithRetry X client config url chunk chunkStart) :=
  only_onSession_bind fun _ => only_retryChunk _ _

theorem only_recordReads (reads : List (Option BodyItem)) :
    Only (IsChunkRequest P) (recordReads reads) := by
  induction reads with
  | nil => exact only_pure ()
  | cons item reads ih => exact only_bind (only_request.mpr trivial) fun _ => ih

/-- From an offset on, only chunks behind it are sent. -/
theorem only_sendChunks (buffer : Bytes) (stream : HashingStream) (url : String) (offset : Nat) :
    Only (IsChunkRequest (offset ≤ ·)) (sendChunks X client config buffer stream url offset) := by
  induction buffer, stream, url, offset using sendChunks_induction X config with
  | step buffer stream url offset ih =>
      rw [sendChunks]
      generalize hfilled : fillTo X.toCrates config.chunkLimit buffer stream = filled at ih
      have hupload : ∀ chunk : Bytes, chunk ≠ [] → Only (IsChunkRequest (offset ≤ ·))
          (uploadChunkWithRetry X client config url chunk offset) := by
        intro chunk hchunk
        apply only_uploadChunk.mono
        intro request
        apply IsChunkRequest.mono
        have hpos := List.length_pos_iff.mpr hchunk
        omega
      apply only_bind (only_onSession (only_recordReads filled.reads))
      intro _
      cases houtcome : filled.outcome with
      | failed error => exact only_failSession
      | ended =>
          dsimp only
          split
          · exact only_pure _
          · rename_i hempty
            exact only_bind (hupload _ hempty) fun _ => only_pure _
      | stopped =>
          have hlimit : config.chunkLimit ≤ filled.buffer.length :=
            hfilled ▸ le_length_fillTo (hfilled.symm ▸ houtcome)
          dsimp only
          split
          · exact only_pure _
          · rename_i hempty
            rw [min_eq_left hlimit]
            have htake : filled.buffer.take config.chunkLimit ≠ [] := by
              apply List.ne_nil_of_length_pos
              rw [List.length_take, min_eq_left hlimit]
              exact config.chunkLimit_pos
            apply only_bind (hupload _ htake)
            intro next
            apply (ih filled rfl houtcome next).mono
            intro request
            apply IsChunkRequest.mono
            omega

end

end NixCache.Oci
