import NixCache.Oci.Client
/-!
# Resumable uploads

`push_resumable` and `upload_chunk_with_retry` of `nixcache-oci/src/client/upload.rs`, with
`client/upload/state.rs`, `upload.rs`, and `HashingStream` and `parse_range_header` of
`transport.rs`.  The body is a stream that is read as the upload goes on; a read is an event of the
trace like a request, so that a trace shows what was sent before the end of the stream.
-/

namespace NixCache.Oci

open NixCache.Lib NixCache.Lib.Result NixCache.Core

/-! ## Configuration -/

structure UploadConfig where
  chunkThresholdBytes : UInt64 := 67108864
  chunkSizeBytes : UInt64 := 33554432
  /-- Retries after the first PATCH of a chunk. -/
  maxRetryAttempts : UInt64 := 5
deriving DecidableEq, Repr

namespace UploadConfig

/-- `chunk_limit`: at least one mebibyte. -/
def chunkLimit (config : UploadConfig) : Nat := max config.chunkSizeBytes.toNat 1048576

def threshold (config : UploadConfig) : Nat := max config.chunkThresholdBytes.toNat config.chunkLimit

/-- `max_retry_attempts.saturating_add(1)`. -/
def maxPatchAttempts (config : UploadConfig) : Nat :=
  min (config.maxRetryAttempts.toNat + 1) 18446744073709551615

theorem chunkLimit_pos (config : UploadConfig) : 0 < config.chunkLimit := by
  unfold chunkLimit
  omega

theorem chunkLimit_le_threshold (config : UploadConfig) : config.chunkLimit ≤ config.threshold :=
  le_max_right _ _

end UploadConfig

def RegistryKind.supportsChunkedPatch : RegistryKind → Bool
  | .ghcr | .awsEcr => false
  | .dockerHub | .gcpArtifactRegistry | .azureAcr | .genericOci => true

def OciClient.allowsChunked (client : OciClient) : Bool :=
  client.kind.supportsChunkedPatch ∧
    client.capabilities.fixedUploadStrategy = .resumableChunkedPatch

/-! ## Reading the stream -/

abbrev BodyItem := Except TransportError Bytes

inductive StreamHashTerminal where
  | complete (digest : ContentDigest)
  | failed
  | aborted
deriving DecidableEq

/-- `HashingStream` with its `StreamHashState`: the items to come, the bytes hashed so far, and how
the stream ended. -/
structure HashingStream where
  inner : List BodyItem
  hashed : Bytes := []
  terminal : Option StreamHashTerminal := none

namespace HashingStream

def pollNext (X : Crates) (stream : HashingStream) : Option BodyItem × HashingStream :=
  match stream.terminal, stream.inner with
  | some _, _ => (none, stream)
  | none, [] =>
      (none, { stream with
        terminal := some (.complete (ContentDigest.fromBytes X stream.hashed)) })
  | none, .ok bytes :: rest =>
      (some (.ok bytes), { stream with inner := rest, hashed := stream.hashed ++ bytes })
  | none, .error error :: rest =>
      (some (.error error), { stream with inner := rest, terminal := some .failed })

/-- `Drop`: the terminal state is set once. -/
def drop (stream : HashingStream) : HashingStream :=
  { stream with terminal := stream.terminal.or (some .aborted) }

/-- `StreamHashState::digest`: only after the end of the stream. -/
def digest (stream : HashingStream) : Option ContentDigest :=
  match stream.terminal with
  | some (.complete digest) => some digest
  | _ => none

def bytesStreamed (stream : HashingStream) : UInt64 := UInt64.ofNat stream.hashed.length

/-- The bytes that the stream still has. -/
def left (stream : HashingStream) : Nat :=
  (stream.inner.map fun item => (item.toOption.getD []).length).sum

theorem pollNext_ok {X : Crates} {stream next : HashingStream} {bytes : Bytes}
    (h : stream.pollNext X = (some (.ok bytes), next)) :
    stream.terminal = none ∧ stream.inner = .ok bytes :: next.inner ∧ next.terminal = none ∧
      next.hashed = stream.hashed ++ bytes := by
  unfold pollNext at h
  split at h
  · simp at h
  · simp at h
  · rename_i hterminal hinner
    simp only [Prod.mk.injEq, Option.some.injEq, Except.ok.injEq] at h
    obtain ⟨rfl, rfl⟩ := h
    exact ⟨hterminal, hinner, hterminal, rfl⟩
  · simp at h

end HashingStream

/-- How reading into the buffer stopped. -/
inductive ReadEnd where
  | stopped
  | ended
  | failed (error : TransportError)
deriving DecidableEq

/-- What a reading loop read, and what it left. -/
structure Filled where
  reads : List (Option BodyItem)
  buffer : Bytes
  stream : HashingStream
  outcome : ReadEnd

/-- `while let Some(item) = stream.next().await`: appends items to the buffer until `stop` holds
after one of them. -/
def readUntil (X : Crates) (stop : Bytes → Bool) (buffer : Bytes) (stream : HashingStream) :
    Filled :=
  match _h : stream.pollNext X with
  | (none, next) => ⟨[none], buffer, next, .ended⟩
  | (some (.error error), next) => ⟨[some (.error error)], buffer, next, .failed error⟩
  | (some (.ok bytes), next) =>
      if stop (buffer ++ bytes) then ⟨[some (.ok bytes)], buffer ++ bytes, next, .stopped⟩
      else
        let filled := readUntil X stop (buffer ++ bytes) next
        { filled with reads := some (.ok bytes) :: filled.reads }
termination_by stream.inner.length
decreasing_by
  rw [(HashingStream.pollNext_ok _h).2.1]
  simp

/-- `while chunk_buf.len() < chunk_limit`: the test comes before the first item. -/
def fillTo (X : Crates) (limit : Nat) (buffer : Bytes) (stream : HashingStream) : Filled :=
  if limit ≤ buffer.length then ⟨[], buffer, stream, .stopped⟩
  else readUntil X (fun buffer => limit ≤ buffer.length) buffer stream

theorem length_readUntil (X : Crates) (stop : Bytes → Bool) (buffer : Bytes)
    (stream : HashingStream) :
    (readUntil X stop buffer stream).buffer.length + (readUntil X stop buffer stream).stream.left ≤
      buffer.length + stream.left := by
  fun_induction readUntil X stop buffer stream with
  | case1 buffer stream next h =>
      have hnext : next.inner = stream.inner := by
        unfold HashingStream.pollNext at h
        split at h <;> simp_all
        rw [← h]
      simp [HashingStream.left, hnext]
  | case2 buffer stream error next h =>
      have hnext : stream.inner = .error error :: next.inner := by
        unfold HashingStream.pollNext at h
        split at h <;> simp_all
        rw [← h.2]
      simp [HashingStream.left, hnext, Except.toOption]
  | case3 buffer stream bytes next h hstop =>
      simp [HashingStream.left, (HashingStream.pollNext_ok h).2.1, Except.toOption]
      omega
  | case4 buffer stream bytes next h hstop filled ih =>
      refine ih.trans ?_
      simp [HashingStream.left, (HashingStream.pollNext_ok h).2.1, Except.toOption]
      omega

theorem length_fillTo (X : Crates) (limit : Nat) (buffer : Bytes) (stream : HashingStream) :
    (fillTo X limit buffer stream).buffer.length + (fillTo X limit buffer stream).stream.left ≤
      buffer.length + stream.left := by
  unfold fillTo
  split
  · exact le_rfl
  · exact length_readUntil X _ buffer stream

/-! ## Ranges -/

/-- `parse_range_header`: the first and the last byte. -/
def parseRangeHeader (value : String) : Option (Nat × Nat) := do
  let clean := Str.trim value
  let value := ((Str.stripPrefix clean "bytes=").or (Str.stripPrefix clean "bytes ")).getD clean
  let range :=
    match Str.splitOnce value '/' with
    | some (range, _) => Str.trim range
    | none => Str.trim value
  let (first, last) ← Str.splitOnce range '-'
  let first ← Str.parseBelow 18446744073709551616 (Str.trim first)
  let last ← Str.parseBelow 18446744073709551616 (Str.trim last)
  pure (first, last)

def invalidUploadRange (details : String) : OciError := .uploadRangeInvalid details

/-- `checked_add(1)`. -/
def checkedNext (details : String) (last : Nat) : Except OciError Nat := do
  ensure (last + 1 < 18446744073709551616) (invalidUploadRange details)
  pure (last + 1)

def retryableStatus (status : StatusCode) : Bool :=
  status = 408 ∨ status = 425 ∨ status = 429 ∨ (500 ≤ status ∧ status < 600)

def retryableError : OciError → Bool
  | .blobUploadFailed status => retryableStatus status
  | .transport (.io _) | .transport (.connectionFailed _ _) | .transport (.timeout _) => true
  | .transport (.httpStatus status _) => retryableStatus status
  | _ => false

def responseNextOffset (range : Option (Nat × Nat)) (chunkStart requestStart chunkEnd : Nat) :
    Except OciError Nat :=
  match range with
  | none => checkedNext "chunk end offset overflowed" chunkEnd
  | some (first, last) => do
      ensure (first = 0 ∨ first = chunkStart ∨ first = requestStart) (invalidUploadRange
        s!"range starts at {first}, expected 0, chunk start {chunkStart}, or request start {requestStart}")
      ensure (requestStart ≤ last) (invalidUploadRange
        s!"range ends at {last}, before requested offset {requestStart}")
      ensure (last ≤ chunkEnd) (invalidUploadRange
        s!"range ends at {last}, beyond chunk end {chunkEnd}")
      checkedNext "range end offset overflowed" last

def probeNextOffset (range : Option (Nat × Nat)) (chunkStart currentOffset chunkEnd : Nat) :
    Except OciError (Option Nat) :=
  match range with
  | none => .ok none
  | some (first, last) => do
      ensure (first = 0 ∨ first = chunkStart) (invalidUploadRange
        s!"probe range starts at {first}, expected 0 or chunk start {chunkStart}")
      ensure (last ≤ chunkEnd) (invalidUploadRange
        s!"probe range ends at {last}, beyond chunk end {chunkEnd}")
      let next ← checkedNext "probe range end offset overflowed" last
      ensure (currentOffset ≤ next) (invalidUploadRange
        s!"probe moved remote offset backwards from {currentOffset} to {next}")
      pure (some next)

/-! ## Requests -/

/-- The requests of an upload in chunks beside those of the client, and the reads of the stream. -/
inductive UploadRequest where
  | other (request : Request)
  | readBody (item : Option BodyItem)
  | patchChunk (sessionUrl : String) (byteRange : Nat × Nat) (body : Bytes)
  | probe (sessionUrl : String)
  | putFinish (sessionUrl digest : String)
deriving DecidableEq

abbrev Transfer := Action UploadRequest Reply OciError

/-- An exchange of the client as a part of an upload. -/
def Exchange.transfer {α : Type} (exchange : Exchange α) : Transfer α :=
  Action.embed UploadRequest.other exchange

def recordReads : List (Option BodyItem) → Transfer Unit
  | [] => pure ()
  | item :: items => do
      let _ ← Action.request (.readBody item)
      recordReads items

/-- `UploadChunkResponse`. -/
structure UploadChunkResponse where
  status : StatusCode
  headers : HeaderMap
  location : Option String
  range : Option (Nat × Nat)

section

variable (X : OciCrates) (client : OciClient)

def transferCall {α : Type} (request : UploadRequest) (read : Reply → Except OciError α) :
    Transfer α := do
  let reply ← Action.request request
  Action.ofExcept (read reply)

/-- `request_patch_chunk_with_auth_retry`, `request_put_chunk_finish_with_auth_retry` and the GET of
a probe: after a 401 with a challenge the request is sent once more. -/
def transferWithAuthRetry {α : Type} (operation : String) (status : α → StatusCode)
    (headers : α → HeaderMap) (call : Transfer α) : Transfer α := do
  let first ← call
  if status first ≠ 401 then pure first
  else do
    Exchange.transfer (requestChallengeForResponse X operation (headers first))
    let second ← call
    Action.ofExcept <| ensure (status second ≠ 401)
      (.authenticationFailed operation (status second) "Bearer challenge retry was rejected")
    pure second

/-- The `Range` header of a response, with the error for one that does not parse. -/
def readRange {ε : Type} (notText : ε) (invalid : String → ε) (headers : HeaderMap) :
    Except ε (Option (Nat × Nat)) :=
  match headers.get "range" with
  | none => .ok none
  | some value => do
      let text ← okOr notText (headerText value)
      let range ← okOr (invalid text) (parseRangeHeader text)
      pure (some range)

/-- `transport.patch_chunk`: what it returns for a reply. -/
def readChunkReply (reply : Reply) : Except OciError UploadChunkResponse :=
  mapErr OciError.ofTransport do
    let response ← reply
    let range ← readRange (.headerParse "Range") (fun _ => .headerParse "Range") response.headers
    pure ⟨response.status, response.headers, (response.headers.get "location").bind headerText,
      range⟩

def requestPatchChunkWithAuthRetry (sessionUrl : String) (body : Bytes) (byteRange : Nat × Nat) :
    Transfer UploadChunkResponse :=
  transferWithAuthRetry X "upload blob chunk" UploadChunkResponse.status UploadChunkResponse.headers
    (transferCall (.patchChunk sessionUrl byteRange body) readChunkReply)

def resolvedLocation (location : String) : Except OciError String :=
  mapErr .invalidEndpoint (client.endpoint.resolveLocation X.parseUri location)

/-- `update_location`: the session under its new URL. -/
def updateLocation (sessionUrl : String) (headers : HeaderMap) : Except OciError String :=
  match headers.get "location" with
  | none => .ok sessionUrl
  | some value => do
      let location ← okOr (.transport (.headerParse "Location")) (headerText value)
      resolvedLocation X client location

/-- The location that the transport returns with a response. -/
def adoptLocation (sessionUrl : String) : Option String → Except OciError String
  | some location => resolvedLocation X client location
  | none => .ok sessionUrl

/-- `probe_upload_session`. -/
def probeUploadSession (sessionUrl : String) :
    Transfer (StatusCode × HeaderMap × Option (Nat × Nat)) := do
  let fetched ← transferWithAuthRetry X "probe upload session" Fetched.status Fetched.headers
    (transferCall (.probe sessionUrl)
      (readReply (collectBody sessionUrl client.limits.maxManifestBytes)))
  let range ← Action.ofExcept <| readRange (.transport (.headerParse "Range"))
    (fun text => invalidUploadRange ("cannot parse Range header '" ++ text ++ "'")) fetched.headers
  pure (fetched.status, fetched.headers, range)

end

/-! ## One chunk -/

/-- An error together with the URL of the session at that point, which is aborted then. -/
structure SessionFailure where
  error : OciError
  sessionUrl : String

abbrev SessionTransfer := Action UploadRequest Reply SessionFailure

def onSession {α : Type} (sessionUrl : String) (transfer : Transfer α) : SessionTransfer α :=
  Action.mapErr (fun error => ⟨error, sessionUrl⟩) transfer

def failSession {α : Type} (sessionUrl : String) (error : OciError) : SessionTransfer α :=
  Action.ofExcept (.error ⟨error, sessionUrl⟩)

/-- The variables of the retry loop. -/
structure ChunkState where
  sessionUrl : String
  remoteNext : Nat
  retryCount : Nat := 0
  patchAttempts : Nat := 0
  probed416 : Bool := false

/-- What a PATCH led to: the loop goes on at once, or after a probe. -/
inductive PatchOutcome where
  | advanced (state : ChunkState)
  | interrupted (state : ChunkState) (error : OciError)

section

variable (X : OciCrates) (client : OciClient) (config : UploadConfig)

/-- The answer to a PATCH that the transport delivered. -/
def handleChunkResponse (chunkStart chunkEnd : Nat) (state : ChunkState)
    (response : UploadChunkResponse) : SessionTransfer PatchOutcome := do
  let sessionUrl ← onSession state.sessionUrl
    (Action.ofExcept (updateLocation X client state.sessionUrl response.headers))
  let sessionUrl ← onSession sessionUrl
    (Action.ofExcept (adoptLocation X client sessionUrl response.location))
  let state := { state with sessionUrl := sessionUrl }
  if isSuccess response.status then do
    let next ← onSession sessionUrl <| Action.ofExcept <|
      responseNextOffset response.range chunkStart state.remoteNext chunkEnd
    pure (.advanced { state with remoteNext := next })
  else do
    let error := OciError.blobUploadFailed response.status
    if response.status = 416 then
      if state.probed416 then failSession sessionUrl error
      else pure (.interrupted { state with probed416 := true } error)
    else if ¬ retryableError error then failSession sessionUrl error
    else if config.maxRetryAttempts.toNat ≤ state.retryCount then
      failSession sessionUrl (.resumableUploadFailed state.patchAttempts error)
    else pure (.interrupted state error)

/-- The call of the transport failed. -/
def handleChunkError (state : ChunkState) (error : OciError) : SessionTransfer PatchOutcome :=
  if ¬ retryableError error then failSession state.sessionUrl error
  else if config.maxRetryAttempts.toNat ≤ state.retryCount then
    failSession state.sessionUrl (.resumableUploadFailed state.patchAttempts error)
  else pure (.interrupted state error)

/-- One PATCH with the bytes that the registry does not have yet. -/
def sendChunk (chunk : Bytes) (chunkStart chunkEnd : Nat) (state : ChunkState) :
    SessionTransfer PatchOutcome := do
  let body := chunk.drop (state.remoteNext - chunkStart)
  let byteRange := (state.remoteNext, chunkEnd)
  let result ← Action.attempt
    (requestPatchChunkWithAuthRetry X state.sessionUrl body byteRange)
  let state := { state with patchAttempts := state.patchAttempts + 1 }
  match result with
  | .ok response => handleChunkResponse X client config chunkStart chunkEnd state response
  | .error error => handleChunkError config state error

/-- The answer to a probe; `return Ok(())` for a chunk that is complete is left to the head of the
loop. -/
def handleProbe (chunkStart chunkEnd : Nat) (state : ChunkState) (lastError : OciError)
    (probed : StatusCode × HeaderMap × Option (Nat × Nat)) : SessionTransfer ChunkState := do
  let (status, headers, range) := probed
  let sessionUrl ← onSession state.sessionUrl
    (Action.ofExcept (updateLocation X client state.sessionUrl headers))
  let state := { state with sessionUrl := sessionUrl }
  if ¬ isSuccess status then
    if state.probed416 then failSession sessionUrl lastError
    else
      failSession sessionUrl
        (.resumableUploadFailed state.patchAttempts (.blobUploadFailed status))
  else if state.probed416 ∧ range.isNone then failSession sessionUrl lastError
  else do
    let next ← onSession sessionUrl <| Action.ofExcept <|
      probeNextOffset range chunkStart state.remoteNext chunkEnd
    let state := { state with remoteNext := next.getD state.remoteNext }
    if next.isSome ∧ chunkEnd < state.remoteNext then pure state
    else if config.maxRetryAttempts.toNat ≤ state.retryCount then
      failSession sessionUrl (.resumableUploadFailed state.patchAttempts lastError)
    else pure { state with retryCount := state.retryCount + 1 }

def probeChunk (chunkStart chunkEnd : Nat) (state : ChunkState) (lastError : OciError) :
    SessionTransfer ChunkState := do
  let probed ← Action.mapErr (fun error =>
      ⟨.resumableUploadFailed state.patchAttempts error, state.sessionUrl⟩)
    (probeUploadSession X client state.sessionUrl)
  handleProbe X client config chunkStart chunkEnd state lastError probed

/-- The retry loop; `attempts` PATCH requests are left. -/
def retryChunk (chunk : Bytes) (chunkStart chunkEnd : Nat) :
    (attempts : Nat) → ChunkState → SessionTransfer String
  | attempts, state =>
    if chunkEnd < state.remoteNext then pure state.sessionUrl
    else
      match attempts with
      | 0 => failSession state.sessionUrl (.resumableUploadFailed state.patchAttempts
          (invalidUploadRange "retry budget exhausted before the logical chunk completed"))
      | attempts + 1 => do
          let outcome ← sendChunk X client config chunk chunkStart chunkEnd state
          match outcome with
          | .advanced state => retryChunk chunk chunkStart chunkEnd attempts state
          | .interrupted state error => do
              let state ← probeChunk X client config chunkStart chunkEnd state error
              retryChunk chunk chunkStart chunkEnd attempts state

/-- `upload_chunk_with_retry`: the URL of the session afterwards. -/
def uploadChunkWithRetry (sessionUrl : String) (chunk : Bytes) (chunkStart : Nat) :
    SessionTransfer String := do
  let total := chunkStart + chunk.length
  onSession sessionUrl <| Action.ofExcept <| ensure (total < 18446744073709551616 ∧ 0 < total)
    (invalidUploadRange "chunk end offset overflowed")
  retryChunk X client config chunk chunkStart (total - 1) config.maxPatchAttempts
    { sessionUrl := sessionUrl, remoteNext := chunkStart }

/-! ## The whole stream -/

/-- The loop over the chunks of `push_resumable`: the stream, which has ended, and the session. -/
def sendChunks (buffer : Bytes) (stream : HashingStream) (sessionUrl : String) (offset : Nat) :
    SessionTransfer (HashingStream × String) :=
  let filled := fillTo X.toCrates config.chunkLimit buffer stream
  do
    onSession sessionUrl (recordReads filled.reads)
    match filled.outcome with
    | .failed error => failSession sessionUrl (OciError.ofTransport error)
    | .ended =>
        if filled.buffer = [] then pure (filled.stream, sessionUrl)
        else do
          let sessionUrl ← uploadChunkWithRetry X client config sessionUrl filled.buffer offset
          pure (filled.stream, sessionUrl)
    | .stopped =>
        if _h : filled.buffer = [] then pure (filled.stream, sessionUrl)
        else do
          let sendLen := min config.chunkLimit filled.buffer.length
          let sessionUrl ← uploadChunkWithRetry X client config sessionUrl
            (filled.buffer.take sendLen) offset
          sendChunks (filled.buffer.drop sendLen) filled.stream sessionUrl (offset + sendLen)
termination_by buffer.length + stream.left
decreasing_by
  have hle := length_fillTo X.toCrates config.chunkLimit buffer stream
  have hpos : 0 < (fillTo X.toCrates config.chunkLimit buffer stream).buffer.length :=
    List.length_pos_iff.mpr _h
  have hlimit := config.chunkLimit_pos
  rw [List.length_drop]
  omega

/-- The PUT that finishes the session. -/
def finishUpload (sessionUrl : String) (stream : HashingStream) :
    Transfer (ContentDigest × UInt64) := do
  let digest ← Action.ofExcept (okOr .uploadDigestUnavailable stream.digest)
  let finished ← transferWithAuthRetry X "finish blob upload" Fetched.status Fetched.headers
    (transferCall (.putFinish sessionUrl digest.val) (readReply fun _ => .ok []))
  Action.ofExcept <|
    ensure (finished.status = 201 ∨ finished.status = 200 ∨ finished.status = 202)
      (.blobUploadFailed finished.status)
  pure (digest, stream.bytesStreamed)

/-- The body of `upload_result`. -/
def uploadStream (buffer : Bytes) (stream : HashingStream) (sessionUrl : String) :
    SessionTransfer (ContentDigest × UInt64) := do
  let (stream, sessionUrl) ← sendChunks X client config buffer stream sessionUrl 0
  onSession sessionUrl (finishUpload X sessionUrl stream)

/-- The upload in chunks, of a stream of which `buffer` has been read. -/
def pushChunked (buffer : Bytes) (stream : HashingStream) : Transfer (ContentDigest × UInt64) := do
  let fetched ← Exchange.transfer (requestPostWithAuthRetry X "initialize chunked upload")
  Action.ofExcept <| ensure (isSuccess fetched.status) (.blobUploadFailed fetched.status)
  let location ← Action.ofExcept <| okOr .uploadLocationMissing
    ((fetched.headers.get "location").bind headerText)
  let sessionUrl ← Action.ofExcept (resolvedLocation X client location)
  let result ← Action.attempt (uploadStream X client config buffer stream sessionUrl)
  match result with
  | .ok uploaded => pure uploaded
  | .error failure => do
      Exchange.transfer (BlobClient.abortUploadSession X failure.sessionUrl)
      Action.ofExcept (.error failure.error)

/-- A loop that reads the stream, or its error. -/
def readBody (filled : Filled) : Transfer Unit := do
  recordReads filled.reads
  match filled.outcome with
  | .failed error => Action.ofExcept (.error (OciError.ofTransport error))
  | _ => pure ()

/-- The upload of a stream that is collected first. -/
def pushBuffered (buffer : Bytes) (stream : HashingStream) : Transfer (ContentDigest × UInt64) := do
  let filled := readUntil X.toCrates (fun _ => false) buffer stream
  readBody filled
  let digest ← Action.ofExcept (okOr .uploadDigestUnavailable filled.stream.digest)
  let pushed ← Exchange.transfer (BlobClient.pushBytes X client filled.buffer)
  Action.ofExcept <| ensure (pushed = digest)
    (.digestMismatch "buffered streaming blob" digest.val pushed.val)
  pure (digest, filled.stream.bytesStreamed)

def pushResumable (body : List BodyItem) : Transfer (ContentDigest × UInt64) := do
  let filled := readUntil X.toCrates
    (fun buffer => config.threshold ≤ buffer.length ∧ client.allowsChunked) [] { inner := body }
  readBody filled
  if filled.buffer.length < config.threshold ∨ ¬ client.allowsChunked then
    pushBuffered X client filled.buffer filled.stream
  else pushChunked X client config filled.buffer filled.stream

end

end NixCache.Oci
