import NixCache.Lib.Action
import NixCache.Oci.Manifest
/-!
# The registry client

`nixcache-oci/src/client.rs`, `client/request.rs`, `client/manifest.rs`, `client/blob.rs` and the
whole-blob upload of `client/upload.rs`.  A request names the resource below
`/v2/{repo}/nix-cache` and carries the headers that decide what a registry does with it; the
`Authorization` header and the exchange of a challenge for a token are one request of their own.
-/

namespace NixCache.Oci

open NixCache.Lib NixCache.Lib.Result NixCache.Core

/-- `ManifestCasCondition`: `If-None-Match: *`, or `If-Match` with a digest. -/
inductive ManifestCasCondition where
  | createOnly
  | matching (digest : String)
deriving DecidableEq, Repr

inductive Request where
  | getManifest (reference : String)
  | putManifest (reference contentType : String) (condition : Option ManifestCasCondition)
      (body : Bytes)
  | headBlob (digest : String)
  | getBlob (digest : String)
  | deleteBlob (digest : String)
  | postUpload
  | postBlob (digest : String) (body : Bytes)
  | putUpload (sessionUrl digest : String) (body : Bytes)
  | deleteUpload (sessionUrl : String)
  | refreshToken (challenge : BearerChallenge)
deriving DecidableEq

/-- An exchange with the registry that may fail. -/
abbrev Exchange := Action Request Reply OciError

/-- The part of `OciClient` that requests and checks depend on. -/
structure OciClient where
  endpoint : RegistryEndpoint
  repo : String
  kind : RegistryKind
  limits : OciReadLimits
deriving DecidableEq

namespace OciClient

/-- `OciClient::new`. -/
def new (X : OciCrates) (registry repo : String) (kind : RegistryKind) (limits : OciReadLimits) :
    Except OciError OciClient := do
  let endpoint ← mapErr .invalidEndpoint (kind.canonicalizeEndpoint X.parseUri registry)
  pure ⟨endpoint, kind.canonicalizeRepository X.toLowercase repo, kind, limits⟩

/-- `OciClient::with_transport`. -/
def withTransport (X : OciCrates) (registry repo : String) (limits : OciReadLimits) :
    Except OciError OciClient :=
  new X registry repo (RegistryKind.detect X.parseUri registry) limits

def authority (client : OciClient) : String := client.endpoint.authority

def capabilities (client : OciClient) : RegistryCapabilities := client.kind.capabilities

def manifestUrl (client : OciClient) (reference : String) : String :=
  client.endpoint.apiUrl ("/v2/" ++ client.repo ++ "/nix-cache/manifests/" ++ reference)

def blobUrl (client : OciClient) (digest : String) : String :=
  client.endpoint.apiUrl ("/v2/" ++ client.repo ++ "/nix-cache/blobs/" ++ digest)

end OciClient

/-! ## Requests with authentication -/

/-- A response whose body has been collected. -/
structure Fetched where
  status : StatusCode
  headers : HeaderMap
  body : Bytes
deriving DecidableEq

/-- What a call of the transport returns for a reply, with what it collects of the body. -/
def readReply (collect : Response → Except TransportError Bytes) (reply : Reply) :
    Except OciError Fetched :=
  mapErr OciError.ofTransport do
    let response ← reply
    let body ← collect response
    pure ⟨response.status, response.headers, body⟩

def transportCall (request : Request) (collect : Response → Except TransportError Bytes) :
    Exchange Fetched := do
  let reply ← Action.request request
  Action.ofExcept (readReply collect reply)

/-- The body of a GET, up to a limit. -/
def collectBody (url : String) (maxBytes : UInt64) (response : Response) :
    Except TransportError Bytes := do
  let _ ← checkContentLength url response.headers maxBytes
  collectLimited url maxBytes response.body

/-- `transport.get`. -/
def transportGet (url : String) (request : Request) (maxBytes : UInt64) : Exchange Fetched :=
  transportCall request (collectBody url maxBytes)

/-- The other calls of the transport return the status and the headers. -/
def transportSend (request : Request) : Exchange Fetched :=
  transportCall request fun _ => .ok []

section

variable (X : OciCrates)

/-- `request_challenge_for_response`, for a response with status 401. -/
def requestChallengeForResponse (operation : String) (headers : HeaderMap) : Exchange Unit := do
  let challenge ← Action.ofExcept (X.parseWwwAuthenticate headers)
  let challenge ← Action.ofExcept <| okOr
    (.authenticationFailed operation 401 "registry returned 401 without a Bearer challenge")
    challenge
  let token ← transportSend (.refreshToken challenge)
  Action.ofExcept <| ensure (isSuccess token.status)
    (.token (.exchangeFailed challenge.realm token.status))

/-- `request_*_with_auth_retry`: after a 401 with a challenge the call is sent once more. -/
def requestWithAuthRetry (operation : String) (call : Exchange Fetched) : Exchange Fetched := do
  let first ← call
  if first.status ≠ 401 then pure first
  else do
    requestChallengeForResponse X operation first.headers
    let second ← call
    Action.ofExcept <| ensure (second.status ≠ 401)
      (.authenticationFailed operation second.status "Bearer challenge retry was rejected")
    pure second

abbrev requestGetWithAuthRetry (url : String) (request : Request) (operation : String)
    (maxBytes : UInt64) : Exchange Fetched :=
  requestWithAuthRetry X operation (transportGet url request maxBytes)

abbrev requestHeadWithAuthRetry (digest operation : String) : Exchange Fetched :=
  requestWithAuthRetry X operation (transportSend (.headBlob digest))

abbrev requestPostWithAuthRetry (operation : String) : Exchange Fetched :=
  requestWithAuthRetry X operation (transportSend .postUpload)

abbrev requestPostBytesWithAuthRetry (digest : String) (body : Bytes) (operation : String) :
    Exchange Fetched :=
  requestWithAuthRetry X operation (transportSend (.postBlob digest body))

/-- The request is a PUT, of a manifest or of an upload session. -/
abbrev requestPutBytesWithAuthRetry (request : Request) (operation : String) : Exchange Fetched :=
  requestWithAuthRetry X operation (transportSend request)

/-- The request is a DELETE, of a blob or of an upload session. -/
abbrev requestDeleteWithAuthRetry (request : Request) (operation : String) : Exchange Fetched :=
  requestWithAuthRetry X operation (transportSend request)

end

/-! ## Blobs -/

namespace BlobClient

section

variable (X : OciCrates) (client : OciClient)

def head (digest : String) : Exchange Bool := do
  let fetched ← requestHeadWithAuthRetry X digest "head blob"
  if fetched.status = 200 then pure true
  else if fetched.status = 404 then pure false
  else Action.ofExcept (.error (.blobCheckFailed fetched.status))

def getVerified (digest : String) (expectedSize : Option UInt64) : Exchange Bytes := do
  let _ ← Action.ofExcept (ContentDigest.parse digest)
  let url := client.blobUrl digest
  let fetched ← requestGetWithAuthRetry X url (.getBlob digest) "get blob"
    client.limits.maxBufferedBlobBytes
  if isSuccess fetched.status then do
    let contentLength ← Action.ofExcept <| mapErr .transport (parseContentLength fetched.headers)
    let _ ← Action.ofExcept <| verifyBufferedBody X.toCrates url (some digest)
      (fetched.headers.get "docker-content-digest") expectedSize contentLength fetched.body
    pure fetched.body
  else if fetched.status = 404 then Action.ofExcept (.error (.blobNotFound digest))
  else Action.ofExcept (.error (.blobDownloadFailed fetched.status))

def getDescriptor (descriptor : OciDescriptor) : Exchange Bytes := do
  Action.ofExcept <|
    descriptor.validateFor "blob descriptor" client.limits.maxBufferedBlobBytes
  getVerified X client descriptor.digest (some descriptor.size)

/-- `abort_upload_session`: whatever happens is logged only. -/
def abortUploadSession (sessionUrl : String) : Exchange Unit := do
  let _ ← Action.attempt (requestDeleteWithAuthRetry X (.deleteUpload sessionUrl)
    "abort upload session")
  pure ()

/-- The second step of a two-step upload. -/
def putUpload (sessionUrl : String) (digest : ContentDigest) (bytes : Bytes) : Exchange Unit := do
  let fetched ← requestPutBytesWithAuthRetry X (.putUpload sessionUrl digest.val bytes)
    "upload blob"
  Action.ofExcept <|
    ensure (fetched.status = 201 ∨ fetched.status = 202 ∨ fetched.status = 200)
      (.blobUploadFailed fetched.status)

def executeTwoStepPut (digest : ContentDigest) (bytes : Bytes) : Exchange Unit := do
  let fetched ← requestPostWithAuthRetry X "initialize blob upload"
  Action.ofExcept <| ensure (isSuccess fetched.status) (.blobUploadFailed fetched.status)
  let location ← Action.ofExcept <| okOr .uploadLocationMissing
    ((fetched.headers.get "location").bind headerText)
  let sessionUrl ← Action.ofExcept <| mapErr .invalidEndpoint
    (client.endpoint.resolveLocation X.parseUri location)
  let result ← Action.attempt (putUpload X sessionUrl digest bytes)
  match result with
  | .ok () => pure ()
  | .error error => do
      abortUploadSession X sessionUrl
      Action.ofExcept (.error error)

/-- `push_bytes_with_digest`, with the digest of the bytes. -/
def pushBytes (bytes : Bytes) : Exchange ContentDigest := do
  let digest := ContentDigest.fromBytes X.toCrates bytes
  let present ← head X digest.val
  if present then pure digest
  else
    match client.capabilities.fixedUploadStrategy with
    | .fixedTwoStepPut => do
        executeTwoStepPut X client digest bytes
        pure digest
    | .preferMonolithicPost | .resumableChunkedPatch => do
        let result ← Action.attempt (requestPostBytesWithAuthRetry X digest.val bytes
          "monolithic blob upload")
        match result with
        | .ok fetched =>
            if fetched.status = 201 ∨ fetched.status = 200 then pure digest
            else do
              executeTwoStepPut X client digest bytes
              pure digest
        | .error _ => do
            executeTwoStepPut X client digest bytes
            pure digest

def ensureEmptyConfig : Exchange Unit := do
  let digest ← pushBytes X client (Str.asBytes "\x7b\x7d")
  Action.ofExcept <| ensure (digest.val = emptyConfigDigest)
    (.digestMismatch "empty config" emptyConfigDigest digest.val)

/-- `push_zstd`: the digest, the compressed and the uncompressed size. -/
def pushZstd (document : Json) : Exchange (ContentDigest × UInt64 × UInt64) := do
  let raw := IndexCodec.toVec X document
  let compressed ← Action.ofExcept (IndexCodec.encodeZstd X document)
  let digest ← pushBytes X client compressed
  pure (digest, UInt64.ofNat compressed.length, UInt64.ofNat raw.length)

end

end BlobClient

/-! ## Manifests -/

structure FetchedOciArtifact where
  manifest : OciArtifactManifest
  digest : String

namespace ManifestClient

section

variable (X : OciCrates) (client : OciClient)

/-- The digest that a reference names, when it is one. -/
def requestDigest (reference : String) : Except OciError (Option ContentDigest) :=
  if Str.startsWith reference "sha256:" then some <$> ContentDigest.parse reference else .ok none

/-- The body of a manifest with status 200, with its digest. -/
def readManifest (reference : String) (expectedSize : Option UInt64) (fetched : Fetched) :
    Except OciError (String × String) := do
  let expected ← requestDigest reference
  let contentLength ← mapErr .transport (parseContentLength fetched.headers)
  let digest ← verifyBufferedBody X.toCrates (client.manifestUrl reference)
    (expected.map ContentDigest.val) (fetched.headers.get "docker-content-digest") expectedSize
    contentLength fetched.body
  let body ← okOr .invalidUtf8Manifest (Str.fromUtf8 fetched.body)
  pure (body, digest.val)

def getWithExpectedSize (reference : String) (expectedSize : Option UInt64) :
    Exchange (Option (String × String)) := do
  Action.ofExcept <| whenSome expectedSize fun size =>
    ensure (size ≤ client.limits.maxManifestBytes)
      (.sizeLimitExceeded reference client.limits.maxManifestBytes.toNat size.toNat)
  let fetched ← requestGetWithAuthRetry X (client.manifestUrl reference) (.getManifest reference)
    "get manifest" client.limits.maxManifestBytes
  if fetched.status = 200 then do
    let manifest ← Action.ofExcept (readManifest X client reference expectedSize fetched)
    pure (some manifest)
  else if fetched.status = 404 then pure none
  else Action.ofExcept (.error (.manifestFetchFailed fetched.status))

def getWithDigest (reference : String) : Exchange (Option (String × String)) :=
  getWithExpectedSize X client reference none

def getWithDigestAndSize (reference : String) (expectedSize : UInt64) :
    Exchange (Option (String × String)) :=
  getWithExpectedSize X client reference (some expectedSize)

/-- `serde_json::from_str`. -/
def parseJson {α : Type} (decode : Json → Except JsonError α) (text : String) : Except OciError α :=
  IndexCodec.decodeJson X decode (Str.asBytes text)

def fetchArtifact (reference : String) : Exchange (Option FetchedOciArtifact) := do
  match ← getWithDigest X client reference with
  | none => pure none
  | some (body, digest) => do
      let manifest ← Action.ofExcept (parseJson X OciArtifactManifest.fromJson body)
      Action.ofExcept (manifest.validateFor client.limits reference)
      pure (some ⟨manifest, digest⟩)

/-- The statuses of a manifest PUT that count as success. -/
def isPutSuccess (status : StatusCode) : Bool := status = 200 ∨ status = 201 ∨ status = 202

/-- A PUT without condition: `ManifestClient::put` after the configuration blob, and
`IndexClient::put`. -/
def putText (reference contentType operation text : String) : Exchange Unit := do
  let fetched ← requestPutBytesWithAuthRetry X
    (.putManifest reference contentType none (Str.asBytes text)) operation
  Action.ofExcept <| ensure (isPutSuccess fetched.status) (.manifestPushFailed fetched.status)

def ensureCasSupported (tag : String) : Except OciError Unit :=
  ensure (client.capabilities.manifestCasSupport = .ifMatch) (.casUnsupported tag client.kind)

/-- `insert_cas_condition`: the digest that is expected. -/
def insertCasCondition : ManifestCasCondition → Except OciError (Option String)
  | .createOnly => .ok none
  | .matching expected => do
      ensure (isHeaderValue expected) (.transport (.headerParse "If-Match"))
      pure (some expected)

/-- A conditional PUT: the common part of the two `put_cas`. -/
def putTextCas (reference contentType operation text : String) (condition : ManifestCasCondition) :
    Exchange Unit := do
  let expected ← Action.ofExcept (insertCasCondition condition)
  let fetched ← requestPutBytesWithAuthRetry X
    (.putManifest reference contentType (some condition) (Str.asBytes text)) operation
  Action.ofExcept <| ensure (¬ (fetched.status = 412 ∨ fetched.status = 409))
    (.casPreconditionFailed reference expected none)
  Action.ofExcept <| ensure (isPutSuccess fetched.status) (.manifestPushFailed fetched.status)

/-- The configuration blob is pushed before a manifest that mentions it. -/
def ensureConfigFor (text : String) : Exchange Unit :=
  if Str.containsStr text emptyConfigDigest then BlobClient.ensureEmptyConfig X client else pure ()

def put (tag text : String) : Exchange Unit := do
  ensureConfigFor X client text
  putText X tag ociImageManifestMediaType "push manifest" text

def putCas (tag text : String) (condition : ManifestCasCondition) : Exchange Unit := do
  Action.ofExcept (ensureCasSupported client tag)
  ensureConfigFor X client text
  putTextCas X tag ociImageManifestMediaType "push manifest with CAS" text condition

end

end ManifestClient

end NixCache.Oci
