import NixCache.Oci.Registry
import NixCache.Oci.Upload
/-!
# Upload sessions of a registry

What a registry keeps of the uploads that are under way, and what it may answer.  `Step` is any
registry that appends at its own offset and does not lie about it; `Docker.Step` is one that follows
the convention of Docker Distribution, where the bytes `0-0` are also reported for an empty session.
-/

namespace NixCache.Oci

open NixCache.Lib NixCache.Core

/-- The bytes that each session holds. -/
abbrev Sessions := Nat → Bytes

/-- The range that a response reports. -/
def reportedRange (headers : HeaderMap) : Option (Nat × Nat) :=
  ((headers.get "range").bind headerText).bind parseRangeHeader

/-- The URL of the session that a reply opens. -/
def openedUrl (X : OciCrates) (client : OciClient) : Reply → Option String
  | .ok response =>
      if isSuccess response.status then
        ((response.headers.get "location").bind headerText).bind fun location =>
          (resolvedLocation X client location).toOption
      else none
  | .error _ => none

namespace Sessions

section

variable (X : OciCrates) (client : OciClient) (session : String → Nat)

/-- A response may give the session another URL, not another session. -/
def SameSession (url : String) (response : Response) : Prop :=
  ∀ url', updateLocation X client url response.headers = .ok url' → session url' = session url

/-- One exchange.  `session` tells which session a URL is for.  The registry may keep any part of
the bytes of a PATCH at its offset, and then lose the response or refuse. -/
def Step (before : Sessions) (event : UploadRequest × Reply) (after : Sessions) : Prop :=
  match event.1 with
  | .patchChunk url range body =>
      (∃ kept, kept <+: body ∧ (kept ≠ [] → range.1 = (before (session url)).length) ∧
        after = Function.update before (session url) (before (session url) ++ kept)) ∧
      ∀ response, event.2 = .ok response → SameSession X client session url response ∧
        (∀ reported, reportedRange response.headers = some reported →
          reported.2 + 1 = (after (session url)).length) ∧
        -- a success without a range stands for the whole body
        (isSuccess response.status = true → response.headers.get "range" = none →
          range.1 + body.length = (after (session url)).length)
  | .probe url =>
      after = before ∧
      ∀ response, event.2 = .ok response → SameSession X client session url response ∧
        ∀ reported, reportedRange response.headers = some reported →
          reported.2 + 1 = (before (session url)).length
  | .other .postUpload =>
      match openedUrl X client event.2 with
      | some url => after = Function.update before (session url) []
      | none => after = before
  | _ => after = before

end

end Sessions

/-- The reply is lost, or asks to try again. -/
def isTransient : Reply → Bool
  | .error error => retryableError (OciError.ofTransport error)
  | .ok response => retryableStatus response.status

/-- A registry with the convention of Docker Distribution: its sessions, and whether the client has
just fetched a token. -/
structure Docker where
  sessions : Sessions
  fresh : Bool

namespace Docker

/-- The range that is reported for `n` bytes: `0-0` also for none. -/
def rangeOf (n : Nat) : Nat × Nat := (0, n - 1)

section

variable (X : OciCrates) (client : OciClient) (session : String → Nat)

/-- The response names the session, and reports what it holds when it reports a range. -/
def Describes (url : String) (content : Bytes) (response : Response) : Prop :=
  (∃ url', updateLocation X client url response.headers = .ok url' ∧ session url' = session url) ∧
    (response.headers.get "range" = none ∨
      reportedRange response.headers = some (rangeOf content.length))

/-- A request that was not answered with a challenge.  A PATCH is carried out, or its response is
lost after a part of it was kept, or it is not at the offset of the registry; a probe succeeds. -/
def Serves (before : Sessions) (request : UploadRequest) (reply : Reply) (after : Sessions) : Prop :=
  match request with
  | .patchChunk url range body =>
      (∀ response, reply = .ok response →
        Describes X client session url (after (session url)) response) ∧
      ((isTransient reply = true ∧ ∃ kept, kept <+: body ∧
          (kept ≠ [] → range.1 = (before (session url)).length) ∧
          after = Function.update before (session url) (before (session url) ++ kept)) ∨
        ∃ response, reply = .ok response ∧
          ((isSuccess response.status = true ∧ range.1 = (before (session url)).length ∧
              after = Function.update before (session url) (before (session url) ++ body)) ∨
            (response.status = 416 ∧ range.1 ≠ (before (session url)).length ∧ after = before)))
  | .probe url =>
      after = before ∧ ∃ response, reply = .ok response ∧ isSuccess response.status = true ∧
        Describes X client session url (before (session url)) response ∧
        reportedRange response.headers = some (rangeOf (before (session url)).length) ∧
        ∃ body, collectBody url client.limits.maxManifestBytes response = .ok body
  | .putFinish url digest =>
      after = before ∧ ∃ response, reply = .ok response ∧
        response.status = if digestOf X.toCrates (before (session url)) = digest then 201 else 400
  | .other .postUpload =>
      ∃ url, openedUrl X client reply = some url ∧
        after = Function.update before (session url) []
  | .other (.headBlob _) =>
      after = before ∧ ∃ response, reply = .ok response ∧
        (response.status = 200 ∨ response.status = 404)
  | .other (.putUpload _ _ _) =>
      after = before ∧ ∃ response, reply = .ok response ∧ response.status = 201
  | _ => after = before ∧ ∀ response, reply = .ok response → response.status ≠ 401

/-- A refusal with a challenge that the client can answer. -/
def Challenges (request : UploadRequest) (reply : Reply) : Prop :=
  ∃ response challenge, reply = .ok response ∧ response.status = 401 ∧
    X.parseWwwAuthenticate response.headers = .ok (some challenge) ∧
    response.headers.get "range" = none ∧
    ∀ url, request = .probe url →
      ∃ body, collectBody url client.limits.maxManifestBytes response = .ok body

/-- One exchange.  Only a request that does not follow the fetch of a token may be answered with a
challenge. -/
def Step (before : Docker) (event : UploadRequest × Reply) (after : Docker) : Prop :=
  match event.1 with
  | .other (.refreshToken _) =>
      after = ⟨before.sessions, true⟩ ∧
        ∃ response, event.2 = .ok response ∧ isSuccess response.status = true
  | request =>
      (before.fresh = false ∧ after = before ∧ Challenges X client request event.2) ∨
        Serves X client session before.sessions request event.2 after.sessions

end

end Docker

end NixCache.Oci
