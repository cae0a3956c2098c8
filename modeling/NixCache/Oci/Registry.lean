import NixCache.Oci.Client
/-!
# A registry

What a registry keeps and how it answers the requests of the client.  `Step` says which replies an
honest registry may give and what they do: it may refuse any request and then changes nothing, it
applies a conditional PUT only when the condition holds, and it reports a PUT as done exactly with
the statuses in `applied`.  `answer` is the registry that never refuses without a reason.
-/

namespace NixCache.Oci

open NixCache.Lib NixCache.Core

/-- The digest text of some bytes. -/
def digestOf (X : Crates) (bytes : Bytes) : String := (ContentDigest.fromBytes X bytes).val

/-- Manifests by tag and by digest, and blobs by digest. -/
structure Registry where
  tags : String → Option Bytes
  manifests : String → Option Bytes
  blobs : String → Option Bytes

namespace Registry

def empty : Registry := ⟨fun _ => none, fun _ => none, fun _ => none⟩

def lookup (registry : Registry) (reference : String) : Option Bytes :=
  (registry.tags reference).or (registry.manifests reference)

/-- Whether the condition of a PUT holds. -/
def meets (X : Crates) (registry : Registry) (reference : String) :
    ManifestCasCondition → Bool
  | .createOnly => (registry.tags reference).isNone
  | .matching digest => (registry.tags reference).any fun body => digestOf X body = digest

def putManifest (X : Crates) (registry : Registry) (reference : String) (body : Bytes) : Registry :=
  { registry with
    tags := Function.update registry.tags reference (some body)
    manifests := Function.update registry.manifests (digestOf X body) (some body) }

def putBlob (registry : Registry) (digest : String) (body : Bytes) : Registry :=
  { registry with blobs := Function.update registry.blobs digest (some body) }

def deleteBlob (registry : Registry) (digest : String) : Registry :=
  { registry with blobs := Function.update registry.blobs digest none }

/-- The response carries exactly these bytes. -/
def Carries (response : Response) (body : Bytes) : Prop :=
  ∃ chunks : List Bytes, response.body = chunks.map Except.ok ∧ chunks.flatten = body

/-- A refusal does not deny what is there. -/
def MayRefuse (registry : Registry) (status : StatusCode) : Request → Prop
  | .getManifest reference => status = 404 → registry.lookup reference = none
  | .getBlob digest | .headBlob digest => status = 404 → registry.blobs digest = none
  | _ => True

/-- A request that was carried out, with its response. -/
def Performs (X : Crates) (applied : StatusCode → Bool) (before : Registry) (response : Response) :
    Request → Registry → Prop
  | .getManifest reference, after =>
      after = before ∧ ∃ body, before.lookup reference = some body ∧ Carries response body
  | .putManifest reference _ condition body, after =>
      applied response.status = true ∧ (∀ c ∈ condition, before.meets X reference c = true) ∧
        after = before.putManifest X reference body
  | .headBlob digest, after => after = before ∧ (before.blobs digest).isSome = true
  | .getBlob digest, after =>
      after = before ∧ ∃ body, before.blobs digest = some body ∧ Carries response body
  | .deleteBlob digest, after => after = before.deleteBlob digest
  -- a single POST may only open a session, which the response then says
  | .postBlob digest body, after =>
      digestOf X body = digest ∧
        after = if response.status = 202 then before else before.putBlob digest body
  | .putUpload _ digest body, after =>
      digestOf X body = digest ∧ after = before.putBlob digest body
  | .postUpload, after | .deleteUpload _, after | .refreshToken _, after => after = before

/-- One exchange with an honest registry. -/
def Step (X : Crates) (applied : StatusCode → Bool) (before : Registry) (event : Request × Reply)
    (after : Registry) : Prop :=
  match event.2 with
  | .error _ => after = before
  | .ok response =>
      if isSuccess response.status then Performs X applied before response event.1 after
      else after = before ∧ MayRefuse before response.status event.1

/-- A response without headers. -/
def reply (status : StatusCode) (body : List (Except TransportError Bytes)) : Reply :=
  .ok ⟨status, [], body⟩

/-- The body under a name, or 404. -/
def serve : Option Bytes → Reply
  | some body => reply 200 [.ok body]
  | none => reply 404 []

def answer (X : Crates) (registry : Registry) : Request → Reply × Registry
  | .getManifest reference => (serve (registry.lookup reference), registry)
  | .putManifest reference _ condition body =>
      if condition.all (registry.meets X reference) then
        (reply 201 [], registry.putManifest X reference body)
      else (reply 412 [], registry)
  | .headBlob digest =>
      (reply (if (registry.blobs digest).isSome then 200 else 404) [], registry)
  | .getBlob digest => (serve (registry.blobs digest), registry)
  | .deleteBlob digest => (reply 202 [], registry.deleteBlob digest)
  | .postUpload => (.ok ⟨202, [("location", Str.asBytes "/upload")], []⟩, registry)
  | .postBlob digest body | .putUpload _ digest body =>
      if digestOf X body = digest then (reply 201 [], registry.putBlob digest body)
      else (reply 400 [], registry)
  | .deleteUpload _ => (reply 204 [], registry)
  | .refreshToken _ => (reply 200 [], registry)

/-- What a reader sees. -/
def view (X : Crates) (registry : Registry) (request : Request) : Reply :=
  (registry.answer X request).1

end Registry

end NixCache.Oci
