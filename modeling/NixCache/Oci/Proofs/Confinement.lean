import NixCache.Lib.History
import NixCache.Oci.Proofs.Sample
import NixCache.Oci.Proofs.Upload
import NixCache.Oci.Target
/-!
# Where requests go

Every request of a client goes to its endpoint, or to a URL that an absolute `Location` of an earlier
response gave.
-/

namespace NixCache.Oci

open NixCache.Lib NixCache.Lib.Result NixCache.Core NixCache.Lib.Action
open Program (Trace)

variable {X : OciCrates} {client : OciClient} {config : UploadConfig}

/-- The URL has the scheme and the authority of the endpoint. -/
def AtEndpoint (client : OciClient) (url : String) : Prop :=
  ∃ path, Str.startsWith path "/" = true ∧ url = client.endpoint.origin ++ path

/-- The URL is an absolute `Location`: of `http` or `https`, and without user information. -/
def IsAbsolute (X : OciCrates) (location url : String) : Prop :=
  ∃ (scheme : RegistryScheme) (rawScheme rest : String) (uri : Uri) (authority : String),
    Str.splitOnceStr (Str.trim location) "://" = some (rawScheme, rest) ∧
    url = scheme.asStr ++ "://" ++ rest ∧ X.parseUri (Str.trim location) = .ok uri ∧
    uri.authority = some authority ∧ Str.containsChar authority '@' = false

/-- The `Location` header of a response, as text. -/
def Response.location (response : Response) : Option String :=
  (response.headers.get "location").bind headerText

/-- A session URL that the client may use after the exchanges `past`. -/
def KnownUrl (X : OciCrates) (client : OciClient) (past : Trace UploadRequest Reply)
    (url : String) : Prop :=
  AtEndpoint client url ∨
    ∃ request response location, (request, .ok response) ∈ past ∧
      response.location = some location ∧ IsAbsolute X location url

theorem KnownUrl.mono {past past' : Trace UploadRequest Reply} {url : String}
    (h : KnownUrl X client past url) (hpast : past <+: past') : KnownUrl X client past' url := by
  rcases h with hendpoint | ⟨request, response, location, hmem, hlocation⟩
  · exact Or.inl hendpoint
  · exact Or.inr ⟨request, response, location, hpast.subset hmem, hlocation⟩

theorem AtEndpoint.append {url : String} (h : AtEndpoint client url) (s : String) :
    AtEndpoint client (url ++ s) := by
  obtain ⟨path, hslash, rfl⟩ := h
  obtain ⟨rest, hrest⟩ := Str.startsWith_iff.mp hslash
  refine ⟨path ++ s, Str.startsWith_iff.mpr ⟨rest ++ s.toList, ?_⟩, String.append_assoc⟩
  rw [String.toList_append, hrest, List.append_assoc]

section

variable {α β : Type}

end

/-! ## Uploads in one request -/

section

variable {history : Trace UploadRequest Reply}

end

/-! ## Uploads in chunks -/

def PatchOutcome.sessionUrl : PatchOutcome → String
  | .advanced state => state.sessionUrl
  | .interrupted state _ => state.sessionUrl

section

variable {history : Trace UploadRequest Reply} {α β : Type}

variable {chunkStart chunkEnd : Nat} {state : ChunkState}

end

/-! ## The whole client -/

end NixCache.Oci
