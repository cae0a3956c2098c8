import Mathlib.Data.List.Destutter
import Mathlib.Data.List.Sort
import NixCache.Oci.Target
/-!
# Listing tags

`ManifestClient::list_tags` of `client/manifest.rs`, and the page URLs of `client/endpoint.rs`.
-/

namespace NixCache.Oci

open NixCache.Lib NixCache.Lib.Result NixCache.Core

/-! ## Page URLs -/

namespace Query

/-- `hex_digit`. -/
def hexDigit (value : UInt8) : Char :=
  if value < 10 then Char.ofNat (48 + value.toNat) else Char.ofNat (65 + value.toNat - 10)

/-- The characters that stand for a byte. -/
def encodeByte (byte : UInt8) : List Char :=
  let c := Char.ofNat byte.toNat
  if Str.isAsciiAlphanumeric c ∨ c = '-' ∨ c = '.' ∨ c = '_' ∨ c = '~' then [c]
  else ['%', hexDigit (byte >>> 4), hexDigit (byte &&& 15)]

/-- `encode_query_value`. -/
def encodeValue (value : String) : String :=
  String.ofList ((Str.asBytes value).flatMap encodeByte)

end Query

def withLastCursor (url cursor : String) : String :=
  url ++ "?n=100&last=" ++ Query.encodeValue cursor

namespace OciClient

/-- The URL of the page after a cursor. -/
def tagsPageUrl (client : OciClient) : Option String → String
  | some cursor => withLastCursor client.tagsUrl cursor
  | none => client.tagsUrl ++ "?n=100"

end OciClient

/-! ## Requests -/

/-- The requests of a listing: the tags after a cursor, and those of the client. -/
inductive TagRequest where
  | getTags (cursor : Option String)
  | other (request : Request)
deriving DecidableEq

def TagRequest.url (client : OciClient) : TagRequest → Option String
  | .getTags cursor => some (client.tagsPageUrl cursor)
  | .other request => request.url client

/-- The `details` of a `PaginationFailed`: the text of an error, or a text of its own. -/
inductive PaginationDetails where
  | client (error : OciError)
  | json (error : JsonError)
  /-- `HTTP {status} while requesting {url}`. -/
  | http (status : StatusCode) (url : String)
  | text (details : String)
deriving DecidableEq

/-- `OciError::PaginationFailed`, the only error of a listing. -/
structure PaginationFailed where
  repository : String
  cursor : Option String
  pagesFetched : Nat
  collectedTags : Nat
  details : PaginationDetails
deriving DecidableEq

structure TagList where
  tags : List String
  pagesFetched : Nat
deriving DecidableEq

namespace TagList

def pageSize : Nat := 100

def maxTagPages : Nat := 10000

def maxTags : Nat := 2000000

end TagList

namespace ManifestClient

open TagList

/-- `OciTagsListResponse`: a `tags` that is `null` stands for no tags. -/
def tagsFromJson : Json.Decoder (List String) := fun json => do
  let fields ← Json.record ["tags"] json
  let tags ← Json.field fields "tags" (Json.option (Json.list Json.text))
  pure (tags.getD [])

/-- `serde_json::from_slice`. -/
def readTags (X : OciCrates) (body : Bytes) : Except JsonError (List String) := do
  let document ← X.fromSlice body
  tagsFromJson document

/-- What the transport returns for a reply with tags. -/
def readTagsReply (client : OciClient) (cursor : Option String) (reply : Reply) :
    Except OciError Fetched :=
  readReply (collectBody (client.tagsPageUrl cursor) client.limits.maxManifestBytes) reply

section

variable (X : OciCrates) (client : OciClient)

/-- `transport.get`. -/
def getTags (cursor : Option String) : Action TagRequest Reply OciError Fetched := do
  let reply ← Action.request (.getTags cursor)
  Action.ofExcept (readTagsReply client cursor reply)

/-- `request_get_with_auth_retry`: after a 401 with a challenge the GET is sent once more. -/
def getTagsWithAuthRetry (cursor : Option String) : Action TagRequest Reply OciError Fetched := do
  let first ← getTags client cursor
  if first.status ≠ 401 then pure first
  else do
    Action.embed TagRequest.other (requestChallengeForResponse X "list tags" first.headers)
    let second ← getTags client cursor
    Action.ofExcept <| ensure (second.status ≠ 401)
      (.authenticationFailed "list tags" second.status "Bearer challenge retry was rejected")
    pure second

/-! ## The loop -/

/-- The variables of the loop. -/
structure Listing where
  allTags : List String := []
  lastTag : Option String := none
  pagesFetched : Nat := 0
deriving DecidableEq

/-- How an iteration ends that does not fail. -/
inductive Step where
  | finished (list : TagList)
  | continued (listing : Listing)
deriving DecidableEq

namespace Listing

def failed (listing : Listing) (details : PaginationDetails) : PaginationFailed :=
  ⟨client.repo, listing.lastTag, listing.pagesFetched, listing.allTags.length, details⟩

def list (listing : Listing) : TagList := ⟨listing.allTags, listing.pagesFetched⟩

/-- `extend`, `sort` and `dedup`. -/
def mergeTags (allTags tags : List String) : List String :=
  ((allTags ++ tags).insertionSort (· ≤ ·)).destutter (· ≠ ·)

/-- An iteration, from the decoded page on. -/
def addPage (listing : Listing) (tags : List String) : Except PaginationFailed Step := do
  let listing := { listing with pagesFetched := listing.pagesFetched + 1 }
  if tags = [] then
    ensure (listing.lastTag = none)
      (listing.failed client (.text "registry returned an empty page after a full page"))
    pure (.finished listing.list)
  else do
    let newLast := tags.getLast?
    ensure (listing.allTags.length + tags.length ≤ maxTags)
      (listing.failed client (.text s!"tag pagination exceeded the {maxTags}-tag limit"))
    let previousCount := listing.allTags.length
    let listing := { listing with allTags := mergeTags listing.allTags tags }
    ensure (¬ (listing.lastTag ≠ none ∧ listing.allTags.length = previousCount))
      (listing.failed client (.text "registry returned a duplicate page with no new tags"))
    if tags.length < pageSize then pure (.finished listing.list)
    else do
      ensure (¬ (newLast = listing.lastTag ∨ newLast = none))
        (listing.failed client (.text "registry returned a non-advancing pagination cursor"))
      pure (.continued { listing with lastTag := newLast })

/-- What an iteration does with the response. -/
def readPage (listing : Listing) (fetched : Fetched) : Except PaginationFailed Step := do
  ensure (isSuccess fetched.status)
    (listing.failed client (.http fetched.status (client.tagsPageUrl listing.lastTag)))
  let tags ← mapErr (fun error => listing.failed client (.json error)) (readTags X fetched.body)
  listing.addPage client tags

/-- The loop, with the number of pages that are left of `MAX_TAG_PAGES`. -/
def run : Nat → Listing → Action TagRequest Reply PaginationFailed TagList
  | 0, listing =>
      Action.ofExcept (.error
        (listing.failed client (.text s!"tag pagination exceeded the {maxTagPages}-page limit")))
  | remaining + 1, listing => do
      let fetched ← Action.mapErr (fun error => listing.failed client (.client error))
        (getTagsWithAuthRetry X client listing.lastTag)
      match ← Action.ofExcept (listing.readPage X client fetched) with
      | .finished list => pure list
      | .continued next => run remaining next

end Listing

def listTags : Action TagRequest Reply PaginationFailed TagList :=
  Listing.run X client maxTagPages {}

end

end ManifestClient

end NixCache.Oci
