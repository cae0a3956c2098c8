import NixCache.Oci.Upload
/-!
# Streamed downloads

`VerifiedBlobStream` of `nixcache-oci/src/transport.rs` and `verify_stream_digest` of
`integrity.rs`.  A `Sha256` is the bytes it was updated with.
-/

namespace NixCache.Oci

open NixCache.Lib NixCache.Lib.Result NixCache.Core

def verifyStreamDigest (target expectedDigest : String) (headerDigest : Option Bytes)
    (actual : ContentDigest) : Except OciError Unit := do
  whenSome headerDigest (verifyHeaderDigest target actual)
  verifyExpectedDigest target actual expectedDigest

/-- `VerifiedBlobStream`, with the items that the transport still has. -/
structure VerifiedBlobStream where
  inner : List BodyItem
  target : String
  expectedDigest : String
  headerDigest : Option Bytes
  contentLength : Option Nat
  maxBytes : UInt64
  bytesSeen : Nat
  hasher : Bytes
  finished : Bool

/-- `u64::saturating_add`. -/
def saturatingAdd (m n : Nat) : Nat := min (m + n) 18446744073709551615

namespace VerifiedBlobStream

def new (inner : List BodyItem) (target expectedDigest : String) (headers : HeaderMap)
    (maxBytes : UInt64) : Except OciError VerifiedBlobStream := do
  let _ ← ContentDigest.parse expectedDigest
  let contentLength ← mapErr .transport (parseContentLength headers)
  ensure (∀ n ∈ contentLength, n ≤ maxBytes.toNat)
    (.sizeLimitExceeded target maxBytes.toNat (contentLength.getD 0))
  pure {
    inner := inner
    target := target
    expectedDigest := expectedDigest
    headerDigest := headers.get "docker-content-digest"
    contentLength := contentLength
    maxBytes := maxBytes
    bytesSeen := 0
    hasher := []
    finished := false }

/-- The checks at the end of the transport. -/
def verify (X : Crates) (stream : VerifiedBlobStream) : Except OciError Unit := do
  whenSome stream.contentLength fun length => verifySize stream.target length stream.bytesSeen
  verifyStreamDigest stream.target stream.expectedDigest stream.headerDigest
    (ContentDigest.fromBytes X stream.hasher)

def pollNext (X : Crates) (stream : VerifiedBlobStream) :
    Option (Except OciError Bytes) × VerifiedBlobStream :=
  if stream.finished then (none, stream)
  else
    match stream.inner with
    | .error error :: rest =>
        (some (.error (.transport error)), { stream with inner := rest, finished := true })
    | .ok bytes :: rest =>
        let total := saturatingAdd stream.bytesSeen bytes.length
        if total > stream.maxBytes.toNat then
          (some (.error (.sizeLimitExceeded stream.target stream.maxBytes.toNat total)),
            { stream with inner := rest, finished := true })
        else
          (some (.ok bytes),
            { stream with
              inner := rest
              bytesSeen := total
              hasher := stream.hasher ++ bytes })
    | [] =>
        let ended := { stream with hasher := [], finished := true }
        match stream.verify X with
        | .ok () => (none, ended)
        | .error error => (some (.error error), ended)

end VerifiedBlobStream

end NixCache.Oci
