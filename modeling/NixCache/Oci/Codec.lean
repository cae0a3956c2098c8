import NixCache.Oci.Backend
/-!
# Responses, content digests and the index codec

`nixcache-oci/src/integrity.rs`, `codec.rs`, the response handling of `transport.rs`, and
`nixcache-utils/src/compression.rs`.
-/

namespace NixCache.Oci

open NixCache.Lib NixCache.Lib.Result NixCache.Core

/-! ## Headers and responses -/

/-- `http::HeaderMap`: names in lower case. -/
abbrev HeaderMap := List (String × Bytes)

/-- `HeaderMap::get`: the first value of a name. -/
def HeaderMap.get (headers : HeaderMap) (name : String) : Option Bytes := headers.lookup name

def isVisibleAscii (byte : UInt8) : Bool := (32 ≤ byte ∧ byte < 127) ∨ byte = 9

/-- `HeaderValue::to_str`. -/
def headerText (value : Bytes) : Option String :=
  if value.all isVisibleAscii then
    some (String.ofList (value.map fun byte => Char.ofNat byte.toNat))
  else none

/-- `HeaderValue::from_str(value).is_ok()`. -/
def isHeaderValue (value : String) : Bool :=
  (Str.asBytes value).all fun byte => decide ((32 ≤ byte ∧ byte ≠ 127) ∨ byte = 9)

/-- A response with the chunks of its body; a chunk may fail to arrive. -/
structure Response where
  status : StatusCode
  headers : HeaderMap := []
  body : List (Except TransportError Bytes) := []
deriving DecidableEq

/-- What the transport returns for a request. -/
abbrev Reply := Except TransportError Response

/-- `BearerChallenge`. -/
structure BearerChallenge where
  realm : String
  service : Option String
  scope : Option String
deriving DecidableEq, Repr

/-- The functions outside the modelled code that the client calls: `serde_json` between documents
and text, `zstd`, `http::Uri`, `str::to_lowercase`, and the parser of authentication challenges. -/
structure OciCrates extends Crates where
  jsonText : Json → String
  fromSlice : Bytes → Except JsonError Json
  zstdCompress : Bytes → Except String Bytes
  /-- At most the given number of bytes of the decoded stream. -/
  zstdRead : Bytes → Nat → Except String Bytes
  parseUri : String → Except String Uri
  toLowercase : String → String
  parseWwwAuthenticate : HeaderMap → Except OciError (Option BearerChallenge)

def parseContentLength (headers : HeaderMap) : Except TransportError (Option Nat) :=
  match headers.get "content-length" with
  | none => .ok none
  | some value => do
      let text ← okOr (.headerParse "Content-Length") (headerText value)
      let length ← okOr (.headerParse "Content-Length") (Str.parseBelow 18446744073709551616 text)
      pure (some length)

def checkContentLength (url : String) (headers : HeaderMap) (maxBytes : UInt64) :
    Except TransportError (Option Nat) := do
  let length ← parseContentLength headers
  ensure (∀ n ∈ length, n ≤ maxBytes.toNat)
    (.responseTooLarge url maxBytes.toNat (length.getD 0))
  pure length

/-- One chunk of `collect_limited`. -/
def appendChunk (url : String) (maxBytes : UInt64) (body : Bytes)
    (chunk : Except TransportError Bytes) : Except TransportError Bytes := do
  let chunk ← chunk
  ensure (body.length + chunk.length ≤ maxBytes.toNat)
    (.responseTooLarge url maxBytes.toNat (body.length + chunk.length))
  pure (body ++ chunk)

def collectLimited (url : String) (maxBytes : UInt64) (chunks : List (Except TransportError Bytes)) :
    Except TransportError Bytes :=
  foldM (appendChunk url maxBytes) [] chunks

/-! ## Content digests -/

/-- `ContentDigest(String)`. -/
@[ext] structure ContentDigest where
  val : String
deriving DecidableEq, Repr

namespace ContentDigest

def parse (raw : String) : Except OciError ContentDigest := do
  ensure (isSha256 raw)
    (.invalidDescriptor raw
      "expected canonical sha256: followed by 64 lowercase hexadecimal characters")
  pure ⟨raw⟩

def fromBytes (X : Crates) (bytes : Bytes) : ContentDigest := ⟨formatDigest (X.sha256 bytes)⟩

end ContentDigest

def verifySize (target : String) (expected actual : Nat) : Except OciError Unit :=
  ensure (expected = actual) (.sizeMismatch target expected actual)

/-- The check of a `Docker-Content-Digest` header. -/
def verifyHeaderDigest (target : String) (actual : ContentDigest) (header : Bytes) :
    Except OciError Unit := do
  let text ← okOr (.headerDigestMismatch target "<invalid UTF-8>" actual.val) (headerText header)
  let parsed ← mapErr (fun _ => .headerDigestMismatch target text actual.val)
    (ContentDigest.parse text)
  ensure (parsed = actual) (.headerDigestMismatch target parsed.val actual.val)

/-- The check against a digest the caller knows. -/
def verifyExpectedDigest (target : String) (actual : ContentDigest) (expected : String) :
    Except OciError Unit := do
  let expected ← ContentDigest.parse expected
  ensure (expected = actual) (.digestMismatch target expected.val actual.val)

/-- A check of an optional value, skipped when it is absent. -/
def whenSome {α : Type} (value : Option α) (check : α → Except OciError Unit) :
    Except OciError Unit :=
  match value with
  | some value => check value
  | none => .ok ()

def verifyBufferedBody (X : Crates) (target : String) (expectedDigest : Option String)
    (headerDigest : Option Bytes) (expectedSize : Option UInt64) (contentLength : Option Nat)
    (body : Bytes) : Except OciError ContentDigest := do
  whenSome expectedSize fun size => verifySize target size.toNat body.length
  whenSome contentLength fun length => verifySize target length body.length
  let actual := ContentDigest.fromBytes X body
  whenSome headerDigest (verifyHeaderDigest target actual)
  whenSome expectedDigest (verifyExpectedDigest target actual)
  pure actual

/-! ## The index codec -/

def zstdMagic : Bytes := [0x28, 0xB5, 0x2F, 0xFD]

namespace ZstdCodec

def isValidMagic (bytes : Bytes) : Bool := 4 ≤ bytes.length ∧ bytes.take 4 = zstdMagic

def compress (X : OciCrates) (data : Bytes) : Except CompressionError Bytes :=
  mapErr .io (X.zstdCompress data)

/-- `u32::from_le_bytes` of the first four bytes, padded with zeros. -/
def foundMagic (raw : Bytes) : UInt32 :=
  (raw.getD 0 0).toUInt32 + (raw.getD 1 0).toUInt32 * 256 + (raw.getD 2 0).toUInt32 * 65536 +
    (raw.getD 3 0).toUInt32 * 16777216

/-- `max_output_bytes.saturating_add(1)`. -/
def readLimit (maxOutputBytes : UInt64) : Nat :=
  min (maxOutputBytes.toNat + 1) 18446744073709551615

def decompressLimited (X : OciCrates) (raw : Bytes) (maxOutputBytes : UInt64) :
    Except CompressionError Bytes := do
  ensure (raw ≠ []) .emptyBuffer
  ensure (isValidMagic raw) (.invalidMagic (foundMagic raw))
  let uncompressed ← mapErr .io (X.zstdRead raw (readLimit maxOutputBytes))
  ensure (uncompressed.length ≤ maxOutputBytes.toNat)
    (.outputLimitExceeded maxOutputBytes.toNat uncompressed.length)
  pure uncompressed

end ZstdCodec

def rootIndexV8Zstd : String := "application/vnd.nix.cache.root.v8+zstd"

def shardDataV8Zstd : String := "application/vnd.nix.cache.shard.v8+zstd"

structure DecodedIndex (α : Type) where
  value : α
  uncompressedSize : UInt64

namespace IndexCodec

/-- `serde_json::to_vec`. -/
def toVec (X : OciCrates) (document : Json) : Bytes := Str.asBytes (X.jsonText document)

def encodeZstd (X : OciCrates) (document : Json) : Except OciError Bytes :=
  mapErr .compression (ZstdCodec.compress X (toVec X document))

/-- `serde_json::from_slice`. -/
def decodeJson {α : Type} (X : OciCrates) (decode : Json → Except JsonError α) (bytes : Bytes) :
    Except OciError α :=
  liftJson do
    let document ← X.fromSlice bytes
    decode document

def decodeZstd {α : Type} (X : OciCrates) (decode : Json → Except JsonError α) (raw : Bytes)
    (mediaType : String) (maxUncompressedBytes : UInt64) : Except OciError (DecodedIndex α) := do
  ensure (mediaType = rootIndexV8Zstd ∨ mediaType = shardDataV8Zstd)
    (.unsupportedMediaType mediaType)
  let uncompressed ← mapErr .compression
    (ZstdCodec.decompressLimited X raw maxUncompressedBytes)
  let value ← decodeJson X decode uncompressed
  pure ⟨value, UInt64.ofNat uncompressed.length⟩

end IndexCodec

end NixCache.Oci
