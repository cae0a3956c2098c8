import NixCache.Lib.Result
/-!
# Errors of `nixcache-core`

The error values carry the data the source puts in them; `TypeError.text` is the text that
`thiserror` derives, which other errors quote.
-/

namespace NixCache.Core

open NixCache.Lib.Result

inductive TypeError where
  | storeHashInvalidLength (actual : Nat)
  | storeHashInvalidChar (char : Char) (index : Nat)
  | narDigestMissingPrefix (raw : String)
  | narDigestInvalidAlgorithm (algorithm : String)
  | narDigestInvalidHexLength (actual : Nat)
  | narDigestInvalidHexChar (char : Char) (index : Nat)
  | nixHashInvalidAlgorithm (algorithm : String)
  | nixHashInvalidLength (expected : String) (actual : Nat)
  | nixHashInvalidChar (char : Char) (index : Nat)
  | invalidStorePathFormat (raw : String)
  | invalidNarBasename (raw : String)
  | unknownSystemArch (raw : String)
  | originMissingFields
  | emptyOriginJobId
deriving DecidableEq, Repr

def TypeError.text : TypeError → String
  | storeHashInvalidLength actual =>
      s!"StoreHash length mismatch: expected 32 base32 chars, found {actual}"
  | storeHashInvalidChar c index =>
      "Invalid Nix base32 character '" ++ c.toString ++ "' at index " ++ toString index
  | narDigestMissingPrefix raw => "NarDigest missing 'sha256:' prefix in '" ++ raw ++ "'"
  | narDigestInvalidAlgorithm algorithm =>
      "Unsupported NarDigest algorithm '" ++ algorithm ++ "'; only sha256 is accepted"
  | narDigestInvalidHexLength actual =>
      s!"NarDigest hex decode failed: expected 64 hex characters, found {actual}"
  | narDigestInvalidHexChar c index =>
      "Invalid hex character '" ++ c.toString ++ "' in digest at index " ++ toString index
  | nixHashInvalidAlgorithm algorithm =>
      "Unsupported Nix hash algorithm '" ++ algorithm ++ "'; only sha256 is accepted"
  | nixHashInvalidLength expected actual =>
      s!"Nix hash length mismatch: expected {expected}, found {actual}"
  | nixHashInvalidChar c index =>
      "Invalid Nix hash character '" ++ c.toString ++ "' at index " ++ toString index
  | invalidStorePathFormat raw => "Invalid StorePath format: '" ++ raw ++ "'"
  | invalidNarBasename raw => "Invalid NAR basename: '" ++ raw ++ "'"
  | unknownSystemArch raw => "Unsupported system architecture identifier: '" ++ raw ++ "'"
  | originMissingFields => "Origin metadata must contain a run ID or a non-empty job ID"
  | emptyOriginJobId => "Origin job ID must not be empty"

/-- `CoreError`, without the Bloom filter and narinfo parser variants, which no function modelled
here raises. -/
inductive CoreError where
  | type (error : TypeError)
  | invalidIndex (details : String)
  | invalidShard (details : String)
  | invalidEntry (details : String)
  | invalidMerkle (details : String)
  | invalidShardSet (details : String)
  | invalidCanonicalDigest (field details : String)
  | limitExceeded (target : String) (limit actual : Nat)
  | receiptOriginMismatch (hash expected actual : String)
  | invalidReceipt (details : String)
deriving DecidableEq, Repr

def CoreError.text : CoreError → String
  | type error => error.text
  | invalidIndex details => "Invalid Schema v8 root index: " ++ details
  | invalidShard details => "Invalid Schema v8 shard payload: " ++ details
  | invalidEntry details => "Invalid Schema v8 index entry or metadata: " ++ details
  | invalidMerkle details => "Invalid Schema v8 Merkle structure: " ++ details
  | invalidShardSet details => "Invalid Schema v8 shard descriptor set: " ++ details
  | invalidCanonicalDigest field details =>
      "Invalid canonical digest in " ++ field ++ ": " ++ details
  | limitExceeded target limit actual =>
      s!"Schema v8 {target} exceeds limit {limit} (actual {actual})"
  | receiptOriginMismatch hash expected actual =>
      s!"Build receipt origin mismatch for entry {hash}: expected {expected}, got {actual}"
  | invalidReceipt details => "Invalid BuildReceipt: " ++ details

/-- `?` on a `Result` whose error converts with `From`. -/
def liftType {α : Type} : Except TypeError α → Except CoreError α := mapErr .type

end NixCache.Core
