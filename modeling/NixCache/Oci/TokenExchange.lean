import NixCache.Oci.Tags
import NixCache.Oci.Token
/-!
# The exchange of a challenge for a token

`fetch_token_network` of `token.rs`, and the instant at which `get_token_for_key` lets the token
expire.  The `Authorization` header, which is always a header value, is part of the request.
-/

namespace NixCache.Oci

open NixCache.Lib NixCache.Lib.Result NixCache.Core

/-! ## Time -/

/-- A `Duration` of whole seconds. -/
abbrev Duration := UInt64

/-- `Duration::saturating_sub`, and `u64::saturating_sub`. -/
def saturatingSub (a b : UInt64) : UInt64 := if b ≤ a then a - b else 0

/-- `Instant`: the seconds are an `i64`. -/
structure Instant where
  secs : Int
  nanos : Nat
  secsInRange : -9223372036854775808 ≤ secs ∧ secs < 9223372036854775808
  nanosInRange : nanos < 1000000000

namespace Instant

/-- `checked_add`; the operator `+` panics where it gives nothing. -/
def checkedAdd (instant : Instant) (duration : Duration) : Option Instant :=
  if h : instant.secs + duration.toNat < 9223372036854775808 then
    some ⟨instant.secs + duration.toNat, instant.nanos, by
      have := instant.secsInRange
      omega, instant.nanosInRange⟩
  else none

def toNanos (instant : Instant) : Int := instant.secs * 1000000000 + instant.nanos

end Instant

/-- `chrono::DateTime<Utc>`, from the year -262143 to the year 262142. -/
structure DateTime where
  nanos : Int
  inRange : -8334601228800000000000 ≤ nanos ∧ nanos < 8210266876800000000000

namespace DateTime

/-- `parse_from_rfc3339(..).ok()`: an instant out of range is an error. -/
def parseFromRfc3339 (X : Crates) (text : String) : Option DateTime :=
  (X.parseFromRfc3339 text).bind fun nanos =>
    if h : -8334601228800000000000 ≤ nanos ∧ nanos < 8210266876800000000000 then some ⟨nanos, h⟩
    else none

/-- `signed_duration_since(..).num_seconds()`, an `i64`. -/
def numSecondsSince (later earlier : DateTime) : Int :=
  (later.nanos - earlier.nanos).tdiv 1000000000

end DateTime

/-! ## The response -/

structure TokenResponse where
  token : Option String
  accessToken : Option String
  expiresIn : Option UInt64
  issuedAt : Option String
deriving DecidableEq, Repr

namespace TokenResponse

def fromJson : Json.Decoder TokenResponse := fun json => do
  let fields ← Json.record ["token", "access_token", "expires_in", "issued_at"] json
  let token ← Json.optionField fields "token" Json.text
  let accessToken ← Json.optionField fields "access_token" Json.text
  let expiresIn ← Json.optionField fields "expires_in" Json.u64
  let issuedAt ← Json.optionField fields "issued_at" Json.text
  pure ⟨token, accessToken, expiresIn, issuedAt⟩

/-- `serde_json::from_slice`. -/
def fromSlice (X : OciCrates) (body : Bytes) : Except JsonError TokenResponse := do
  let document ← X.fromSlice body
  fromJson document

/-- `token.or(access_token)`, unless it is empty. -/
def bearer (response : TokenResponse) : Option String :=
  (response.token.or response.accessToken).filter fun token => token ≠ ""

def lifetimeSecs (response : TokenResponse) : UInt64 := max (response.expiresIn.getD 300) 1

def elapsedSecs (X : Crates) (response : TokenResponse) (utcNow : DateTime) : UInt64 :=
  match response.issuedAt.bind (DateTime.parseFromRfc3339 X) with
  | some issuedAt => UInt64.ofNat (max (utcNow.numSecondsSince issuedAt) 0).toNat
  | none => 0

def ttl (X : Crates) (response : TokenResponse) (utcNow : DateTime) : Duration :=
  let lifetime := max (saturatingSub response.lifetimeSecs (response.elapsedSecs X utcNow)) 1
  let skew := min lifetime 30
  max (saturatingSub lifetime skew) 1

end TokenResponse

/-! ## The exchange -/

def BearerChallenge.tokenUrl (challenge : BearerChallenge) (defaultService defaultScope : String) :
    String :=
  let service := challenge.service.getD defaultService
  let scope := challenge.scope.getD defaultScope
  let separator := if Str.containsChar challenge.realm '?' then "&" else "?"
  challenge.realm ++ separator ++ "service=" ++ Query.encodeValue service ++ "&scope=" ++
    Query.encodeValue scope

def maxTokenResponseBytes : UInt64 := 1024 * 1024

namespace Tokens.TokenManager

variable (X : OciCrates) (manager : TokenManager) (challenge : Oci.BearerChallenge)

def tokenUrl : String := challenge.tokenUrl manager.defaultService manager.defaultScope

/-- What `transport.get` returns, with every error a `Transport` error. -/
def readTokenReply (reply : Reply) : Except OciError Fetched :=
  mapErr .transport do
    let response ← reply
    let body ← collectBody (manager.tokenUrl challenge) maxTokenResponseBytes response
    pure ⟨response.status, response.headers, body⟩

/-- The token of a response, and how long it is used. -/
def readToken (utcNow : DateTime) (fetched : Fetched) : Except OciError (String × Duration) := do
  ensure (isSuccess fetched.status) (.token (.exchangeFailed challenge.realm fetched.status))
  let response ← mapErr
    (fun _ => .token (.invalidResponse challenge.realm "invalid JSON token response"))
    (TokenResponse.fromSlice X fetched.body)
  let token ← okOr
    (.token (.invalidResponse challenge.realm
      "response does not contain token or access_token"))
    response.bearer
  pure (token, response.ttl X.toCrates utcNow)

/-- `utcNow` is what `Utc::now` returns. -/
def fetchTokenNetwork (utcNow : DateTime) : Exchange (String × Duration) := do
  let reply ← Action.request (.refreshToken challenge)
  let fetched ← Action.ofExcept (readTokenReply manager challenge reply)
  Action.ofExcept (readToken X challenge utcNow fetched)

/-- The leader of a flight, from the fetch up to `expires_at`: `now` is what its clock shows.  There
is no expiry when `clock.now() + ttl` panics. -/
def fetchExpiring (utcNow : DateTime) (now : Instant) :
    Exchange (String × Duration × Option Instant) := do
  let (token, ttl) ← fetchTokenNetwork X manager challenge utcNow
  pure (token, ttl, now.checkedAdd ttl)

end Tokens.TokenManager

end NixCache.Oci
