import NixCache.Oci.Proofs.Sample
import NixCache.Oci.TokenExchange
/-!
# How long a token is used

The lifetime is worked out with saturating `u64`s and is right for every response; the instant at
which it ends is worked out with an addition that panics beyond the last `Instant`.
-/

namespace NixCache.Oci

open NixCache.Lib NixCache.Lib.Result NixCache.Core
open NixCache.Lib.Action (Runs)

/-! ## Machine arithmetic -/

theorem toNat_saturatingSub (a b : UInt64) : (saturatingSub a b).toNat = a.toNat - b.toNat := by
  unfold saturatingSub
  split
  · rename_i h
    exact UInt64.toNat_sub_of_le a b h
  · rename_i h
    rw [UInt64.le_iff_toNat_le] at h
    simp only [UInt64.toNat_zero]
    omega

theorem toNat_max (a b : UInt64) : (max a b).toNat = max a.toNat b.toNat := by
  change (if a ≤ b then b else a).toNat = _
  simp only [UInt64.le_iff_toNat_le]
  split <;> omega

theorem toNat_min (a b : UInt64) : (min a b).toNat = min a.toNat b.toNat := by
  change (if a ≤ b then a else b).toNat = _
  simp only [UInt64.le_iff_toNat_le]
  split <;> omega

namespace Instant

variable {instant : Instant} {duration : Duration}

/-- The addition is exact where it is defined. -/
theorem checkedAdd_eq_some {sum : Instant} (h : instant.checkedAdd duration = some sum) :
    sum.toNanos = instant.toNanos + duration.toNat * 1000000000 := by
  unfold checkedAdd at h
  split at h
  · cases h
    simp only [toNanos]
    omega
  · cases h

theorem isSome_checkedAdd :
    (instant.checkedAdd duration).isSome ↔
      instant.secs + duration.toNat < 9223372036854775808 := by
  unfold checkedAdd
  split <;> simp_all

end Instant

/-! ## The age of a token -/

namespace TokenResponse

variable (X : Crates) (response : TokenResponse) (utcNow : DateTime)

/-- The nanoseconds since the token was issued; none when this is unknown or still to come. -/
def age : Int :=
  match response.issuedAt.bind (DateTime.parseFromRfc3339 X) with
  | some issuedAt => max (utcNow.nanos - issuedAt.nanos) 0
  | none => 0

/-- The lifetime that a response gives, in seconds. -/
def lifetime : Int := ((response.expiresIn.getD 300).toNat : Int)

/-- The nanoseconds of the lifetime that are left. -/
def remaining : Int := response.lifetime * 1000000000 - response.age X utcNow

theorem age_nonneg : 0 ≤ response.age X utcNow := by
  unfold age
  split <;> omega

/-- The `i64` of `num_seconds` is a `u64` once it is not negative. -/
theorem toNat_elapsedSecs :
    ((response.elapsedSecs X utcNow).toNat : Int) = response.age X utcNow / 1000000000 := by
  unfold elapsedSecs age
  cases response.issuedAt.bind (DateTime.parseFromRfc3339 X) with
  | none => simp
  | some issuedAt =>
      have hnow := utcNow.inRange
      have hissued := issuedAt.inRange
      have hsecs : max (utcNow.numSecondsSince issuedAt) 0 =
          max (utcNow.nanos - issuedAt.nanos) 0 / 1000000000 := by
        unfold DateTime.numSecondsSince
        rcases Int.le_total 0 (utcNow.nanos - issuedAt.nanos) with hle | hle
        · rw [Int.tdiv_eq_ediv_of_nonneg hle]
          omega
        · have hneg : (utcNow.nanos - issuedAt.nanos).tdiv 1000000000 =
              -(issuedAt.nanos - utcNow.nanos).tdiv 1000000000 := by
            rw [← Int.neg_tdiv, Int.neg_sub]
          have hnonneg : 0 ≤ (issuedAt.nanos - utcNow.nanos).tdiv 1000000000 :=
            Int.tdiv_nonneg (by omega) (by omega)
          omega
      dsimp only
      rw [hsecs, UInt64.toNat_ofNat']
      omega

theorem toNat_lifetimeSecs :
    (response.lifetimeSecs.toNat : Int) = max response.lifetime 1 := by
  have hone : (1 : UInt64).toNat = 1 := rfl
  rw [lifetimeSecs, toNat_max, hone, lifetime]
  omega

/-- A token is used for its remaining whole seconds less 30, and for one at least. -/
theorem toNat_ttl :
    ((response.ttl X utcNow).toNat : Int) =
      max (response.lifetime - response.age X utcNow / 1000000000 - 30) 1 := by
  have hlifetime := response.toNat_lifetimeSecs
  have helapsed := response.toNat_elapsedSecs X utcNow
  have hage := response.age_nonneg X utcNow
  have hone : (1 : UInt64).toNat = 1 := rfl
  have hthirty : (30 : UInt64).toNat = 30 := rfl
  simp only [ttl, toNat_max, toNat_min, toNat_saturatingSub, hone, hthirty]
  omega

theorem one_le_ttl : 1 ≤ (response.ttl X utcNow).toNat := by
  have h := response.toNat_ttl X utcNow
  omega

theorem ttl_le_remaining :
    ((response.ttl X utcNow).toNat : Int) * 1000000000 ≤
      max (response.remaining X utcNow) 1000000000 := by
  have h := response.toNat_ttl X utcNow
  have hage := response.age_nonneg X utcNow
  unfold remaining
  omega

end TokenResponse

/-! ## Fetching a token -/

namespace Tokens.TokenManager

variable {X : OciCrates} {manager : TokenManager} {challenge : Oci.BearerChallenge}
  {utcNow : DateTime} {now : Instant} {reply : Reply} {response : TokenResponse} {token : String}
  {ttl : Duration} {expiresAt : Option Instant}

/-- The response that a reply of the token server carries. -/
def Carries (X : OciCrates) (manager : TokenManager) (challenge : Oci.BearerChallenge)
    (reply : Reply) (response : TokenResponse) : Prop :=
  ∃ fetched, readTokenReply manager challenge reply = .ok fetched ∧
    TokenResponse.fromSlice X fetched.body = .ok response

theorem readToken_eq_ok {fetched : Fetched} {value : String × Duration}
    (h : readToken X challenge utcNow fetched = .ok value) :
    ∃ response, TokenResponse.fromSlice X fetched.body = .ok response ∧
      isSuccess fetched.status = true ∧ response.bearer = some value.1 ∧
      value.2 = response.ttl X.toCrates utcNow := by
  unfold readToken at h
  simp only [bind_eq_ok, ensure_eq_ok, mapErr_eq_ok, okOr_eq_ok, pure_eq_ok] at h
  obtain ⟨_, hsuccess, response, hresponse, token, htoken, rfl⟩ := h
  exact ⟨response, hresponse, hsuccess, htoken, rfl⟩

/-- A fetch is one exchange, and the reply decides how long the token is used. -/
theorem runs_fetchExpiring {trace : Program.Trace Request Reply}
    (h : Runs (fetchExpiring X manager challenge utcNow now) trace (.ok (token, ttl, expiresAt))) :
    ∃ reply response, trace = [(.refreshToken challenge, reply)] ∧
      Carries X manager challenge reply response ∧ response.bearer = some token ∧
      ttl = response.ttl X.toCrates utcNow ∧ expiresAt = now.checkedAdd ttl := by
  unfold fetchExpiring fetchTokenNetwork at h
  simp only [Action.runs_bind_ok, Action.runs_request, Action.runs_ofExcept, Action.runs_pure] at h
  obtain ⟨_, _, value, rfl, ⟨_, _, reply, rfl, ⟨_, rfl, hreply⟩, _, _, fetched, rfl,
    ⟨rfl, hfetched⟩, rfl, hvalue⟩, rfl, hresult⟩ := h
  cases hreply
  cases hresult
  obtain ⟨response, hresponse, _, hbearer, httl⟩ := readToken_eq_ok hvalue.symm
  exact ⟨reply, response, by simp, ⟨fetched, hfetched.symm, hresponse⟩, hbearer, httl, rfl⟩

theorem Carries.unique {response' : TokenResponse}
    (h : Carries X manager challenge reply response)
    (h' : Carries X manager challenge reply response') : response = response' := by
  obtain ⟨fetched, hfetched, hresponse⟩ := h
  obtain ⟨fetched', hfetched', hresponse'⟩ := h'
  rw [hfetched] at hfetched'
  cases hfetched'
  rw [hresponse] at hresponse'
  cases hresponse'
  rfl

/-- What a token's lifetime should be: at least a second, no longer than what is left of it, and
with an end that there is. -/
structure KeepsLifetime (X : Crates) (response : TokenResponse) (utcNow : DateTime) (now : Instant)
    (ttl : Duration) (expiresAt : Option Instant) : Prop where
  positive : 1 ≤ ttl.toNat
  bounded : (ttl.toNat : Int) * 1000000000 ≤ max (response.remaining X utcNow) 1000000000
  defined : ∃ instant, expiresAt = some instant ∧
    instant.toNanos = now.toNanos + ttl.toNat * 1000000000

/-- The seconds that the clock would show when the token expires are an `i64`. -/
def ExpiryFits (X : Crates) (response : TokenResponse) (utcNow : DateTime) (now : Instant) : Prop :=
  now.secs + max (response.lifetime - response.age X utcNow / 1000000000 - 30) 1 <
    9223372036854775808

/-- A fetched token has a right lifetime, except that its end may not be an instant. -/
theorem fetchExpiring_keepsLifetime_iff
    (hrun : Runs (fetchExpiring X manager challenge utcNow now) [(.refreshToken challenge, reply)]
      (.ok (token, ttl, expiresAt)))
    (hresponse : Carries X manager challenge reply response) :
    KeepsLifetime X.toCrates response utcNow now ttl expiresAt ↔
      ExpiryFits X.toCrates response utcNow now := by
  obtain ⟨reply', response', htrace, hcarries, _, rfl, rfl⟩ := runs_fetchExpiring hrun
  have hsame : reply' = reply := by simpa using htrace.symm
  subst hsame
  have hunique := hcarries.unique hresponse
  subst hunique
  have httl := response'.toNat_ttl X.toCrates utcNow
  have hsome : (now.checkedAdd (response'.ttl X.toCrates utcNow)).isSome ↔ _ :=
    Instant.isSome_checkedAdd
  rw [httl] at hsome
  constructor
  · intro h
    obtain ⟨instant, hinstant, _⟩ := h.defined
    exact hsome.mp (by rw [hinstant]; rfl)
  · intro hfits
    obtain ⟨instant, hinstant⟩ := Option.isSome_iff_exists.mp (hsome.mpr hfits)
    exact ⟨response'.one_le_ttl _ _, response'.ttl_le_remaining _ _, instant, hinstant,
      Instant.checkedAdd_eq_some hinstant⟩

/-! ## A sample exchange -/

def sampleManager : TokenManager where
  endpoint := sampleClient.endpoint
  repo := sampleClient.repo
  writeAccess := false
  driver := sampleClient.kind
  toLowercase := Str.toAsciiLowercase
  validateChallenge _ := .ok ()

def sampleChallenge : Oci.BearerChallenge := ⟨"https://cache.azurecr.io/token", none, none⟩

/-- A token that was not said to be issued at any time. -/
def sampleResponse (expiresIn : UInt64) : TokenResponse := ⟨some "secret", none, some expiresIn, none⟩

def responseDocument (expiresIn : UInt64) : Json :=
  .obj [("token", .str "secret"), ("expires_in", .int expiresIn.toNat)]

def responseBody (expiresIn : UInt64) : Bytes :=
  IndexCodec.toVec (storingCrates sampleCrates) (responseDocument expiresIn)

def sampleReply (expiresIn : UInt64) : Reply := .ok ⟨200, [], [.ok (responseBody expiresIn)]⟩

theorem length_responseBody_le (expiresIn : UInt64) :
    (responseBody expiresIn).length ≤ maxTokenResponseBytes.toNat := by
  have hnumber := weight_nat_le expiresIn.toNat_lt
  have hbytes := length_toVec_le sampleCrates (responseDocument expiresIn)
  have hnames : 6 * "token".length + JsonText.weight (.str "secret") + 6 * "expires_in".length ≤
    200 := by decide
  have hlimit : maxTokenResponseBytes.toNat = 1048576 := rfl
  unfold responseBody
  rw [hlimit]
  simp only [responseDocument, JsonText.weight, JsonText.weightFields] at hbytes hnames hnumber ⊢
  omega

theorem fromJson_responseDocument (expiresIn : UInt64) :
    TokenResponse.fromJson (responseDocument expiresIn) = .ok (sampleResponse expiresIn) := by
  have hrecord : Json.record ["token", "access_token", "expires_in", "issued_at"]
      (responseDocument expiresIn) = .ok fun name => List.lookup name
        [("token", .str "secret"), ("expires_in", .int expiresIn.toNat)] :=
    Json.record_obj (by simp)
  have hnumber : Json.option Json.u64 (.int expiresIn.toNat) = .ok (some expiresIn) :=
    Json.option_u64 (some expiresIn)
  unfold TokenResponse.fromJson
  rw [hrecord, bind_eq_ok]
  refine ⟨_, rfl, ?_⟩
  simp only [bind_eq_ok, pure_eq_ok]
  exact ⟨some "secret", rfl, none, rfl, some expiresIn, hnumber, none, rfl, rfl⟩

def sampleFetched (expiresIn : UInt64) : Fetched := ⟨200, [], responseBody expiresIn⟩

theorem fromSlice_sampleFetched (expiresIn : UInt64) :
    TokenResponse.fromSlice (storingCrates sampleCrates) (sampleFetched expiresIn).body =
      .ok (sampleResponse expiresIn) := by
  have hplain : JsonText.isPlain (responseDocument expiresIn) = true := rfl
  have hdocument : (storingCrates sampleCrates).fromSlice (responseBody expiresIn) =
      .ok (responseDocument expiresIn) := JsonText.parse_render hplain
  unfold TokenResponse.fromSlice
  rw [bind_eq_ok]
  exact ⟨_, hdocument, fromJson_responseDocument expiresIn⟩

theorem readTokenReply_sampleReply (expiresIn : UInt64) :
    readTokenReply sampleManager sampleChallenge (sampleReply expiresIn) =
      .ok (sampleFetched expiresIn) := by
  have hcollect : collectBody (sampleManager.tokenUrl sampleChallenge) maxTokenResponseBytes
      ⟨200, [], [.ok (responseBody expiresIn)]⟩ = .ok (responseBody expiresIn) := by
    have hbody := length_responseBody_le expiresIn
    simp only [collectBody, checkContentLength, parseContentLength, bind_eq_ok, ensure_eq_ok,
      pure_eq_ok, collectLimited, Result.foldM, appendChunk, List.nil_append, List.length_nil,
      Nat.zero_add, Except.ok.injEq]
    exact ⟨none, ⟨none, rfl, ⟨(), by simp, rfl⟩⟩, _, ⟨_, rfl, (), hbody, rfl⟩, rfl⟩
  unfold readTokenReply sampleReply
  rw [mapErr_eq_ok, bind_eq_ok]
  refine ⟨_, rfl, ?_⟩
  rw [bind_eq_ok]
  exact ⟨_, hcollect, rfl⟩

theorem carries_sampleReply (expiresIn : UInt64) :
    Carries (storingCrates sampleCrates) sampleManager sampleChallenge (sampleReply expiresIn)
      (sampleResponse expiresIn) :=
  ⟨_, readTokenReply_sampleReply expiresIn, fromSlice_sampleFetched expiresIn⟩

theorem runs_sampleReply (expiresIn : UInt64) (utcNow : DateTime) (now : Instant) :
    Runs (fetchExpiring (storingCrates sampleCrates) sampleManager sampleChallenge utcNow now)
      [(.refreshToken sampleChallenge, sampleReply expiresIn)]
      (.ok ("secret", (sampleResponse expiresIn).ttl sampleCrates utcNow,
        now.checkedAdd ((sampleResponse expiresIn).ttl sampleCrates utcNow))) := by
  have hread : readToken (storingCrates sampleCrates) sampleChallenge utcNow
      (sampleFetched expiresIn) =
        .ok ("secret", (sampleResponse expiresIn).ttl sampleCrates utcNow) := by
    have hstatus : isSuccess 200 = true := by decide
    unfold readToken
    simp only [bind_eq_ok, ensure_eq_ok, mapErr_eq_ok, okOr_eq_ok, pure_eq_ok]
    exact ⟨(), hstatus, _, fromSlice_sampleFetched expiresIn, "secret", rfl, rfl⟩
  have hfetch : Runs (fetchTokenNetwork (storingCrates sampleCrates) sampleManager sampleChallenge
      utcNow) [(.refreshToken sampleChallenge, sampleReply expiresIn)]
        (.ok ("secret", (sampleResponse expiresIn).ttl sampleCrates utcNow)) :=
    Runs.bind (Runs.request _ _)
      (Runs.ofExcept_bind (readTokenReply_sampleReply expiresIn)
        (Action.runs_ofExcept.mpr ⟨rfl, hread.symm⟩))
  exact Runs.bind hfetch (Action.runs_pure.mpr ⟨rfl, rfl⟩)

/-- An hour after the host was started, at the beginning of the year 2025. -/
def sampleInstant : Instant := ⟨3600, 0, by decide, by decide⟩

def sampleTime : DateTime := ⟨1735689600000000000, by decide⟩

theorem fetchExpiring_keepsLifetime_iff_fiveMinutes :
    KeepsLifetime sampleCrates (sampleResponse 300) sampleTime sampleInstant
        ((sampleResponse 300).ttl sampleCrates sampleTime)
        (sampleInstant.checkedAdd ((sampleResponse 300).ttl sampleCrates sampleTime)) ↔
      ExpiryFits sampleCrates (sampleResponse 300) sampleTime sampleInstant :=
  fetchExpiring_keepsLifetime_iff (runs_sampleReply 300 sampleTime sampleInstant)
    (carries_sampleReply 300)

/-- A response may give a token the longest lifetime that there is. -/
theorem longestLifetime_not_kept :
    ∃ ttl expiresAt,
      Runs (fetchExpiring (storingCrates sampleCrates) sampleManager sampleChallenge sampleTime
        sampleInstant) [(.refreshToken sampleChallenge, sampleReply 18446744073709551615)]
        (.ok ("secret", ttl, expiresAt)) ∧
      Carries (storingCrates sampleCrates) sampleManager sampleChallenge
        (sampleReply 18446744073709551615) (sampleResponse 18446744073709551615) ∧
      expiresAt = none ∧
      ¬ KeepsLifetime sampleCrates (sampleResponse 18446744073709551615) sampleTime sampleInstant
        ttl expiresAt := by
  have hnone : sampleInstant.checkedAdd
      ((sampleResponse 18446744073709551615).ttl sampleCrates sampleTime) = none := by
    decide
  refine ⟨_, _, runs_sampleReply _ sampleTime sampleInstant, carries_sampleReply _, hnone, ?_⟩
  intro h
  obtain ⟨instant, hinstant, _⟩ := h.defined
  rw [hnone] at hinstant
  cases hinstant

end Tokens.TokenManager

end NixCache.Oci
