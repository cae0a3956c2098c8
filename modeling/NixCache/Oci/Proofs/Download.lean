import NixCache.Lib.PullStream
import NixCache.Oci.Download
import NixCache.Oci.Proofs.Sample
import NixCache.Oci.Proofs.Serving
/-!
# Verification does not see the chunks

A verified stream passes on a part of what the transport delivers and stops at the first failure.
It ends without one exactly when the same bytes pass the check of a whole body, and the digest that
a hashing stream publishes is the digest of all that was delivered.
-/

namespace NixCache.Oci

open NixCache.Lib NixCache.Lib.Result NixCache.Core
open PullStream (Yields after)

variable {X : Crates} {items : List BodyItem}

/-! ## What a transport delivers -/

/-- The chunks before the first error. -/
def deliveredChunks : List BodyItem → List Bytes
  | .ok bytes :: rest => bytes :: deliveredChunks rest
  | _ => []

/-- The transport ends without an error. -/
def EndsCleanly (items : List BodyItem) : Prop := ∀ error, .error error ∉ items

@[simp] theorem endsCleanly_nil : EndsCleanly [] := fun _ => List.not_mem_nil

@[simp] theorem endsCleanly_ok {bytes : Bytes} :
    EndsCleanly (.ok bytes :: items) ↔ EndsCleanly items := by
  simp [EndsCleanly]

@[simp] theorem not_endsCleanly_error {error : TransportError} :
    ¬ EndsCleanly (.error error :: items) := by
  intro h
  exact h error List.mem_cons_self

/-- `&[u8]`: a slice has at most `isize::MAX` bytes. -/
structure Slice where
  bytes : Bytes
  length_lt : bytes.length < 9223372036854775808

/-! ## The verified stream -/

namespace VerifiedBlobStream

variable {stream next : VerifiedBlobStream}

/-- What a stream returns that passes on these chunks and then fails, or ends. -/
def outputs (sent : List Bytes) (failure : Option OciError) : List (Except OciError Bytes) :=
  sent.map .ok ++ failure.toList.map .error

/-- The stream passes on these chunks, then the failure if there is one, and nothing more. -/
def Sends (X : Crates) (stream : VerifiedBlobStream) (sent : List Bytes)
    (failure : Option OciError) : Prop :=
  Yields (pollNext X) stream (outputs sent failure)

/-! ### One poll -/

theorem pollNext_of_finished (h : stream.finished = true) :
    stream.pollNext X = (none, stream) := by
  rw [pollNext, if_pos h]

theorem pollNext_end (hopen : stream.finished = false) (hinner : stream.inner = []) :
    stream.pollNext X =
      (match stream.verify X with
        | .ok () => none
        | .error error => some (.error error),
      { stream with hasher := [], finished := true }) := by
  rw [pollNext, if_neg (by rw [hopen]; decide), hinner]
  cases stream.verify X with
  | error error => rfl
  | ok _ => rfl

theorem pollNext_error {error : TransportError} {rest : List BodyItem}
    (hopen : stream.finished = false) (hinner : stream.inner = .error error :: rest) :
    stream.pollNext X =
      (some (.error (.transport error)), { stream with inner := rest, finished := true }) := by
  rw [pollNext, if_neg (by rw [hopen]; decide), hinner]

theorem pollNext_over {bytes : Bytes} {rest : List BodyItem} (hopen : stream.finished = false)
    (hinner : stream.inner = .ok bytes :: rest)
    (h : saturatingAdd stream.bytesSeen bytes.length > stream.maxBytes.toNat) :
    stream.pollNext X =
      (some (.error (.sizeLimitExceeded stream.target stream.maxBytes.toNat
        (saturatingAdd stream.bytesSeen bytes.length))),
      { stream with inner := rest, finished := true }) := by
  rw [pollNext, if_neg (by rw [hopen]; decide), hinner]
  simp only [h, if_true]

/-- The stream after a chunk was passed on. -/
def advance (stream : VerifiedBlobStream) (bytes : Bytes) (rest : List BodyItem) :
    VerifiedBlobStream :=
  { stream with
    inner := rest
    bytesSeen := saturatingAdd stream.bytesSeen bytes.length
    hasher := stream.hasher ++ bytes }

theorem pollNext_chunk {bytes : Bytes} {rest : List BodyItem} (hopen : stream.finished = false)
    (hinner : stream.inner = .ok bytes :: rest)
    (h : ¬ saturatingAdd stream.bytesSeen bytes.length > stream.maxBytes.toNat) :
    stream.pollNext X = (some (.ok bytes), stream.advance bytes rest) := by
  rw [pollNext, if_neg (by rw [hopen]; decide), hinner]
  simp only [h, if_false]
  rfl

/-! ### All polls -/

/-- A poll that fails is the last one. -/
theorem sends_failure {error : OciError} (h : stream.pollNext X = (some (.error error), next))
    (hfinished : next.finished = true) : stream.Sends X [] (some error) :=
  (PullStream.yields_of_stopped (pollNext_of_finished hfinished)).cons h

theorem sends_end (h : stream.pollNext X = (none, next)) (hfinished : next.finished = true) :
    stream.Sends X [] none :=
  PullStream.yields_of_ended h (pollNext_of_finished hfinished)

theorem Sends.cons {bytes : Bytes} {sent : List Bytes} {failure : Option OciError}
    (hnext : next.Sends X sent failure) (h : stream.pollNext X = (some (.ok bytes), next)) :
    stream.Sends X (bytes :: sent) failure :=
  Yields.cons hnext h

theorem error_mem_outputs {sent : List Bytes} {failure : Option OciError} {error : OciError} :
    .error error ∈ outputs sent failure ↔ failure = some error := by
  simp [outputs, eq_comm]

/-- The counter of the stream is the length of what it has passed on, and within the limit. -/
structure IsCounting (stream : VerifiedBlobStream) : Prop where
  count : stream.bytesSeen = stream.hasher.length
  within : stream.bytesSeen ≤ stream.maxBytes.toNat

/-- The checks at the end, for a stream that has passed on these bytes too. -/
def verifyWith (X : Crates) (stream : VerifiedBlobStream) (bytes : Bytes) : Except OciError Unit := do
  whenSome stream.contentLength fun length =>
    verifySize stream.target length (stream.hasher ++ bytes).length
  verifyStreamDigest stream.target stream.expectedDigest stream.headerDigest
    (ContentDigest.fromBytes X (stream.hasher ++ bytes))

theorem verify_eq (h : stream.IsCounting) : stream.verify X = stream.verifyWith X [] := by
  rw [verify, verifyWith, List.append_nil, h.count]

/-- The bytes fit and pass the checks at the end. -/
def Accepts (X : Crates) (stream : VerifiedBlobStream) (bytes : Bytes) : Prop :=
  stream.hasher.length + bytes.length ≤ stream.maxBytes.toNat ∧ stream.verifyWith X bytes = .ok ()

theorem accepts_nil (h : stream.IsCounting) : stream.Accepts X [] ↔ stream.verify X = .ok () := by
  have hwithin : stream.hasher.length + ([] : Bytes).length ≤ stream.maxBytes.toNat := by
    rw [List.length_nil, Nat.add_zero, ← h.count]
    exact h.within
  rw [Accepts, verify_eq h]
  exact and_iff_right hwithin

theorem accepts_append {bytes more : Bytes} {rest : List BodyItem} :
    stream.Accepts X (bytes ++ more) ↔ (stream.advance bytes rest).Accepts X more := by
  unfold Accepts verifyWith advance
  simp only [List.append_assoc, List.length_append, Nat.add_assoc]

theorem IsCounting.advance {bytes : Bytes} {rest : List BodyItem} (h : stream.IsCounting)
    (hlimit : ¬ saturatingAdd stream.bytesSeen bytes.length > stream.maxBytes.toNat)
    (hlength : stream.hasher.length + bytes.length < 18446744073709551616) :
    (stream.advance bytes rest).IsCounting where
  count := by
    have hcount := h.count
    change saturatingAdd stream.bytesSeen bytes.length = (stream.hasher ++ bytes).length
    rw [List.length_append, saturatingAdd]
    omega
  within := by
    change saturatingAdd stream.bytesSeen bytes.length ≤ stream.maxBytes.toNat
    omega

/-- What remains of the stream is passed on chunk by chunk up to the first failure.  A stream that
counts right has none exactly when the rest arrives and is accepted. -/
theorem exists_sends (items : List BodyItem) (stream : VerifiedBlobStream)
    (hinner : stream.inner = items) (hopen : stream.finished = false) :
    ∃ sent failure, sent <+: deliveredChunks items ∧
      (failure = none → sent = deliveredChunks items) ∧ stream.Sends X sent failure ∧
      (stream.IsCounting →
        stream.hasher.length + (deliveredChunks items).flatten.length < 18446744073709551616 →
        (failure = none ↔ EndsCleanly items ∧ stream.Accepts X (deliveredChunks items).flatten)) := by
  induction items generalizing stream with
  | nil =>
      have hpoll := pollNext_end (X := X) hopen hinner
      cases hverify : stream.verify X with
      | ok _ =>
          rw [hverify] at hpoll
          refine ⟨[], none, List.nil_prefix, fun _ => rfl, sends_end hpoll rfl, fun hcount _ => ?_⟩
          have haccepts : stream.Accepts X [] := (accepts_nil hcount).mpr hverify
          simp [deliveredChunks, haccepts]
      | error error =>
          rw [hverify] at hpoll
          refine ⟨[], some error, List.nil_prefix, nofun, sends_failure hpoll rfl,
            fun hcount _ => ?_⟩
          have haccepts : ¬ stream.Accepts X [] := by
            rw [accepts_nil hcount, hverify]
            intro h
            cases h
          simp [deliveredChunks, haccepts]
  | cons item rest ih =>
      cases item with
      | error error =>
          have hpoll := pollNext_error (X := X) hopen hinner
          refine ⟨[], some (.transport error), List.nil_prefix, nofun,
            sends_failure hpoll rfl, ?_⟩
          simp
      | ok bytes =>
          by_cases hlimit : saturatingAdd stream.bytesSeen bytes.length > stream.maxBytes.toNat
          · have hpoll := pollNext_over (X := X) hopen hinner hlimit
            refine ⟨[], some _, List.nil_prefix, nofun, sends_failure hpoll rfl,
              fun hcount hlength => ?_⟩
            -- the bytes that follow only add to the length
            have haccepts : ¬ stream.Accepts X (deliveredChunks (.ok bytes :: rest)).flatten := by
              intro h
              have hover := h.1
              have hcounted := hcount.count
              rw [deliveredChunks, List.flatten_cons, List.length_append] at hover
              unfold saturatingAdd at hlimit
              omega
            simp [haccepts]
          · have hpoll := pollNext_chunk (X := X) hopen hinner hlimit
            obtain ⟨sent, failure, hleading, hall, hsends, hnone⟩ :=
              ih (stream.advance bytes rest) rfl hopen
            refine ⟨bytes :: sent, failure, List.cons_prefix_cons.mpr ⟨rfl, hleading⟩,
              fun h => congrArg (bytes :: ·) (hall h), hsends.cons hpoll, fun hcount hlength => ?_⟩
            rw [deliveredChunks, List.flatten_cons, List.length_append] at hlength
            have hnext := hnone (hcount.advance hlimit (by omega)) (by
              change (stream.hasher ++ bytes).length + _ < _
              rw [List.length_append]
              omega)
            rw [hnext, deliveredChunks, List.flatten_cons, endsCleanly_ok, accepts_append]

/-! ### New streams -/

section New

variable {target expected : String} {headers : HeaderMap} {maxBytes : UInt64}
  {length : Option Nat}

/-- The stream before the first poll. -/
def opened (items : List BodyItem) (target expected : String) (headers : HeaderMap)
    (length : Option Nat) (maxBytes : UInt64) : VerifiedBlobStream :=
  ⟨items, target, expected, headers.get "docker-content-digest", length, maxBytes, 0, [], false⟩

theorem new_eq_ok (hlength : parseContentLength headers = .ok length) :
    new items target expected headers maxBytes = .ok stream ↔
      isSha256 expected = true ∧ (∀ n ∈ length, n ≤ maxBytes.toNat) ∧
        stream = opened items target expected headers length maxBytes := by
  simp only [new, ContentDigest.parse, bind_eq_ok, ensure_eq_ok, mapErr_eq_ok, pure_eq_ok]
  constructor
  · rintro ⟨_, ⟨_, hexpected, _⟩, length', hlength', _, hmax, rfl⟩
    rw [hlength] at hlength'
    obtain rfl := Except.ok.inj hlength'
    exact ⟨hexpected, hmax, rfl⟩
  · rintro ⟨hexpected, hmax, rfl⟩
    exact ⟨_, ⟨(), hexpected, rfl⟩, length, hlength, (), hmax, rfl⟩

theorem isCounting_opened : (opened items target expected headers length maxBytes).IsCounting :=
  ⟨rfl, Nat.zero_le _⟩

/-- The check of a whole body is the check at the end of a stream. -/
theorem accepts_opened {bytes : Bytes} :
    (opened items target expected headers length maxBytes).Accepts X bytes ↔
      bytes.length ≤ maxBytes.toNat ∧ ∃ digest, verifyBufferedBody X target (some expected)
        (headers.get "docker-content-digest") none length bytes = .ok digest := by
  simp only [Accepts, opened, verifyWith, verifyBufferedBody, verifyStreamDigest,
    List.length_nil, Nat.zero_add, List.nil_append, bind_eq_ok, pure_eq_ok]
  apply and_congr_right
  intro _
  constructor
  · rintro ⟨_, hsize, _, hheader, hexpected⟩
    exact ⟨_, (), rfl, (), hsize, (), hheader, (), hexpected, rfl⟩
  · rintro ⟨_, _, _, _, hsize, _, hheader, _, hexpected, _⟩
    exact ⟨(), hsize, (), hheader, hexpected⟩

/-- A body that is accepted has a stream. -/
theorem exists_new_of_accepts {bytes : Bytes} (hlength : parseContentLength headers = .ok length)
    (h : (opened items target expected headers length maxBytes).Accepts X bytes) :
    new items target expected headers maxBytes =
      .ok (opened items target expected headers length maxBytes) := by
  obtain ⟨hfits, hverify⟩ := h
  simp only [opened, verifyWith, verifyStreamDigest, verifyExpectedDigest, ContentDigest.parse,
    bind_eq_ok, List.length_nil, Nat.zero_add, List.nil_append] at hfits hverify
  obtain ⟨_, hsize, _, _, _, ⟨_, hexpected, _⟩, _⟩ := hverify
  refine (new_eq_ok hlength).mpr ⟨ensure_eq_ok.mp hexpected, fun n hn => ?_, rfl⟩
  rw [Option.mem_def.mp hn, whenSome, verifySize, ensure_eq_ok] at hsize
  omega

/-- Every stream passes on the chunks up to its first failure. -/
theorem exists_sends_of_new (h : new items target expected headers maxBytes = .ok stream) :
    ∃ sent failure, sent <+: deliveredChunks items ∧
      (failure = none → sent = deliveredChunks items) ∧ stream.Sends X sent failure := by
  have hlength : ∃ length, parseContentLength headers = .ok length := by
    simp only [new, bind_eq_ok, mapErr_eq_ok] at h
    obtain ⟨_, _, length, hlength, _⟩ := h
    exact ⟨length, hlength⟩
  obtain ⟨length, hlength⟩ := hlength
  obtain ⟨_, _, rfl⟩ := (new_eq_ok hlength).mp h
  obtain ⟨sent, failure, hleading, hall, hsends, _⟩ :=
    exists_sends (X := X) items (opened items target expected headers length maxBytes) rfl rfl
  exact ⟨sent, failure, hleading, hall, hsends⟩

/-- A stream ends without an error exactly when all chunks arrive and are accepted as one body. -/
theorem sends_none_iff (hlength : parseContentLength headers = .ok length)
    (hslice : (deliveredChunks items).flatten.length < 18446744073709551616) :
    (∃ stream sent, new items target expected headers maxBytes = .ok stream ∧
        stream.Sends X sent none) ↔
      EndsCleanly items ∧ (opened items target expected headers length maxBytes).Accepts X
        (deliveredChunks items).flatten := by
  obtain ⟨sent, failure, _, _, hsends, hnone⟩ :=
    exists_sends (X := X) items (opened items target expected headers length maxBytes) rfl rfl
  have hiff := hnone isCounting_opened (by
    change 0 + _ < _
    omega)
  constructor
  · rintro ⟨stream, sent', hnew, hended⟩
    obtain ⟨_, _, rfl⟩ := (new_eq_ok hlength).mp hnew
    have hsame : outputs sent' none = outputs sent failure := hended.unique hsends
    apply hiff.mp
    cases failure with
    | none => rfl
    | some error =>
        have hmem : .error error ∈ outputs sent (some error) := error_mem_outputs.mpr rfl
        rw [← hsame, error_mem_outputs] at hmem
        cases hmem
  · intro h
    obtain rfl := hiff.mpr h
    exact ⟨_, sent, exists_new_of_accepts hlength h.2, hsends⟩

end New

end VerifiedBlobStream

/-! ## The hashing stream -/

namespace HashingStream

variable {stream : HashingStream} {digest : ContentDigest}

/-- The state after a number of polls, and possibly a drop. -/
def observed (X : Crates) (polls : Nat) (dropped : Bool) (stream : HashingStream) : HashingStream :=
  let polled := after (pollNext X) polls stream
  if dropped then polled.drop else polled

/-- A drop does not publish a digest, and does not take one back. -/
@[simp] theorem digest_drop : stream.drop.digest = stream.digest := by
  unfold drop digest
  cases stream.terminal with
  | none => rfl
  | some terminal => rfl

theorem after_of_terminal {terminal : StreamHashTerminal} (h : stream.terminal = some terminal)
    (n : Nat) : after (pollNext X) n stream = stream := by
  apply PullStream.after_of_stopped
  rw [pollNext, h]

/-- The digest is there after the poll that found the end, and never otherwise. -/
theorem digest_after (items : List BodyItem) (stream : HashingStream) (hinner : stream.inner = items)
    (hopen : stream.terminal = none) (polls : Nat) :
    (after (pollNext X) polls stream).digest = some digest ↔
      items.length < polls ∧ EndsCleanly items ∧
        digest = ContentDigest.fromBytes X (stream.hashed ++ (deliveredChunks items).flatten) := by
  induction items generalizing stream polls with
  | nil =>
      cases polls with
      | zero => simp [after, HashingStream.digest, hopen]
      | succ polls =>
          have hdone : (stream.pollNext X).2.terminal =
              some (.complete (ContentDigest.fromBytes X stream.hashed)) := by
            rw [pollNext, hopen, hinner]
          rw [after, after_of_terminal hdone]
          simp [pollNext, hopen, hinner, HashingStream.digest, deliveredChunks, eq_comm]
  | cons item rest ih =>
      cases polls with
      | zero => simp [after, HashingStream.digest, hopen]
      | succ polls =>
          cases item with
          | error error =>
              have hfailed : (stream.pollNext X).2.terminal = some .failed := by
                rw [pollNext, hopen, hinner]
              rw [after, after_of_terminal hfailed]
              simp [pollNext, hopen, hinner, HashingStream.digest]
          | ok bytes =>
              have hpoll : (stream.pollNext X).2 =
                  { stream with inner := rest, hashed := stream.hashed ++ bytes } := by
                rw [pollNext, hopen, hinner]
              have hrest := ih { stream with inner := rest, hashed := stream.hashed ++ bytes } rfl
                hopen polls
              rw [after, hpoll, hrest]
              simp [deliveredChunks, List.append_assoc]

theorem digest_observed {polls : Nat} {dropped : Bool} :
    (observed X polls dropped { inner := items }).digest = some digest ↔
      items.length < polls ∧ EndsCleanly items ∧
        digest = ContentDigest.fromBytes X (deliveredChunks items).flatten := by
  have hdropped : (observed X polls dropped { inner := items }).digest =
      (after (pollNext X) polls { inner := items }).digest := by
    cases dropped with
    | false => rfl
    | true => exact digest_drop
  rw [hdropped, digest_after items { inner := items } rfl rfl polls]
  rfl

end HashingStream

/-! ## Streaming and buffering agree -/

/-- A body in chunks of any size, with a transport error at any place or none. -/
theorem streaming_chunking_independent (X : Crates) (body : Slice) (items : List BodyItem)
    (hbody : (deliveredChunks items).flatten = body.bytes) (target expected : String)
    (headers : HeaderMap) (length : Option Nat) (hlength : parseContentLength headers = .ok length)
    (maxBytes : UInt64) :
    (∀ stream, VerifiedBlobStream.new items target expected headers maxBytes = .ok stream →
      ∃ sent failure, sent <+: deliveredChunks items ∧
        (failure = none → sent = deliveredChunks items) ∧ stream.Sends X sent failure) ∧
    ((∃ stream sent, VerifiedBlobStream.new items target expected headers maxBytes = .ok stream ∧
        stream.Sends X sent none) ↔
      EndsCleanly items ∧ body.bytes.length ≤ maxBytes.toNat ∧
        ∃ digest, verifyBufferedBody X target (some expected) (headers.get "docker-content-digest")
          none length body.bytes = .ok digest) ∧
    ∀ polls dropped digest,
      (HashingStream.observed X polls dropped { inner := items }).digest = some digest ↔
        items.length < polls ∧ EndsCleanly items ∧
          digest = ContentDigest.fromBytes X body.bytes := by
  have hslice : (deliveredChunks items).flatten.length < 18446744073709551616 := by
    rw [hbody]
    exact lt_trans body.length_lt (by decide)
  refine ⟨fun stream => VerifiedBlobStream.exists_sends_of_new, ?_, fun polls dropped digest => ?_⟩
  · rw [VerifiedBlobStream.sends_none_iff hlength hslice, VerifiedBlobStream.accepts_opened, hbody]
  · rw [HashingStream.digest_observed, hbody]

/-- Two bytes in three chunks. -/
theorem streaming_chunking_independent_sample :
    ∃ stream sent, VerifiedBlobStream.new [.ok [1], .ok [], .ok [2]] "blob"
        (digestOf stampCrates [1, 2]) [] 10 = .ok stream ∧
      stream.Sends stampCrates sent none := by
  have hclean : EndsCleanly [.ok [1], .ok [], .ok [2]] := by simp
  have hverify : verifyBufferedBody stampCrates "blob" (some (digestOf stampCrates [1, 2])) none none
      none [1, 2] = .ok (ContentDigest.fromBytes stampCrates [1, 2]) :=
    (verifyBufferedBody_plain (X := storingCrates stampCrates)).mpr ⟨rfl, by simp; rfl, by simp⟩
  have hparts := streaming_chunking_independent stampCrates ⟨[1, 2], by decide⟩
    [.ok [1], .ok [], .ok [2]] rfl "blob" (digestOf stampCrates [1, 2]) [] none rfl 10
  exact hparts.2.1.mpr ⟨hclean, by decide, _, hverify⟩

end NixCache.Oci
