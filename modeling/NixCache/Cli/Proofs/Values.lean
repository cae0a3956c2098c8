import NixCache.Cli.Selector
import NixCache.Core.Proofs.Purge
import NixCache.Lib.Lines
import NixCache.Lib.Text
/-!
# Sizes and times on the command line

What a size or a time denotes, and exactly when the two parsers return it: they slice one byte off
the text for the unit, multiply without a check and subtract any duration from the clock.
-/

namespace NixCache.Cli

open NixCache.Lib NixCache.Lib.Result NixCache.Core
open NixCache.Lib.Str (IsNumeral IsInteger)

/-! ## The last character -/

theorem len_eq_sum (cs : List Char) :
    Str.len (String.ofList cs) = (cs.map Char.utf8Size).sum := by
  rw [← Str.length_asBytes, Str.asBytes_ofList, List.length_flatMap]
  simp only [String.length_utf8EncodeChar]

/-- One byte less than the text ends before its last character only if that has one byte. -/
theorem slicePrefix_init (init : List Char) (last : Char) :
    slicePrefix (init ++ [last]) (((init ++ [last]).map Char.utf8Size).sum - 1) =
      if last.utf8Size = 1 then some init else none := by
  have hlast := last.utf8Size_pos
  induction init with
  | nil =>
      simp only [List.nil_append, List.map_cons, List.map_nil, List.sum_cons, List.sum_nil,
        slicePrefix]
      by_cases hone : last.utf8Size = 1
      · simp [hone]
      · rw [if_neg (by omega), if_neg (by omega), if_neg hone]
  | cons c cs ih =>
      have hc := c.utf8Size_pos
      have hrest : last.utf8Size ≤ ((cs ++ [last]).map Char.utf8Size).sum := by simp
      have hcount : ((c :: cs ++ [last]).map Char.utf8Size).sum - 1 - c.utf8Size =
          ((cs ++ [last]).map Char.utf8Size).sum - 1 := by
        simp only [List.cons_append, List.map_cons, List.sum_cons]
        omega
      simp only [List.cons_append, slicePrefix] at hcount ⊢
      rw [hcount, ih, if_neg, if_pos]
      · by_cases hone : last.utf8Size = 1 <;> simp [hone]
      · simp only [List.map_cons, List.sum_cons]
        omega
      · simp only [List.map_cons, List.sum_cons]
        omega

theorem sliceInit_eq {s : String} {init : List Char} {last : Char}
    (h : s.toList = init ++ [last]) :
    sliceInit s =
      if last.utf8Size = 1 then .ok (String.ofList init) else .error .notCharBoundary := by
  have hlen : Str.len s = ((init ++ [last]).map Char.utf8Size).sum := by
    rw [← h, ← len_eq_sum, String.ofList_toList]
  rw [sliceInit, hlen, h, slicePrefix_init]
  by_cases hone : last.utf8Size = 1 <;> simp [hone]

theorem splitLast_eq {s : String} {init : List Char} {last : Char}
    (h : s.toList = init ++ [last]) :
    splitLast s =
      if last.utf8Size = 1 then .ok (String.ofList init, String.ofList [last])
      else .error .notCharBoundary := by
  rw [splitLast, sliceInit_eq h]
  by_cases hone : last.utf8Size = 1
  · simp only [hone, if_true, Except.bind, bind, pure, Except.pure, h, String.toList_ofList,
      List.drop_left]
  · simp only [hone, if_false, Except.bind, bind]

/-- The last character of a text, when it has one, has one byte. -/
def EndsOnByte (cs : List Char) : Prop := ∀ last ∈ cs.getLast?, last.utf8Size = 1

theorem endsOnByte_append {init : List Char} {last : Char} :
    EndsOnByte (init ++ [last]) ↔ last.utf8Size = 1 := by
  simp [EndsOnByte]

/-! ## Products -/

/-- A product that fits is the product. -/
theorem mulKibi_of_fits (overflowChecks : Bool) {base : UInt64} {count : Nat}
    (h : base.toNat * 1024 ^ count < 2 ^ 64) :
    ∃ value, mulKibi overflowChecks base count = .ok value ∧
      value.toNat = base.toNat * 1024 ^ count := by
  induction count with
  | zero => exact ⟨base, rfl, by simp⟩
  | succ count ih =>
      have hpow : base.toNat * 1024 ^ (count + 1) = base.toNat * 1024 ^ count * 1024 := by
        rw [Nat.pow_succ, Nat.mul_assoc]
      obtain ⟨value, hvalue, hnat⟩ := ih (by omega)
      have hfits : ¬ 2 ^ 64 ≤ value.toNat * (1024 : UInt64).toNat := by
        rw [hnat, show (1024 : UInt64).toNat = 1024 from rfl]
        omega
      refine ⟨value * 1024, ?_, ?_⟩
      · rw [mulKibi, hvalue]
        simp only [bind, Except.bind, mulU64, hfits, and_false, if_false]
      · rw [UInt64.toNat_mul, hnat, show (1024 : UInt64).toNat = 1024 from rfl, hpow]
        exact Nat.mod_eq_of_lt (by omega)

/-- What is returned is the product or what is left of it in 64 bits. -/
theorem mulKibi_toNat {overflowChecks : Bool} {base value : UInt64} {count : Nat}
    (h : mulKibi overflowChecks base count = .ok value) :
    value.toNat = base.toNat * 1024 ^ count % 2 ^ 64 := by
  induction count generalizing value with
  | zero =>
      cases h
      simpa using (Nat.mod_eq_of_lt base.toNat_lt).symm
  | succ count ih =>
      obtain ⟨front, hfront, hmul⟩ := bind_eq_ok.mp h
      have hvalue : value = front * 1024 := by
        unfold mulU64 at hmul
        split at hmul
        · cases hmul
        · exact (Except.ok.inj hmul).symm
      calc value.toNat = front.toNat * 1024 % 2 ^ 64 := by rw [hvalue, UInt64.toNat_mul]; rfl
        _ = base.toNat * 1024 ^ count % 2 ^ 64 * 1024 % 2 ^ 64 := by rw [ih hfront]
        _ = base.toNat * 1024 ^ count * 1024 % 2 ^ 64 := by rw [Nat.mod_mul_mod]
        _ = base.toNat * 1024 ^ (count + 1) % 2 ^ 64 := by rw [Nat.mul_assoc, ← Nat.pow_succ]

/-! ## Sizes -/

/-- The letters of the units of a size, each with its factors of 1024. -/
def sizeLetters : List (Char × Nat) := [('B', 0), ('K', 1), ('M', 2), ('G', 3), ('T', 4)]

/-- A unit of a size is a letter in either case, or nothing for bytes. -/
def SizeUnit (unit : List Char) (count : Nat) : Prop :=
  unit = [] ∧ count = 0 ∨ ∃ letter, unit = [letter] ∧ (upperAscii letter, count) ∈ sizeLetters

/-- The text is the number `n` before a unit of `count` factors, with white space around both. -/
def SizeText (s : String) (n count : Nat) : Prop :=
  ∃ number unit, (Str.trim s).toList = number ++ unit ∧
    IsNumeral (Str.trimChars number) n ∧ SizeUnit unit count

/-- The parser does not panic and returns nothing but the number that the text denotes. -/
def SizeExact (host : Host) (s : String) : Prop :=
  ∃ result, parseSizeStr host s = .ok result ∧
    ∀ value ∈ result, ∃ n count, SizeText s n count ∧ value.toNat = n * 1024 ^ count

/-- The unit of a size, when it is a letter, has one byte, and its product fits in 64 bits. -/
def SizeFits (host : Host) (s : String) : Prop :=
  ((∃ last ∈ (Str.trim s).toList.getLast?, host.isAlphabetic last) →
    EndsOnByte (Str.trim s).toList) ∧
  ∀ n count, SizeText s n count → n < 2 ^ 64 → n * 1024 ^ count < 2 ^ 64

/-- What `char::is_alphabetic` says of ASCII. -/
def Host.AlphabeticOnAscii (host : Host) : Prop :=
  ∀ c, Str.IsAscii c → host.isAlphabetic c = c.isAlpha

theorem unitFactors_eq_some {letter : Char} {count : Nat} :
    unitFactors (some letter) = some count ↔ (letter, count) ∈ sizeLetters := by
  constructor
  · intro h
    unfold unitFactors at h
    split at h <;> simp_all [sizeLetters]
  · intro h
    simp only [sizeLetters, List.mem_cons, Prod.mk.injEq, List.not_mem_nil, or_false] at h
    rcases h with ⟨rfl, rfl⟩ | ⟨rfl, rfl⟩ | ⟨rfl, rfl⟩ | ⟨rfl, rfl⟩ | ⟨rfl, rfl⟩ <;> rfl

theorem isAlpha_of_sizeLetter {letter : Char} {count : Nat}
    (h : (upperAscii letter, count) ∈ sizeLetters) :
    Str.IsAscii letter ∧ letter.isAlpha = true := by
  by_cases hlower : 'a'.toNat ≤ letter.toNat ∧ letter.toNat ≤ 'z'.toNat
  · have hletter : letter.isLower = true :=
      Bool.and_eq_true_iff.mpr ⟨decide_eq_true hlower.1, decide_eq_true hlower.2⟩
    refine ⟨lt_of_le_of_lt hlower.2 (by decide), ?_⟩
    exact Bool.or_eq_true_iff.mpr (Or.inr hletter)
  · rw [upperAscii, if_neg hlower] at h
    simp only [sizeLetters, List.mem_cons, Prod.mk.injEq, List.not_mem_nil, or_false] at h
    rcases h with ⟨rfl, -⟩ | ⟨rfl, -⟩ | ⟨rfl, -⟩ | ⟨rfl, -⟩ | ⟨rfl, -⟩ <;>
      (rw [Str.IsAscii]; decide)

/-- A number ends in a digit, which is no letter. -/
theorem not_isAlphabetic_of_isNumeral {host : Host} (halpha : host.AlphabeticOnAscii)
    {init : List Char} {last : Char} {n : Nat} (h : IsNumeral (init ++ [last]) n) :
    host.isAlphabetic last = false := by
  have hdigit : Str.isAsciiDigit last = true := by
    obtain ⟨digits, hdigits, ⟨hne, hall⟩, -⟩ := h
    have hlast : (init ++ [last]).getLast? = digits.getLast? := by
      rcases hdigits with hdigits | hdigits
      · rw [hdigits]
      · rw [hdigits, List.getLast?_cons, List.getLast?_eq_some_getLast hne, Option.getD_some]
    exact hall last (List.mem_of_getLast? (by rw [← hlast, List.getLast?_concat]))
  have hrange := Str.isAsciiDigit_iff.mp hdigit
  rw [halpha last (lt_of_le_of_lt hrange.2 (by decide)), ← Bool.not_eq_true]
  intro hletter
  rcases Bool.or_eq_true_iff.mp hletter with hupper | hlower
  · have hfirst : 'A'.toNat ≤ last.toNat := (of_decide_eq_true hupper).1
    exact absurd (hfirst.trans hrange.2) (by decide)
  · have hfirst : 'a'.toNat ≤ last.toNat := of_decide_eq_true (Bool.and_eq_true_iff.mp hlower).1
    exact absurd (hfirst.trans hrange.2) (by decide)

section Denotation

variable {host : Host} {s : String} {init : List Char} {last : Char} {n count : Nat}

/-- After a letter the text denotes what is before it, in the letter's unit. -/
theorem sizeText_of_letter (halpha : host.AlphabeticOnAscii)
    (hs : (Str.trim s).toList = init ++ [last]) (hlast : host.isAlphabetic last = true) :
    SizeText s n count ↔
      IsNumeral (Str.trimChars init) n ∧ (upperAscii last, count) ∈ sizeLetters := by
  constructor
  · rintro ⟨number, unit, happ, hnumber, ⟨rfl, -⟩ | ⟨letter, rfl, hletter⟩⟩
    · rw [List.append_nil] at happ
      rw [← happ, Str.trimChars_eq_self_iff.mpr (Str.trimmed_trim s), hs] at hnumber
      rw [not_isAlphabetic_of_isNumeral halpha hnumber] at hlast
      cases hlast
    · obtain ⟨rfl, hlastEq⟩ := List.append_inj' (hs.symm.trans happ) rfl
      cases hlastEq
      exact ⟨hnumber, hletter⟩
  · rintro ⟨hnumber, hletter⟩
    exact ⟨init, [last], hs, hnumber, Or.inr ⟨last, rfl, hletter⟩⟩

/-- Without a letter at its end the text denotes a number of bytes. -/
theorem sizeText_of_not_letter (halpha : host.AlphabeticOnAscii)
    (hs : (Str.trim s).toList = init ++ [last]) (hlast : host.isAlphabetic last = false) :
    SizeText s n count ↔ IsNumeral (Str.trim s).toList n ∧ count = 0 := by
  have htrim : Str.trimChars (Str.trim s).toList = (Str.trim s).toList :=
    Str.trimChars_eq_self_iff.mpr (Str.trimmed_trim s)
  constructor
  · rintro ⟨number, unit, happ, hnumber, ⟨rfl, rfl⟩ | ⟨letter, rfl, hletter⟩⟩
    · rw [List.append_nil] at happ
      rw [← happ, htrim] at hnumber
      exact ⟨hnumber, rfl⟩
    · obtain ⟨-, hlastEq⟩ := List.append_inj' (hs.symm.trans happ) rfl
      cases hlastEq
      obtain ⟨hascii, hletterAlpha⟩ := isAlpha_of_sizeLetter hletter
      rw [halpha last hascii, hletterAlpha] at hlast
      cases hlast
  · rintro ⟨hnumber, rfl⟩
    exact ⟨(Str.trim s).toList, [], (List.append_nil _).symm, by rwa [htrim],
      Or.inl ⟨rfl, rfl⟩⟩

end Denotation

/-- The parser after the text is split into a number and a unit. -/
theorem parseSizeStr_eq {host : Host} {s number : String} {unit : Option Char}
    (hne : Str.isEmpty (Str.trim s) = false)
    (hsplit : splitUnit host (Str.trim s) = .ok (number, unit)) :
    parseSizeStr host s =
      match Str.parseU64 (Str.trim number) with
      | .error _ => .ok none
      | .ok base =>
          match unitFactors unit with
          | some count => some <$> mulKibi host.overflowChecks base count
          | none => .ok none := by
  simp only [parseSizeStr, hne, hsplit, Bool.false_eq_true, if_false, bind, Except.bind]
  rfl

/-- When the number and the unit are what the text denotes, the result is exact if and only if
their product fits. -/
theorem sizeExact_of_split {host : Host} {s number : String} {unit : Option Char}
    (hne : Str.isEmpty (Str.trim s) = false)
    (hsplit : splitUnit host (Str.trim s) = .ok (number, unit))
    (htext : ∀ n count, SizeText s n count ↔
      IsNumeral (Str.trim number).toList n ∧ unitFactors unit = some count) :
    SizeExact host s ↔
      ∀ n count, SizeText s n count → n < 2 ^ 64 → n * 1024 ^ count < 2 ^ 64 := by
  have hparse := parseSizeStr_eq hne hsplit
  constructor
  · rintro ⟨result, hresult, hexact⟩ n count hdenotes hn
    obtain ⟨hnumber, hfactors⟩ := (htext n count).mp hdenotes
    have hbase : Str.parseU64 (Str.trim number) = .ok (UInt64.ofNat n) :=
      Str.parseU64_eq_ok.mpr (by rwa [UInt64.toNat_ofNat_of_lt' hn])
    rw [hresult, hbase, hfactors] at hparse
    obtain ⟨value, hmul, rfl⟩ := map_eq_ok.mp hparse.symm
    obtain ⟨n', count', hdenotes', hvalue⟩ := hexact value rfl
    obtain ⟨hnumber', hfactors'⟩ := (htext n' count').mp hdenotes'
    obtain rfl : n = n' := hnumber.unique hnumber'
    obtain rfl : count = count' := Option.some.inj (hfactors.symm.trans hfactors')
    rw [← hvalue]
    exact value.toNat_lt
  · intro hfits
    cases hbase : Str.parseU64 (Str.trim number) with
    | error e => exact ⟨none, by rw [hparse, hbase], by simp⟩
    | ok base =>
        cases hfactors : unitFactors unit with
        | none => exact ⟨none, by rw [hparse, hbase, hfactors], by simp⟩
        | some count =>
            have hdenotes : SizeText s base.toNat count :=
              (htext base.toNat count).mpr ⟨Str.parseU64_eq_ok.mp hbase, hfactors⟩
            obtain ⟨value, hmul, hvalue⟩ := mulKibi_of_fits host.overflowChecks
              (hfits base.toNat count hdenotes base.toNat_lt)
            refine ⟨some value, ?_, ?_⟩
            · rw [hparse, hbase, hfactors]
              exact map_eq_ok.mpr ⟨value, hmul, rfl⟩
            · intro value' hmem
              obtain rfl := Option.mem_some_iff.mp hmem
              exact ⟨base.toNat, count, hdenotes, hvalue⟩

theorem splitUnit_of_letter {host : Host} {s : String} {init : List Char} {last : Char}
    (hs : s.toList = init ++ [last]) (hlast : host.isAlphabetic last = true) :
    splitUnit host s =
      if last.utf8Size = 1 then .ok (String.ofList init, some (upperAscii last))
      else .error .notCharBoundary := by
  rw [splitUnit, hs, List.getLast?_concat]
  simp only [hlast, if_true, sliceInit_eq hs]
  by_cases hone : last.utf8Size = 1
  · simp only [hone, if_true, bind, Except.bind, pure, Except.pure]
  · simp only [hone, if_false, bind, Except.bind]

theorem splitUnit_of_not_letter {host : Host} {s : String} {init : List Char} {last : Char}
    (hs : s.toList = init ++ [last]) (hlast : host.isAlphabetic last = false) :
    splitUnit host s = .ok (s, none) := by
  rw [splitUnit, hs, List.getLast?_concat]
  simp only [hlast, Bool.false_eq_true, if_false]

theorem sizeExact_iff {host : Host} (halpha : host.AlphabeticOnAscii) (s : String) :
    SizeExact host s ↔ SizeFits host s := by
  rcases List.eq_nil_or_concat (Str.trim s).toList with hnil | ⟨init, last, hs⟩
  · have hparse : parseSizeStr host s = .ok none := by simp [parseSizeStr, Str.isEmpty, hnil]
    have htext : ∀ n count, ¬ SizeText s n count := by
      rintro n count ⟨number, unit, happ, hnumber, -⟩
      rw [hnil] at happ
      rw [(List.append_eq_nil_iff.mp happ.symm).1] at hnumber
      exact hnumber.ne_nil rfl
    constructor
    · intro _
      exact ⟨by simp [hnil], fun n count h => absurd h (htext n count)⟩
    · intro _
      exact ⟨none, hparse, by simp⟩
  · rw [List.concat_eq_append] at hs
    have hne : Str.isEmpty (Str.trim s) = false := by simp [Str.isEmpty, hs]
    have hletter : (∃ last ∈ (Str.trim s).toList.getLast?, host.isAlphabetic last) ↔
        host.isAlphabetic last = true := by simp [hs]
    rw [SizeFits, hletter, hs, endsOnByte_append]
    cases hlast : host.isAlphabetic last with
    | true =>
        have hsplit := splitUnit_of_letter hs hlast
        by_cases hone : last.utf8Size = 1
        · rw [if_pos hone] at hsplit
          rw [sizeExact_of_split hne hsplit]
          · simp [hone]
          · intro n count
            rw [sizeText_of_letter halpha hs hlast, unitFactors_eq_some, Str.toList_trim,
              String.toList_ofList]
        · rw [if_neg hone] at hsplit
          have hparse : parseSizeStr host s = .error .notCharBoundary := by
            simp only [parseSizeStr, hne, hsplit, Bool.false_eq_true, if_false, bind, Except.bind]
          simp [SizeExact, hparse, hone]
    | false =>
        rw [sizeExact_of_split hne (splitUnit_of_not_letter hs hlast)]
        · simp
        · intro n count
          rw [sizeText_of_not_letter halpha hs hlast, Str.trim_trim]
          simp [unitFactors, eq_comm]

/-! ## Instants -/

/-- The units of a duration, each with its seconds. -/
def timeUnits : List (String × Int) := [("d", 86400), ("h", 3600), ("m", 60), ("s", 1)]

/-- The text is the number `value` before a unit of `seconds`, with white space around both. -/
def DurationText (s : String) (value seconds : Int) : Prop :=
  ∃ number unit, (Str.trim s).toList = number ++ unit ∧ IsInteger (Str.trimChars number) value ∧
    (Str.toAsciiLowercase (String.ofList unit), seconds) ∈ timeUnits

/-- The instant that lies a number of seconds before the clock. -/
def secondsAgo (host : Host) (arg : TimeArg) (seconds : Int) : Int :=
  host.now arg - seconds * 1000000000

/-- A timestamp denotes its instant; a duration what lies that long before the clock. -/
def DenotesInstant (host : Host) (arg : TimeArg) (s : String) (instant : Int) : Prop :=
  match host.crates.parseFromRfc3339 (Str.trim s) with
  | some stamp => instant = stamp
  | none => ∃ value seconds, DurationText s value seconds ∧
      instant = secondsAgo host arg (value * seconds)

/-- The parser does not panic and returns nothing but the instant that the text denotes. -/
def InstantExact (host : Host) (arg : TimeArg) (s : String) : Prop :=
  ∃ result, parseDurationOrDatetime host arg s = .ok result ∧
    ∀ instant ∈ result, DenotesInstant host arg s instant

/-- A `TimeDelta` of these seconds exists and the clock can be moved back by it. -/
def InChronoRange (host : Host) (arg : TimeArg) (seconds : Int) : Prop :=
  (-maxDurationSeconds ≤ seconds ∧ seconds ≤ maxDurationSeconds) ∧
    host.minUtc ≤ secondsAgo host arg seconds ∧ secondsAgo host arg seconds ≤ host.maxUtc

/-- A text that is no timestamp ends in a character of one byte, and a duration of 64 bits stays
within the range of chrono. -/
def InstantFits (host : Host) (arg : TimeArg) (s : String) : Prop :=
  host.crates.parseFromRfc3339 (Str.trim s) = none →
    EndsOnByte (Str.trim s).toList ∧
      ∀ value seconds, DurationText s value seconds → -2 ^ 63 ≤ value ∧ value < 2 ^ 63 →
        InChronoRange host arg (value * seconds)

theorem unitSeconds_eq_some {unit : String} {seconds : Int} :
    unitSeconds unit = some seconds ↔ (unit, seconds) ∈ timeUnits := by
  constructor
  · intro h
    unfold unitSeconds at h
    split_ifs at h <;> simp_all [timeUnits]
  · intro h
    simp only [timeUnits, List.mem_cons, Prod.mk.injEq, List.not_mem_nil, or_false] at h
    rcases h with ⟨rfl, rfl⟩ | ⟨rfl, rfl⟩ | ⟨rfl, rfl⟩ | ⟨rfl, rfl⟩ <;> rfl

/-- A duration is read up to its last character. -/
theorem durationText_iff {s : String} {init : List Char} {last : Char} {value seconds : Int}
    (hs : (Str.trim s).toList = init ++ [last]) :
    DurationText s value seconds ↔ IsInteger (Str.trimChars init) value ∧
      unitSeconds (Str.toAsciiLowercase (String.ofList [last])) = some seconds := by
  rw [unitSeconds_eq_some]
  constructor
  · rintro ⟨number, unit, happ, hnumber, hunit⟩
    have hlength : unit.length = 1 := by
      have hlower : (Str.toAsciiLowercase (String.ofList unit)).toList.length = 1 := by
        simp only [timeUnits, List.mem_cons, Prod.mk.injEq, List.not_mem_nil, or_false] at hunit
        rcases hunit with ⟨hunit, -⟩ | ⟨hunit, -⟩ | ⟨hunit, -⟩ | ⟨hunit, -⟩ <;> rw [hunit] <;> rfl
      simpa [Str.toAsciiLowercase] using hlower
    obtain ⟨rfl, rfl⟩ := List.append_inj' (hs.symm.trans happ) hlength.symm
    exact ⟨hnumber, hunit⟩
  · rintro ⟨hnumber, hunit⟩
    exact ⟨init, [last], hs, hnumber, hunit⟩

/-- Moving the clock back succeeds exactly within the range of chrono. -/
theorem duration_nowMinus_eq_ok {host : Host} {arg : TimeArg} {value seconds instant : Int} :
    (duration seconds value >>= nowMinus host arg) = .ok instant ↔
      InChronoRange host arg (value * seconds) ∧
        instant = secondsAgo host arg (value * seconds) := by
  rw [InChronoRange, secondsAgo]
  by_cases hduration : -maxDurationSeconds ≤ value * seconds ∧
      value * seconds ≤ maxDurationSeconds
  · rw [duration, if_pos hduration]
    simp only [bind, Except.bind, nowMinus, hduration, and_self, true_and]
    split_ifs with hinstant
    · simp only [hinstant, and_self, Except.ok.injEq, true_and, eq_comm]
    · simp only [hinstant, false_and, reduceCtorEq]
  · rw [duration, if_neg hduration]
    simp only [bind, Except.bind, hduration, false_and, reduceCtorEq]

/-- A text that is no timestamp, after its unit is split off. -/
theorem parseDurationOrDatetime_eq {host : Host} (arg : TimeArg) {s : String} {init : List Char}
    {last : Char} (hs : (Str.trim s).toList = init ++ [last])
    (hstamp : host.crates.parseFromRfc3339 (Str.trim s) = none) (hone : last.utf8Size = 1) :
    parseDurationOrDatetime host arg s =
      match Str.parseI64 (Str.trim (String.ofList init)) with
      | .error _ => .ok none
      | .ok value =>
          match unitSeconds (Str.toAsciiLowercase (String.ofList [last])) with
          | some seconds => some <$> (duration seconds value >>= nowMinus host arg)
          | none => .ok none := by
  have hne : Str.isEmpty (Str.trim s) = false := by simp [Str.isEmpty, hs]
  have hsplit := splitLast_eq hs
  rw [if_pos hone] at hsplit
  simp only [parseDurationOrDatetime, hne, hstamp, hsplit, Bool.false_eq_true, if_false, bind,
    Except.bind]
  cases Str.parseI64 (Str.trim (String.ofList init)) with
  | error e => rfl
  | ok value =>
      cases unitSeconds (Str.toAsciiLowercase (String.ofList [last])) with
      | none => rfl
      | some seconds => cases hduration : duration seconds value <;> simp only [hduration] <;> rfl

/-- After a unit of one byte the result is exact if and only if the durations that the text may
denote stay within the range of chrono. -/
theorem instantExact_of_split {host : Host} {arg : TimeArg} {s : String} {init : List Char}
    {last : Char} (hs : (Str.trim s).toList = init ++ [last])
    (hstamp : host.crates.parseFromRfc3339 (Str.trim s) = none) (hone : last.utf8Size = 1) :
    InstantExact host arg s ↔
      ∀ value seconds, DurationText s value seconds → -2 ^ 63 ≤ value ∧ value < 2 ^ 63 →
        InChronoRange host arg (value * seconds) := by
  have hparse := parseDurationOrDatetime_eq arg hs hstamp hone
  have hnumber : (Str.trim (String.ofList init)).toList = Str.trimChars init := by
    rw [Str.toList_trim, String.toList_ofList]
  have hread : ∀ value, Str.parseI64 (Str.trim (String.ofList init)) = .ok value ↔
      IsInteger (Str.trimChars init) value ∧ -2 ^ 63 ≤ value ∧ value < 2 ^ 63 := by
    intro value
    rw [Str.parseI64_eq_ok, hnumber]
  constructor
  · rintro ⟨result, hresult, -⟩ value seconds htext hvalue
    obtain ⟨hinteger, hunit⟩ := (durationText_iff hs).mp htext
    rw [hresult, (hread value).mpr ⟨hinteger, hvalue⟩, hunit] at hparse
    obtain ⟨instant, hinstant, -⟩ := map_eq_ok.mp hparse.symm
    exact (duration_nowMinus_eq_ok.mp hinstant).1
  · intro hrange
    cases hvalue : Str.parseI64 (Str.trim (String.ofList init)) with
    | error e => exact ⟨none, by rw [hparse, hvalue], by simp⟩
    | ok value =>
        cases hunit : unitSeconds (Str.toAsciiLowercase (String.ofList [last])) with
        | none => exact ⟨none, by rw [hparse, hvalue, hunit], by simp⟩
        | some seconds =>
            obtain ⟨hinteger, hbounds⟩ := (hread value).mp hvalue
            have htext : DurationText s value seconds :=
              (durationText_iff hs).mpr ⟨hinteger, hunit⟩
            have hinstant := duration_nowMinus_eq_ok.mpr ⟨hrange value seconds htext hbounds, rfl⟩
            refine ⟨some (secondsAgo host arg (value * seconds)), ?_, ?_⟩
            · rw [hparse, hvalue, hunit]
              exact map_eq_ok.mpr ⟨_, hinstant, rfl⟩
            · intro instant hmem
              obtain rfl := Option.mem_some_iff.mp hmem
              rw [DenotesInstant, hstamp]
              exact ⟨value, seconds, htext, rfl⟩

theorem instantExact_iff (host : Host) (arg : TimeArg) (s : String) :
    InstantExact host arg s ↔ InstantFits host arg s := by
  rcases List.eq_nil_or_concat (Str.trim s).toList with hnil | ⟨init, last, hs⟩
  · have hparse : parseDurationOrDatetime host arg s = .ok none := by
      simp [parseDurationOrDatetime, Str.isEmpty, hnil]
    constructor
    · intro _ _
      refine ⟨by simp [EndsOnByte, hnil], ?_⟩
      rintro value seconds ⟨number, unit, happ, hnumber, -⟩
      rw [hnil] at happ
      rw [(List.append_eq_nil_iff.mp happ.symm).1] at hnumber
      exact absurd rfl hnumber.ne_nil
    · intro _
      exact ⟨none, hparse, by simp⟩
  · rw [List.concat_eq_append] at hs
    have hne : Str.isEmpty (Str.trim s) = false := by simp [Str.isEmpty, hs]
    cases hstamp : host.crates.parseFromRfc3339 (Str.trim s) with
    | some stamp =>
        have hparse : parseDurationOrDatetime host arg s = .ok (some stamp) := by
          simp only [parseDurationOrDatetime, hne, hstamp, Bool.false_eq_true, if_false]
          rfl
        constructor
        · intro _ hnone
          rw [hstamp] at hnone
          cases hnone
        · intro _
          refine ⟨some stamp, hparse, ?_⟩
          intro instant hmem
          rw [DenotesInstant, hstamp]
          exact (Option.mem_some_iff.mp hmem).symm
    | none =>
        rw [InstantFits, hs, endsOnByte_append]
        by_cases hone : last.utf8Size = 1
        · rw [instantExact_of_split hs hstamp hone]
          simp [hstamp, hone]
        · have hsplit := splitLast_eq hs
          rw [if_neg hone] at hsplit
          have hparse : parseDurationOrDatetime host arg s = .error .notCharBoundary := by
            simp only [parseDurationOrDatetime, hne, hstamp, hsplit, Bool.false_eq_true, if_false,
              bind, Except.bind]
          simp [InstantExact, hparse, hstamp, hone]

/-- The two parsers do not panic and are exact for the texts that fit, and for no others. -/
theorem valuesExact_iff {host : Host} (halpha : host.AlphabeticOnAscii) (arg : TimeArg)
    (s : String) :
    (SizeExact host s ↔ SizeFits host s) ∧ (InstantExact host arg s ↔ InstantFits host arg s) :=
  ⟨sizeExact_iff halpha s, instantExact_iff host arg s⟩

/-- A release build at the start of 2026 with no variables; `is_alphabetic` is right on ASCII and
on the Cyrillic letters of the examples. -/
def sampleHost : Host where
  crates := sampleCrates
  isAlphabetic c := c.isAlpha || (0x400 ≤ c.toNat && c.toNat ≤ 0x481)
  toLowercase := Str.toAsciiLowercase
  overflowChecks := false
  env _ := none
  now _ := 1767225600000000000
  minUtc := -8334601315200000000000
  maxUtc := 8210266876799999999999

theorem sampleHost_alphabeticOnAscii : sampleHost.AlphabeticOnAscii := by
  intro c hc
  have hlow : ¬ 0x400 ≤ c.toNat := by
    rw [Str.IsAscii] at hc
    omega
  simp [sampleHost, hlow]

/-- `10G` and `7d` fit. -/
theorem valuesExact_iff_plain :
    parseSizeStr sampleHost "10G" = .ok (some 10737418240) ∧
      parseDurationOrDatetime sampleHost .olderThan "7d" = .ok (some 1766620800000000000) ∧
      SizeFits sampleHost "10G" ∧ InstantFits sampleHost .olderThan "7d" := by
  have hsize := (valuesExact_iff sampleHost_alphabeticOnAscii .olderThan "10G").1
  have htime := (valuesExact_iff sampleHost_alphabeticOnAscii .olderThan "7d").2
  have htrimG : (Str.trim "10G").toList = ['1', '0', 'G'] := by decide
  have htrimD : (Str.trim "7d").toList = ['7', 'd'] := by decide
  have hten : IsNumeral (Str.trimChars ['1', '0']) 10 :=
    ⟨['1', '0'], Or.inl (by decide), ⟨by decide, by decide⟩, by decide⟩
  have hseven : IsInteger (Str.trimChars ['7']) 7 :=
    Or.inl ⟨7, ⟨['7'], Or.inl (by decide), ⟨by decide, by decide⟩, by decide⟩, rfl⟩
  have hG : parseSizeStr sampleHost "10G" = .ok (some 10737418240) := by decide +kernel
  have hD : parseDurationOrDatetime sampleHost .olderThan "7d" =
      .ok (some 1766620800000000000) := by decide +kernel
  refine ⟨hG, hD, hsize.mp ⟨_, hG, ?_⟩, htime.mp ⟨_, hD, ?_⟩⟩
  · intro value hvalue
    obtain rfl := Option.mem_some_iff.mp hvalue
    exact ⟨10, 3, ⟨['1', '0'], ['G'], htrimG, hten, Or.inr ⟨'G', rfl, by decide⟩⟩, rfl⟩
  · intro instant hinstant
    obtain rfl := Option.mem_some_iff.mp hinstant
    exact ⟨7, 86400, ⟨['7'], ['d'], htrimD, hseven, by decide⟩, rfl⟩

/-- In a release build 16777216 tebibytes are no bytes; in a debug build they panic, and a time
that ends in a Cyrillic letter panics in both. -/
theorem values_not_exact :
    parseSizeStr sampleHost "16777216T" = .ok (some 0) ∧
      ¬ SizeExact sampleHost "16777216T" ∧
      parseSizeStr { sampleHost with overflowChecks := true } "16777216T" =
        .error .arithmeticOverflow ∧
      parseDurationOrDatetime sampleHost .olderThan "30д" = .error .notCharBoundary ∧
      parseDurationOrDatetime sampleHost .olderThan "100000000000d" = .error .dateTimeOverflow := by
  have hwrapped : parseSizeStr sampleHost "16777216T" = .ok (some 0) := by decide +kernel
  have hsize : ¬ SizeExact sampleHost "16777216T" := by
    rw [sizeExact_iff sampleHost_alphabeticOnAscii]
    intro hfits
    have htrim : (Str.trim "16777216T").toList = "16777216".toList ++ ['T'] := by decide
    have hnumber : IsNumeral (Str.trimChars "16777216".toList) 16777216 :=
      ⟨"16777216".toList, Or.inl (by decide), ⟨by decide, by decide⟩, by decide⟩
    have hproduct := hfits.2 16777216 4
      ⟨"16777216".toList, ['T'], htrim, hnumber, Or.inr ⟨'T', rfl, by decide⟩⟩ (by decide)
    exact absurd hproduct (by decide)
  exact ⟨hwrapped, hsize, by decide +kernel, by decide +kernel, by decide +kernel⟩

end NixCache.Cli
