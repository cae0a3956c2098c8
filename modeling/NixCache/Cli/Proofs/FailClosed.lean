import NixCache.Cli.Proofs.Narrowing
/-!
# Texts that cannot be read

A bound whose text is not valid is taken as absent.  That keeps the purge within what any valid text
would select only where the bound would have been one reason more: not when nothing but systems is
left, and not when it leaves one end of a range open.
-/

namespace NixCache.Cli

open NixCache.Lib NixCache.Lib.Result NixCache.Core
open NixCache.Lib.Str (IsNumeral IsInteger IsDecimal)

/-! ## Texts of every value -/

/-- What chrono and the clock guarantee: a timestamp has a year of four digits and ends in `Z` or
digits, chrono's years have six, and a `TimeDelta` spans them. -/
structure Host.Chrono (host : Host) : Prop where
  blank : host.crates.parseFromRfc3339 "" = none
  seconds : ∀ text, host.crates.parseFromRfc3339 (text ++ "s") = none
  stamps : ∀ text instant, host.crates.parseFromRfc3339 text = some instant →
    host.minUtc + 1000000000 ≤ instant ∧ instant + 1000000000 ≤ host.maxUtc
  clock : ∀ arg, host.minUtc ≤ host.now arg ∧ host.now arg ≤ host.maxUtc
  width : host.maxUtc - host.minUtc ≤ maxDurationSeconds * 1000000000

/-- The digits of a number, with a sign when it is negative. -/
def signedDigits (value : Int) : List Char :=
  if value < 0 then '-' :: Nat.toDigits 10 value.natAbs else Nat.toDigits 10 value.natAbs

theorem isInteger_signedDigits (value : Int) : IsInteger (signedDigits value) value := by
  have hdigits := Str.isDecimal_toDigits value.natAbs
  unfold signedDigits
  split
  · refine Or.inr ⟨_, rfl, hdigits, ?_⟩
    rw [Str.decimalValue_toDigits]
    omega
  · refine Or.inl ⟨value.natAbs, ⟨_, Or.inl rfl, hdigits, ?_⟩, by omega⟩
    rw [Str.decimalValue_toDigits]

theorem not_isWhitespace_of_mem_signedDigits {value : Int} {c : Char}
    (h : c ∈ signedDigits value) : Str.isWhitespace c = false := by
  have hdigit : ∀ c ∈ Nat.toDigits 10 value.natAbs, Str.isWhitespace c = false := fun c hc =>
    Str.not_isWhitespace_of_isAsciiDigit ((Str.isDecimal_toDigits _).2 c hc)
  unfold signedDigits at h
  split at h
  · rcases List.mem_cons.mp h with rfl | hc
    · decide
    · exact hdigit c hc
  · exact hdigit c h

/-- The text `<value>s`. -/
def secondsText (value : Int) : String := String.ofList (signedDigits value) ++ "s"

theorem toList_trim_secondsText (value : Int) :
    (Str.trim (secondsText value)).toList = signedDigits value ++ ['s'] := by
  have htext : (secondsText value).toList = signedDigits value ++ ['s'] := by
    rw [secondsText, String.toList_append, String.toList_ofList]
    rfl
  have htrimmed : Str.Trimmed (secondsText value).toList := by
    rw [htext]
    refine Str.trimmed_of_forall fun c hc => ?_
    rcases List.mem_append.mp hc with hc | hc
    · exact not_isWhitespace_of_mem_signedDigits hc
    · rw [List.mem_singleton.mp hc]
      decide
  rw [Str.trim_eq_self_iff.mpr htrimmed, htext]

/-- Every second of chrono's range is denoted by some text. -/
theorem parse_secondsText {host : Host} (hchrono : host.Chrono) (arg : TimeArg) {value : Int}
    (hmin : host.minUtc ≤ secondsAgo host arg value)
    (hmax : secondsAgo host arg value ≤ host.maxUtc) :
    parseDurationOrDatetime host arg (secondsText value) =
      .ok (some (secondsAgo host arg value)) := by
  have hclock := hchrono.clock arg
  have hwidth := hchrono.width
  have hduration : -maxDurationSeconds ≤ value ∧ value ≤ maxDurationSeconds := by
    unfold secondsAgo at hmin hmax
    omega
  have hstamp : host.crates.parseFromRfc3339 (Str.trim (secondsText value)) = none := by
    have htrim : Str.trim (secondsText value) = secondsText value := by
      rw [← String.toList_inj, toList_trim_secondsText, secondsText, String.toList_append,
        String.toList_ofList]
      rfl
    rw [htrim, secondsText]
    exact hchrono.seconds _
  have hread : Str.parseI64 (Str.trim (String.ofList (signedDigits value))) = .ok value := by
    have htrim : Str.trimChars (signedDigits value) = signedDigits value :=
      Str.trimChars_eq_self_iff.mpr
        (Str.trimmed_of_forall fun c hc => not_isWhitespace_of_mem_signedDigits hc)
    rw [Str.parseI64_eq_ok, Str.toList_trim, String.toList_ofList, htrim]
    unfold maxDurationSeconds at hduration
    exact ⟨isInteger_signedDigits value, by omega, by omega⟩
  have hunit : unitSeconds (Str.toAsciiLowercase (String.ofList ['s'])) = some 1 := by decide
  rw [parseDurationOrDatetime_eq _ (toList_trim_secondsText value) hstamp (by decide), hread, hunit]
  have hmove : (duration 1 value >>= nowMinus host arg) = .ok (secondsAgo host arg value) := by
    rw [duration_nowMinus_eq_ok, mul_one]
    exact ⟨⟨hduration, hmin, hmax⟩, rfl⟩
  exact map_eq_ok.mpr ⟨_, hmove, rfl⟩

/-- Every number of bytes is denoted by some text. -/
theorem parse_sizeText {host : Host} (halpha : host.AlphabeticOnAscii) (size : UInt64) :
    parseSizeStr host (toString size.toNat) = .ok (some size) := by
  have hnumeral := Str.isNumeral_toString size.toNat
  have htrimmed : Str.trim (toString size.toNat) = toString size.toNat := by
    refine Str.trim_eq_self_iff.mpr (Str.trimmed_of_forall fun c hc => ?_)
    rw [Str.toList_toString] at hc
    exact Str.not_isWhitespace_of_isAsciiDigit ((Str.isDecimal_toDigits _).2 c hc)
  rcases List.eq_nil_or_concat (toString size.toNat).toList with hnil | ⟨init, last, hlast⟩
  · exact absurd hnil hnumeral.ne_nil
  · rw [List.concat_eq_append] at hlast
    rw [hlast] at hnumeral
    have hsplit : splitUnit host (Str.trim (toString size.toNat)) =
        .ok (toString size.toNat, none) := by
      rw [htrimmed]
      exact splitUnit_of_not_letter hlast (not_isAlphabetic_of_isNumeral halpha hnumeral)
    have hne : Str.isEmpty (Str.trim (toString size.toNat)) = false := by
      rw [htrimmed, Str.isEmpty, hlast]
      simp
    rw [parseSizeStr_eq hne hsplit, htrimmed, Str.parseU64_toString]
    rfl

/-! ## Values of a bound -/

/-- Some text denotes the value. -/
def Bound.Denotable (host : Host) (bound : Bound) (value : bound.Value) : Prop :=
  ∃ text, bound.parse host text = .ok (some value)

theorem denotable_olderThan {host : Host} {text : String} {value : Int}
    (h : parseDurationOrDatetime host .olderThan text = .ok (some value)) :
    Bound.Denotable host .olderThan value := by
  refine ⟨text, ?_⟩
  rw [Bound.parse]
  exact h

theorem denotable_newerThan {host : Host} {text : String} {value : Int}
    (h : parseDurationOrDatetime host .newerThan text = .ok (some value)) :
    Bound.Denotable host .newerThan value := by
  refine ⟨text, ?_⟩
  rw [Bound.parse]
  exact h

theorem denotable_minSize {host : Host} (halpha : host.AlphabeticOnAscii) (size : UInt64) :
    Bound.Denotable host .minSize size := by
  refine ⟨toString size.toNat, ?_⟩
  rw [Bound.parse]
  exact parse_sizeText halpha size

theorem denotable_maxSize {host : Host} (halpha : host.AlphabeticOnAscii) (size : UInt64) :
    Bound.Denotable host .maxSize size := by
  refine ⟨toString size.toNat, ?_⟩
  rw [Bound.parse]
  exact parse_sizeText halpha size

/-- Seconds before the clock reach an instant within a second after any that chrono can hold. -/
theorem exists_seconds_before {host : Host} (hchrono : host.Chrono) (arg : TimeArg) {text : String}
    {instant : Int} (h : host.crates.parseFromRfc3339 text = some instant) :
    ∃ value, secondsAgo host arg value < instant ∧
      parseDurationOrDatetime host arg (secondsText value) =
        .ok (some (secondsAgo host arg value)) := by
  obtain ⟨hlow, hhigh⟩ := hchrono.stamps text instant h
  refine ⟨(host.now arg - instant) / 1000000000 + 1, ?_, parse_secondsText hchrono arg ?_ ?_⟩ <;>
    unfold secondsAgo <;> omega

theorem exists_seconds_after {host : Host} (hchrono : host.Chrono) (arg : TimeArg) {text : String}
    {instant : Int} (h : host.crates.parseFromRfc3339 text = some instant) :
    ∃ value, instant < secondsAgo host arg value ∧
      parseDurationOrDatetime host arg (secondsText value) =
        .ok (some (secondsAgo host arg value)) := by
  obtain ⟨hlow, hhigh⟩ := hchrono.stamps text instant h
  refine ⟨-((instant - host.now arg) / 1000000000 + 1), ?_, parse_secondsText hchrono arg ?_ ?_⟩ <;>
    unfold secondsAgo <;> omega

theorem parse_zeroSeconds {host : Host} (hchrono : host.Chrono) (arg : TimeArg) :
    parseDurationOrDatetime host arg (secondsText 0) = .ok (some (secondsAgo host arg 0)) := by
  have hclock := hchrono.clock arg
  refine parse_secondsText hchrono arg ?_ ?_ <;> unfold secondsAgo <;> omega

/-! ## A selection and one more bound -/

namespace Selection

variable {X : Crates} {sel : Selection} {bound : Bound}

/-- Every entry of the systems has a reason other than its time. -/
def MatchesAll (sel : Selection) : Prop :=
  "" ∈ sel.patterns ∨ sel.sizeFilter ≠ none ∧ ∀ size, sel.SizeWithin size

/-- Without the bound no end of a range is open that any entry's match rests on. -/
def NoOpenRange (X : Crates) (sel : Selection) : Bound → Prop
  | .olderThan => ∀ newer ∈ sel.newer, sel.MatchesAll ∨
      ∀ text instant, X.parseFromRfc3339 text = some instant → instant ≤ newer
  | .newerThan => ∀ older ∈ sel.older, sel.MatchesAll ∨
      ∀ text instant, X.parseFromRfc3339 text = some instant → older ≤ instant
  | .minSize => sel.maxSize = none ∨ "" ∈ sel.patterns
  | .maxSize => sel.minSize = none ∨ "" ∈ sel.patterns

/-- Without a size filter the time and the other reasons are left. -/
theorem itemReason_or_sizeMatches_of_matchesAll (h : sel.MatchesAll) (hash : StoreHash)
    (entry : IndexEntry) :
    sel.predicates.ItemReason hash entry ∨ sel.predicates.sizeMatches entry = true := by
  rcases h with hempty | ⟨hsome, hfree⟩
  · exact Or.inl (FilterPredicates.itemReason_of_empty_mem hempty hash entry)
  · obtain ⟨filter, hfilter⟩ := Option.ne_none_iff_exists'.mp hsome
    exact Or.inr (sizeMatches_iff.mpr ⟨filter, hfilter,
      (matches_iff_sizeWithin hfilter _).mpr (hfree _)⟩)

theorem timeFilter_of_older_none (h : sel.bound .olderThan = none) :
    sel.timeFilter = sel.newer.map .after := by
  unfold timeFilter timeFilterOf
  cases hnewer : sel.bound .newerThan <;> rw [h] <;> simp [hnewer]

theorem timeFilter_of_newer_none (h : sel.bound .newerThan = none) :
    sel.timeFilter = sel.older.map .before := by
  unfold timeFilter timeFilterOf
  cases holder : sel.bound .olderThan <;> rw [h] <;> simp [holder]

theorem sizeFilter_of_minSize_none (h : sel.bound .minSize = none) :
    sel.sizeFilter = sel.maxSize.map .maxBytes := by
  unfold sizeFilter sizeFilterOf
  cases hmax : sel.bound .maxSize <;> rw [h] <;> simp [hmax]

theorem sizeFilter_of_maxSize_none (h : sel.bound .maxSize = none) :
    sel.sizeFilter = sel.minSize.map .minBytes := by
  unfold sizeFilter sizeFilterOf
  cases hmin : sel.bound .minSize <;> rw [h] <;> simp [hmin]

theorem sizeMatches_congr {sel' : Selection} {entry : IndexEntry}
    (h : sel'.sizeFilter = sel.sizeFilter) :
    sel'.predicates.sizeMatches entry = true ↔ sel.predicates.sizeMatches entry = true := by
  rw [sizeMatches_iff, sizeMatches_iff, h]

theorem timeMatches_congr {sel' : Selection} {entry : IndexEntry}
    (h : sel'.timeFilter = sel.timeFilter) :
    sel'.predicates.timeMatches X entry = true ↔ sel.predicates.timeMatches X entry = true := by
  rw [timeMatches_iff, timeMatches_iff, h]

/-- Where no range is open, the bound is one reason more. -/
theorem matchedBy_setBound (hnone : sel.bound bound = none)
    (hfilters : sel.predicates.hasItemFilters = true) (hrange : sel.NoOpenRange X bound)
    (value : bound.Value) : sel.MatchedBy X (sel.setBound bound (some value)) := by
  intro hash entry hmatches
  obtain ⟨hsystem, hreason⟩ := FilterPredicates.matches_iff.mp hmatches
  refine FilterPredicates.matches_iff.mpr ⟨hsystem, fun _ => ?_⟩
  rcases hreason hfilters with hitem | htime | hsize
  · exact Or.inl hitem
  · obtain ⟨instant, hparse, filter, hfilter, hmatch⟩ := timeMatches_iff.mp htime
    cases bound with
    | olderThan =>
        rw [timeFilter_of_older_none hnone] at hfilter
        obtain ⟨newer, hnewer, rfl⟩ := Option.mem_map.mp hfilter
        rcases hrange newer hnewer with hall | hearlier
        · rcases itemReason_or_sizeMatches_of_matchesAll hall hash entry with hitem | hsize
          · exact Or.inl hitem
          · exact Or.inr (Or.inr ((sizeMatches_congr rfl).mpr hsize))
        · have hafter : newer < instant := by simpa [TimeFilter.matches] using hmatch
          exact absurd (hearlier _ instant hparse) (not_le.mpr hafter)
    | newerThan =>
        rw [timeFilter_of_newer_none hnone] at hfilter
        obtain ⟨older, holder, rfl⟩ := Option.mem_map.mp hfilter
        rcases hrange older holder with hall | hlater
        · rcases itemReason_or_sizeMatches_of_matchesAll hall hash entry with hitem | hsize
          · exact Or.inl hitem
          · exact Or.inr (Or.inr ((sizeMatches_congr rfl).mpr hsize))
        · have hbefore : instant < older := by simpa [TimeFilter.matches] using hmatch
          exact absurd (hlater _ instant hparse) (not_le.mpr hbefore)
    | minSize => exact Or.inr (Or.inl ((timeMatches_congr rfl).mpr htime))
    | maxSize => exact Or.inr (Or.inl ((timeMatches_congr rfl).mpr htime))
  · obtain ⟨filter, hfilter, -⟩ := sizeMatches_iff.mp hsize
    cases bound with
    | olderThan => exact Or.inr (Or.inr ((sizeMatches_congr rfl).mpr hsize))
    | newerThan => exact Or.inr (Or.inr ((sizeMatches_congr rfl).mpr hsize))
    | minSize =>
        rw [sizeFilter_of_minSize_none hnone] at hfilter
        obtain ⟨max, hmax, -⟩ := Option.mem_map.mp hfilter
        rcases hrange with hopen | hempty
        · rw [hopen] at hmax
          cases hmax
        · exact Or.inl (FilterPredicates.itemReason_of_empty_mem hempty hash entry)
    | maxSize =>
        rw [sizeFilter_of_maxSize_none hnone] at hfilter
        obtain ⟨min, hmin, -⟩ := Option.mem_map.mp hfilter
        rcases hrange with hopen | hempty
        · rw [hopen] at hmin
          cases hmin
        · exact Or.inl (FilterPredicates.itemReason_of_empty_mem hempty hash entry)

/-- A bound is an item filter. -/
theorem hasItemFilters_setBound (sel : Selection) (bound : Bound) (value : bound.Value) :
    (sel.setBound bound (some value)).predicates.hasItemFilters = true := by
  refine hasItemFilters_iff.mpr (Or.inr ?_)
  have hsome : (sel.setBound bound (some value)).bound bound ≠ none := by simp
  cases bound with
  | olderThan => exact Or.inl fun hnone => hsome (timeFilter_eq_none.mp hnone).1
  | newerThan => exact Or.inl fun hnone => hsome (timeFilter_eq_none.mp hnone).2
  | minSize => exact Or.inr fun hnone => hsome (sizeFilter_eq_none.mp hnone).1
  | maxSize => exact Or.inr fun hnone => hsome (sizeFilter_eq_none.mp hnone).2

/-- The range of two instants matches between them only. -/
theorem between_of_matches {o n instant : Int} {filter : TimeFilter}
    (hfilter : filter ∈ timeFilterOf (some o) (some n)) (h : filter.matches instant = true) :
    n ≤ instant ∧ instant ≤ o ∨ o ≤ instant ∧ instant ≤ n := by
  simp only [timeFilterOf, Option.mem_def, Option.some.injEq] at hfilter
  subst hfilter
  split_ifs at h with hle
  · exact Or.inl (by simpa [TimeFilter.matches] using h)
  · exact Or.inr (by simpa [TimeFilter.matches] using h)

theorem not_timeMatches_of_blank (hblank : X.parseFromRfc3339 "" = none) {entry : IndexEntry}
    (hadded : entry.added = "") : ¬ sel.predicates.timeMatches X entry = true := by
  intro h
  obtain ⟨instant, hparse, -⟩ := timeMatches_iff.mp h
  rw [hadded, hblank] at hparse
  cases hparse

/-- Some entry of the given time has no reason but that. -/
theorem exists_timed_of_not_matchesAll (h : ¬ sel.MatchesAll) (added : String) :
    ∃ hash entry, ¬ sel.predicates.ItemReason hash entry ∧
      systemAllowed sel.predicates.systems entry.system = true ∧
      ¬ sel.predicates.sizeMatches entry = true ∧ entry.added = added := by
  simp only [MatchesAll, not_or, not_and_or, not_forall, ne_eq, not_not] at h
  obtain ⟨hempty, hsize⟩ := h
  obtain ⟨size, houtside⟩ : ∃ size, ∀ filter ∈ sel.sizeFilter, ¬ filter.matches size = true := by
    rcases hsize with hnone | ⟨size, houtside⟩
    · exact ⟨0, by simp [hnone]⟩
    · exact ⟨size, fun filter hfilter => by rwa [matches_iff_sizeWithin hfilter]⟩
  obtain ⟨hash, entry, hitem, hsystem, rfl, hadded⟩ :=
    sel.predicates.exists_no_itemReason hempty size added
  refine ⟨hash, entry, hitem, hsystem, fun hmatch => ?_, hadded⟩
  obtain ⟨filter, hfilter, hmatch⟩ := sizeMatches_iff.mp hmatch
  exact houtside filter hfilter hmatch

section Widening

variable {host : Host} (halpha : host.AlphabeticOnAscii) (hchrono : host.Chrono)

include hchrono in
/-- An entry after `newer` is lost to some instants of the other end. -/
theorem noOpenRange_olderThan
    (h : ∀ value, Bound.Denotable host .olderThan value →
      sel.MatchedBy host.crates (sel.setBound .olderThan (some value)))
    (hnone : sel.bound .olderThan = none) : sel.NoOpenRange host.crates .olderThan := by
  intro newer hnewer
  by_contra hopen
  push Not at hopen
  obtain ⟨hall, text, instant, hparse, hafter⟩ := hopen
  obtain ⟨hash, entry, hitem, hsystem, hsize, hadded⟩ := exists_timed_of_not_matchesAll hall text
  obtain ⟨value, hbefore, hvalue⟩ := exists_seconds_before hchrono .olderThan hparse
  have htime : sel.predicates.timeMatches host.crates entry = true := by
    refine timeMatches_iff.mpr ⟨instant, by rw [hadded, hparse], .after newer, ?_, ?_⟩
    · rw [timeFilter_of_older_none hnone, Option.mem_def.mp hnewer]
      rfl
    · simpa [TimeFilter.matches] using hafter
  have hmatches := h _ (denotable_olderThan hvalue) hash entry
    (FilterPredicates.matches_iff.mpr ⟨hsystem, fun _ => Or.inr (Or.inl htime)⟩)
  rcases (FilterPredicates.matches_iff.mp hmatches).2 (hasItemFilters_setBound ..) with
    hitem' | htime' | hsize'
  · exact hitem hitem'
  · obtain ⟨instant', hparse', filter, hfilter, hmatch⟩ := timeMatches_iff.mp htime'
    rw [hadded] at hparse'
    cases hparse.symm.trans hparse'
    have hends : filter ∈ timeFilterOf (some (secondsAgo host .olderThan value)) (some newer) := by
      rw [← Option.mem_def.mp hnewer]
      exact hfilter
    have hrange := between_of_matches hends hmatch
    omega
  · exact hsize ((sizeMatches_congr rfl).mp hsize')

include hchrono in
/-- An entry before `older` is lost to some instants of the other end. -/
theorem noOpenRange_newerThan
    (h : ∀ value, Bound.Denotable host .newerThan value →
      sel.MatchedBy host.crates (sel.setBound .newerThan (some value)))
    (hnone : sel.bound .newerThan = none) : sel.NoOpenRange host.crates .newerThan := by
  intro older holder
  by_contra hopen
  push Not at hopen
  obtain ⟨hall, text, instant, hparse, hbefore⟩ := hopen
  obtain ⟨hash, entry, hitem, hsystem, hsize, hadded⟩ := exists_timed_of_not_matchesAll hall text
  obtain ⟨value, hafter, hvalue⟩ := exists_seconds_after hchrono .newerThan hparse
  have htime : sel.predicates.timeMatches host.crates entry = true := by
    refine timeMatches_iff.mpr ⟨instant, by rw [hadded, hparse], .before older, ?_, ?_⟩
    · rw [timeFilter_of_newer_none hnone, Option.mem_def.mp holder]
      rfl
    · simpa [TimeFilter.matches] using hbefore
  have hmatches := h _ (denotable_newerThan hvalue) hash entry
    (FilterPredicates.matches_iff.mpr ⟨hsystem, fun _ => Or.inr (Or.inl htime)⟩)
  rcases (FilterPredicates.matches_iff.mp hmatches).2 (hasItemFilters_setBound ..) with
    hitem' | htime' | hsize'
  · exact hitem hitem'
  · obtain ⟨instant', hparse', filter, hfilter, hmatch⟩ := timeMatches_iff.mp htime'
    rw [hadded] at hparse'
    cases hparse.symm.trans hparse'
    have hends : filter ∈ timeFilterOf (some older) (some (secondsAgo host .newerThan value)) := by
      rw [← Option.mem_def.mp holder]
      exact hfilter
    have hrange := between_of_matches hends hmatch
    omega
  · exact hsize ((sizeMatches_congr rfl).mp hsize')

/-- An entry whose size the new bound excludes is lost, unless a pattern is empty. -/
theorem empty_mem_of_outside (hblank : X.parseFromRfc3339 "" = none) {value : bound.Value}
    (h : sel.MatchedBy X (sel.setBound bound (some value))) {filter : SizeFilter}
    (hfilter : filter ∈ sel.sizeFilter) {size : UInt64} (hmatch : filter.matches size = true)
    (houtside : ¬ (sel.setBound bound (some value)).SizeWithin size) : "" ∈ sel.patterns := by
  by_contra hempty
  obtain ⟨hash, entry, hitem, hsystem, rfl, hadded⟩ :=
    sel.predicates.exists_no_itemReason hempty size ""
  have hmatches := h hash entry (FilterPredicates.matches_iff.mpr ⟨hsystem, fun _ =>
    Or.inr (Or.inr (sizeMatches_iff.mpr ⟨filter, hfilter, hmatch⟩))⟩)
  rcases (FilterPredicates.matches_iff.mp hmatches).2 (hasItemFilters_setBound ..) with
    hitem' | htime' | hsize'
  · exact hitem hitem'
  · exact not_timeMatches_of_blank hblank hadded htime'
  · obtain ⟨filter', hfilter', hmatch'⟩ := sizeMatches_iff.mp hsize'
    exact houtside ((matches_iff_sizeWithin hfilter' _).mp hmatch')

include halpha hchrono in
theorem noOpenRange_of_matchedBy (hnone : sel.bound bound = none)
    (h : ∀ value, bound.Denotable host value →
      sel.MatchedBy host.crates (sel.setBound bound (some value))) :
    sel.NoOpenRange host.crates bound := by
  cases bound with
  | olderThan => exact noOpenRange_olderThan hchrono h hnone
  | newerThan => exact noOpenRange_newerThan hchrono h hnone
  | minSize =>
      cases hmax : sel.maxSize with
      | none => exact Or.inl hmax
      | some max =>
          have hfilter : SizeFilter.maxBytes max ∈ sel.sizeFilter := by
            rw [sizeFilter_of_minSize_none hnone, hmax]
            rfl
          have hmatch : (SizeFilter.maxBytes max).matches 0 = true := by simp [SizeFilter.matches]
          have houtside : ¬ (sel.setBound .minSize (some (1 : UInt64))).SizeWithin 0 :=
            fun hwithin => absurd (hwithin.1 1 (setBound_same ..)) (by decide)
          exact Or.inr (empty_mem_of_outside hchrono.blank (h 1 (denotable_minSize halpha 1))
            hfilter hmatch houtside)
  | maxSize =>
      cases hmin : sel.minSize with
      | none => exact Or.inl hmin
      | some min =>
          have hfilter : SizeFilter.minBytes min ∈ sel.sizeFilter := by
            rw [sizeFilter_of_maxSize_none hnone, hmin]
            rfl
          have hmatch : (SizeFilter.minBytes min).matches 18446744073709551615 = true := by
            simp only [SizeFilter.matches, decide_eq_true_eq, ge_iff_le, UInt64.le_iff_toNat_le]
            exact Nat.le_of_lt_succ min.toNat_lt
          have houtside :
              ¬ (sel.setBound .maxSize (some (0 : UInt64))).SizeWithin 18446744073709551615 :=
            fun hwithin => absurd (hwithin.2 0 (setBound_same ..)) (by decide)
          exact Or.inr (empty_mem_of_outside hchrono.blank (h 0 (denotable_maxSize halpha 0))
            hfilter hmatch houtside)

include halpha hchrono in
/-- Where only systems are left, a valid text leaves out some of their entries. -/
theorem hasItemFilters_of_matchedBy
    (h : ∀ value, bound.Denotable host value →
      sel.MatchedBy host.crates (sel.setBound bound (some value))) :
    sel.predicates.hasItemFilters = true := by
  by_contra hno
  rw [Selection.hasItemFilters_iff] at hno
  push Not at hno
  obtain ⟨hitems, htimed, hsizes⟩ := hno
  obtain ⟨value, hvalue, size, houtside⟩ : ∃ value, bound.Denotable host value ∧
      ∃ size, ∀ filter ∈ (sel.setBound bound (some value)).sizeFilter,
        ¬ filter.matches size = true := by
    cases bound with
    | olderThan =>
        exact ⟨_, denotable_olderThan (parse_zeroSeconds hchrono _), 0, by
          rw [show (sel.setBound .olderThan _).sizeFilter = sel.sizeFilter from rfl, hsizes]
          simp⟩
    | newerThan =>
        exact ⟨_, denotable_newerThan (parse_zeroSeconds hchrono _), 0, by
          rw [show (sel.setBound .newerThan _).sizeFilter = sel.sizeFilter from rfl, hsizes]
          simp⟩
    | minSize =>
        refine ⟨1, denotable_minSize halpha 1, 0, fun filter hfilter hmatch => ?_⟩
        have hwithin := (matches_iff_sizeWithin hfilter _).mp hmatch
        exact absurd (hwithin.1 1 (setBound_same ..)) (by decide)
    | maxSize =>
        refine ⟨0, denotable_maxSize halpha 0, 1, fun filter hfilter hmatch => ?_⟩
        have hwithin := (matches_iff_sizeWithin hfilter _).mp hmatch
        exact absurd (hwithin.2 0 (setBound_same ..)) (by decide)
  obtain ⟨system, hsystem⟩ := exists_systemAllowed sel.predicates.systems
  have hbefore : sel.predicates.Matches host.crates ⟨""⟩ (plainEntry "" system size "" none) :=
    FilterPredicates.matches_iff.mpr ⟨hsystem, fun hfilters => by
      rcases hasItemFilters_iff.mp hfilters with h | h | h
      · exact absurd h hitems
      · exact absurd h htimed
      · exact absurd hsizes h⟩
  have hafter := h value hvalue _ _ hbefore
  rcases (FilterPredicates.matches_iff.mp hafter).2 (hasItemFilters_setBound ..) with
    hitem | htime | hsize
  · exact hitems (hasItems_of_itemReason hitem)
  · exact not_timeMatches_of_blank hchrono.blank rfl htime
  · obtain ⟨filter, hfilter, hmatch⟩ := sizeMatches_iff.mp hsize
    exact houtside filter hfilter hmatch

end Widening

end Selection

/-! ## Invocations -/

theorem Bound.parse_trim (host : Host) (bound : Bound) (text : String) :
    bound.parse host (Str.trim text) = bound.parse host text := by
  cases bound <;>
    simp only [Bound.parse, parseDurationOrDatetime, parseSizeStr, Str.trim_trim]

theorem Bound.not_blank_of_parse {host : Host} {bound : Bound} {text : String}
    {value : bound.Value} (h : bound.parse host text = .ok (some value)) :
    Str.isEmpty (Str.trim text) = false := by
  cases hblank : Str.isEmpty (Str.trim text) with
  | false => rfl
  | true =>
      cases bound <;>
        simp [Bound.parse, parseDurationOrDatetime, parseSizeStr, hblank] at h

namespace Invocation

/-- `to_purge_selector`. -/
def purge (inv : Invocation) : Except Failure CacheSelector :=
  inv.args.toPurgeSelector inv.host inv.extraHashes

/-- The text given for the bound is not valid. -/
def Unreadable (inv : Invocation) (bound : Bound) : Prop :=
  ∃ text, inv.text bound = some text ∧ ∀ value, bound.parse inv.host text ≠ .ok (some value)

/-- The purge fails with an error, or starts on every index from no more than it would with any
valid text in the bound's place. -/
def FailsClosed (inv : Invocation) (bound : Bound) : Prop :=
  (∃ error, inv.purge = .error (.error error)) ∨ ∃ narrow, inv.purge = .ok narrow ∧
    ∀ text value, bound.parse inv.host text = .ok (some value) →
      ∀ wide, (inv.replaceText bound text).purge = .ok wide → Covers inv.host.crates narrow wide

variable {inv : Invocation} {sel : Selection} {bound : Bound}

theorem purge_eq : inv.purge = inv.selectorOf .dependents .requireExplicit <$> inv.read :=
  inv.toSelectorWithPolicy_eq .dependents .requireExplicit

theorem purge_eq_error_iff : (∃ error, inv.purge = .error (.error error)) ↔
    ∃ error, inv.args.resolveHashes inv.host = .error error := by
  rw [purge_eq]
  simp only [read, map_eq_error, bind_eq_error, mapErr_eq_error, mapErr_eq_ok]
  constructor
  · rintro ⟨error, ⟨e, herror, -⟩ | ⟨hashes, -, hrest⟩⟩
    · exact ⟨e, herror⟩
    · -- what is left to read can only panic
      simp [pure, Except.pure] at hrest
  · rintro ⟨error, herror⟩
    exact ⟨error, Or.inl ⟨error, herror, rfl⟩⟩

theorem Unreadable.bound_eq_none (h : inv.Unreadable bound) (hread : inv.read = .ok sel) :
    sel.bound bound = none := by
  obtain ⟨text, htext, hinvalid⟩ := h
  have hbound := (read_eq_ok.mp hread).bound bound
  rw [readBound, htext] at hbound
  cases hvalue : sel.bound bound with
  | none => rfl
  | some value =>
      rw [hvalue] at hbound
      exact absurd hbound (hinvalid value)

/-- With a valid text in its place the bound has the value of that text. -/
theorem Unreadable.read_replaceText (h : inv.Unreadable bound) (hread : inv.read = .ok sel)
    {text : String} {value : bound.Value} (hvalue : bound.parse inv.host text = .ok (some value)) :
    (inv.replaceText bound text).read = .ok (sel.setBound bound (some value)) := by
  obtain ⟨old, hold, -⟩ := h
  have hsame : SameBut bound inv (inv.replaceText bound text) := sameBut_replaceText bound text
  refine hsame.read ?_ hread
  rw [readBound, text_replaceText hold (Bound.not_blank_of_parse hvalue), hsame.parse bound]
  exact (bound.parse_trim inv.host text).trans hvalue

theorem scope_requireExplicit_ne_none_iff : (inv.selectorOf .dependents .requireExplicit sel).scope ≠
    .none ↔ inv.args.resolveAll inv.host = true ∨ sel.predicates.isEmpty = false := by
  unfold selectorOf Selection.scope
  cases inv.args.resolveAll inv.host <;> cases sel.predicates.isEmpty <;> simp

/-- Against replacements that are read as selections with item filters, the purge is closed if
everything is selected, nothing is, or each of them matches all that the purge matches. -/
theorem closed_iff {ι : Type} (valid : ι → Prop) (alt : ι → Invocation) (next : ι → Selection)
    (hread : inv.read = .ok sel) (hsettings : ∀ i, valid i → SameSettings inv (alt i))
    (hnext : ∀ i, valid i → (alt i).read = .ok (next i))
    (hsystems : ∀ i, (next i).systems = sel.systems)
    (hfilters : ∀ i, valid i → (next i).predicates.hasItemFilters = true) :
    ((∃ error, inv.purge = .error (.error error)) ∨ ∃ narrow, inv.purge = .ok narrow ∧
        ∀ i, valid i → ∀ wide, (alt i).purge = .ok wide → Covers inv.host.crates narrow wide) ↔
      inv.args.resolveAll inv.host = true ∨ sel.predicates.isEmpty = true ∨
        ∀ i, valid i → sel.MatchedBy inv.host.crates (next i) := by
  have hpurge : inv.purge = .ok (inv.selectorOf .dependents .requireExplicit sel) := by
    rw [purge_eq, hread]
    rfl
  have hpurge' : ∀ i, valid i →
      (alt i).purge = .ok ((alt i).selectorOf .dependents .requireExplicit (next i)) := by
    intro i hi
    rw [purge_eq, hnext i hi]
    rfl
  have hcovers : ∀ i, valid i → (inv.selectorOf .dependents .requireExplicit sel).scope ≠ .none →
      (Covers inv.host.crates (inv.selectorOf .dependents .requireExplicit sel)
          ((alt i).selectorOf .dependents .requireExplicit (next i)) ↔
        inv.args.resolveAll inv.host = true ∨ sel.MatchedBy inv.host.crates (next i)) := by
    intro i hi hsome
    refine (hsettings i hi).covers_iff (hsystems i) inv.host.crates .dependents .requireExplicit
      hsome (scope_requireExplicit_ne_none_iff.mpr (Or.inr ?_))
    simp [FilterPredicates.isEmpty, hfilters i hi]
  constructor
  · rintro (⟨error, herror⟩ | ⟨narrow, hnarrow, hclosed⟩)
    · rw [hpurge] at herror
      cases herror
    · obtain rfl := Except.ok.inj (hpurge.symm.trans hnarrow)
      cases hall : inv.args.resolveAll inv.host with
      | true => exact Or.inl rfl
      | false =>
          cases hempty : sel.predicates.isEmpty with
          | true => exact Or.inr (Or.inl rfl)
          | false =>
              have hsome := scope_requireExplicit_ne_none_iff.mpr
                (Or.inr hempty : inv.args.resolveAll inv.host = true ∨ _)
              refine Or.inr (Or.inr fun i hi => ?_)
              have hmatched := (hcovers i hi hsome).mp (hclosed i hi _ (hpurge' i hi))
              rw [hall] at hmatched
              simpa using hmatched
  · intro hcondition
    refine Or.inr ⟨_, hpurge, fun i hi wide hwide => ?_⟩
    obtain rfl := Except.ok.inj ((hpurge' i hi).symm.trans hwide)
    by_cases hnone : (inv.selectorOf .dependents .requireExplicit sel).scope = .none
    · exact covers_of_scope_none hnone
    · rw [hcovers i hi hnone]
      rcases hcondition with hall | hempty | hmatched
      · exact Or.inl hall
      · rcases scope_requireExplicit_ne_none_iff.mp hnone with hall | hnonempty
        · exact Or.inl hall
        · rw [hempty] at hnonempty
          cases hnonempty
      · exact Or.inr (hmatched i hi)

/-- When the other texts can be read, an unreadable bound fails closed if everything is selected,
nothing is, or the bound would be one reason more. -/
theorem failsClosed_of_read (halpha : inv.host.AlphabeticOnAscii) (hchrono : inv.host.Chrono)
    (h : inv.Unreadable bound) (hread : inv.read = .ok sel) :
    inv.FailsClosed bound ↔ inv.args.resolveAll inv.host = true ∨ sel.predicates.isEmpty = true ∨
      sel.predicates.hasItemFilters = true ∧ sel.NoOpenRange inv.host.crates bound := by
  have hclosed := closed_iff
    (fun i : String × bound.Value => bound.parse inv.host i.1 = .ok (some i.2))
    (fun i => inv.replaceText bound i.1) (fun i => sel.setBound bound (some i.2)) hread
    (fun i _ => (sameBut_replaceText bound i.1).toSameSettings)
    (fun i hi => h.read_replaceText hread hi) (fun _ => rfl)
    (fun i _ => sel.hasItemFilters_setBound bound i.2)
  simp only [Prod.forall] at hclosed
  rw [FailsClosed, hclosed]
  refine or_congr_right (or_congr_right ?_)
  constructor
  · intro hmatched
    have hmatched' : ∀ value, bound.Denotable inv.host value →
        sel.MatchedBy inv.host.crates (sel.setBound bound (some value)) :=
      fun value ⟨text, hvalue⟩ => hmatched text value hvalue
    exact ⟨Selection.hasItemFilters_of_matchedBy halpha hchrono hmatched',
      Selection.noOpenRange_of_matchedBy halpha hchrono (h.bound_eq_none hread) hmatched'⟩
  · rintro ⟨hfilters, hrange⟩ text value -
    exact Selection.matchedBy_setBound (h.bound_eq_none hread) hfilters hrange value

/-! ## Runs -/

/-- `,` and the space separate the items of a list. -/
def isListSep (c : Char) : Bool := c = ',' || c = ' '

/-- The item of `NIXCACHE_ORIGIN_RUN` between `before` and `after` is not a run. -/
structure UnreadableRun (inv : Invocation) (before : List Char) (item : String)
    (after : List Char) : Prop where
  args : inv.args.originRun = []
  text : Env.get inv.host.env "NIXCACHE_ORIGIN_RUN" =
    some (String.ofList (before ++ item.toList ++ after))
  before_end : ∀ c ∈ before.getLast?, isListSep c = true
  after_start : ∀ c ∈ after.head?, isListSep c = true
  whole : ∀ c ∈ item.toList, isListSep c = false
  given : Str.isEmpty (Str.trim item) = false
  invalid : ∀ run, Str.parseU64 (Str.trim item) ≠ .ok run

/-- The item's place in the variable is taken by another. -/
def replaceRun (inv : Invocation) (before : List Char) (item : String) (after : List Char) :
    Invocation :=
  inv.setVar "NIXCACHE_ORIGIN_RUN" (some (String.ofList (before ++ item.toList ++ after)))

/-- The purge fails with an error, or starts on every index from no more than it would with any
valid run in the item's place. -/
def RunFailsClosed (inv : Invocation) (before after : List Char) : Prop :=
  (∃ error, inv.purge = .error (.error error)) ∨ ∃ narrow, inv.purge = .ok narrow ∧
    ∀ item run, Str.parseU64 item = .ok run →
      ∀ wide, (inv.replaceRun before item after).purge = .ok wide →
        Covers inv.host.crates narrow wide

variable {before after : List Char} {item : String}

theorem splitList_eq (s : String) : splitList s = (s.toList.splitOnP isListSep).map String.ofList :=
  rfl

theorem trimmed_of_get {env : Environment} {key text : String} (h : Env.get env key = some text) :
    Str.Trimmed text.toList := by
  obtain ⟨raw, -, hraw⟩ := Option.bind_eq_some_iff.mp h
  unfold Env.nonEmptyStr at hraw
  split at hraw
  · cases hraw
  · cases hraw
    exact Str.trimmed_trim raw

/-- A text stays trimmed when an inner part, or all of it, gives way to a number. -/
theorem trimmed_around {part part' : List Char} (h : Str.Trimmed (before ++ part ++ after))
    (hne : part' ≠ []) (hword : ∀ c ∈ part', Str.isWhitespace c = false) :
    Str.Trimmed (before ++ part' ++ after) := by
  constructor
  · intro c hc
    cases before with
    | nil =>
        rw [List.nil_append, List.head?_append_of_ne_nil _ hne] at hc
        exact hword c (List.mem_of_head? hc)
    | cons b bs => exact h.1 c hc
  · intro c hc
    rcases List.eq_nil_or_concat after with rfl | ⟨init, last, rfl⟩
    · rw [List.append_nil, List.getLast?_append_of_ne_nil _ hne] at hc
      exact hword c (List.mem_of_getLast? hc)
    · refine h.2 c ?_
      rw [List.concat_eq_append, ← List.append_assoc, List.getLast?_concat] at hc ⊢
      exact hc

/-- The run of the characters of an item. -/
def partRun (part : List Char) : Option UInt64 :=
  CacheSelectorArgs.parseRun (String.ofList part)

/-- The runs of a variable whose items are known. -/
theorem resolveOriginRuns_of_get (hargs : inv.args.originRun = []) {text : String}
    (hget : Env.get inv.host.env "NIXCACHE_ORIGIN_RUN" = some text) :
    inv.args.resolveOriginRuns inv.host =
      (text.toList.splitOnP isListSep).filterMap partRun := by
  rw [CacheSelectorArgs.resolveOriginRuns, if_neg (by simpa using hargs), hget]
  simp only [splitList_eq, List.filterMap_map]
  rfl

/-- Around the item the variable holds the same runs whatever the item is. -/
theorem UnreadableRun.exists_runs (h : inv.UnreadableRun before item after) :
    ∃ front back, inv.args.resolveOriginRuns inv.host = front ++ back ∧
      ∀ item' run, Str.parseU64 item' = .ok run →
        (inv.replaceRun before item' after).args.resolveOriginRuns
          (inv.replaceRun before item' after).host = front ++ run :: back := by
  obtain ⟨front, back, hsplit⟩ := Str.exists_splitOnP_around h.before_end h.after_start
  refine ⟨front.filterMap partRun, back.filterMap partRun, ?_, fun item' run hrun => ?_⟩
  · have hinvalid : CacheSelectorArgs.parseRun item = none := by
      unfold CacheSelectorArgs.parseRun
      cases hparse : Str.parseU64 (Str.trim item) with
      | error e => rfl
      | ok run => exact absurd hparse (h.invalid run)
    rw [resolveOriginRuns_of_get h.args h.text, String.toList_ofList,
      hsplit item.toList h.whole, List.filterMap_append, List.filterMap_cons_none]
    rw [partRun, String.ofList_toList, hinvalid]
  · have hnumeral := Str.parseU64_eq_ok.mp hrun
    have hword : ∀ c ∈ item'.toList, Str.isWhitespace c = false :=
      fun c hc => hnumeral.not_isWhitespace hc
    have hwhole : ∀ c ∈ item'.toList, isListSep c = false := by
      intro c hc
      have hspace := hword c hc
      unfold isListSep
      rcases hnumeral.mem hc with hdigit | rfl
      · rw [Str.isAsciiDigit_iff] at hdigit
        rw [Bool.or_eq_false_iff, decide_eq_false_iff_not, decide_eq_false_iff_not]
        constructor
        · rintro rfl
          exact absurd hdigit.1 (by decide)
        · rintro rfl
          exact absurd hspace (by decide)
      · decide
    have htrimmed : Str.Trimmed (before ++ item'.toList ++ after) := by
      have hold := trimmed_of_get h.text
      rw [String.toList_ofList] at hold
      exact trimmed_around hold hnumeral.ne_nil hword
    have hget : Env.get (inv.replaceRun before item' after).host.env "NIXCACHE_ORIGIN_RUN" =
        some (String.ofList (before ++ item'.toList ++ after)) := by
      have htrim : Str.trim (String.ofList (before ++ item'.toList ++ after)) =
          String.ofList (before ++ item'.toList ++ after) :=
        Str.trim_eq_self_iff.mpr (by rwa [String.toList_ofList])
      have hempty : ¬ Str.isEmpty (String.ofList (before ++ item'.toList ++ after)) = true := by
        have hne := hnumeral.ne_nil
        rw [Str.isEmpty, String.toList_ofList, List.isEmpty_iff]
        simp only [List.append_eq_nil_iff, hne, and_false, false_and, not_false_eq_true]
      rw [Env.get, replaceRun, setVar]
      simp only [Function.update_self, Option.bind_some]
      rw [Env.nonEmptyStr, htrim, if_neg hempty]
    have hargs : (inv.replaceRun before item' after).args.originRun = [] := h.args
    have hvalid : CacheSelectorArgs.parseRun item' = some run := by
      have htrim : Str.trim item' = item' :=
        Str.trim_eq_self_iff.mpr (Str.trimmed_of_forall hword)
      rw [CacheSelectorArgs.parseRun, htrim, hrun]
      rfl
    have hpart : partRun item'.toList = some run := by rw [partRun, String.ofList_toList, hvalid]
    rw [resolveOriginRuns_of_get hargs hget, String.toList_ofList, hsplit _ hwhole,
      List.filterMap_append, List.filterMap_cons_some hpart]

/-- With a valid run in the item's place one run more is read. -/
theorem UnreadableRun.read_replaceRun (h : inv.UnreadableRun before item after)
    (hread : inv.read = .ok sel) :
    ∃ front back, sel.runs = front ++ back ∧ ∀ item' run, Str.parseU64 item' = .ok run →
      (inv.replaceRun before item' after).read =
        .ok { sel with runs := front ++ run :: back } := by
  obtain ⟨front, back, hruns, hreplaced⟩ := h.exists_runs
  have hreads := read_eq_ok.mp hread
  refine ⟨front, back, hreads.runs.trans hruns, fun item' run hrun => ?_⟩
  have hsettings : SameSettings inv (inv.replaceRun before item' after) :=
    sameSettings_setVar (by decide) _
  obtain ⟨hashes, hhashes, hsel⟩ := hreads.hashes
  refine read_eq_ok.mpr ⟨⟨hashes, by rw [hsettings.hashes, hhashes], hsel⟩,
    by rw [hsettings.patterns]; exact hreads.patterns,
    by rw [hsettings.systems]; exact hreads.systems, fun bound => ?_,
    by rw [hsettings.jobs]; exact hreads.jobs, (hreplaced item' run hrun).symm⟩
  have htext : (inv.replaceRun before item' after).text bound = inv.text bound :=
    text_setVar_of_ne (by cases bound <;> decide) _
  rw [readBound, hsettings.parse bound, htext]
  exact hreads.bound bound

end Invocation

/-- One more run is one reason more. -/
theorem Selection.matchedBy_runs {X : Crates} {sel : Selection}
    (hfilters : sel.predicates.hasItemFilters = true) {runs : List UInt64}
    (hsub : ∀ run ∈ sel.runs, run ∈ runs) : sel.MatchedBy X { sel with runs := runs } := by
  intro hash entry hmatches
  obtain ⟨hsystem, hreason⟩ := FilterPredicates.matches_iff.mp hmatches
  refine FilterPredicates.matches_iff.mpr ⟨hsystem, fun _ => ?_⟩
  rcases hreason hfilters with (hhash | hpattern | hjob | hrun) | htime | hsize
  · exact Or.inl (Or.inl hhash)
  · exact Or.inl (Or.inr (Or.inl hpattern))
  · exact Or.inl (Or.inr (Or.inr (Or.inl hjob)))
  · refine Or.inl (Or.inr (Or.inr (Or.inr ?_)))
    simp only [FilterPredicates.runMatches, Option.any_eq_true, decide_eq_true_eq,
      Selection.predicates, List.mem_toFinset] at hrun ⊢
    obtain ⟨origin, horigin, run, hrun, hmem⟩ := hrun
    exact ⟨origin, horigin, run, hrun, hsub run hmem⟩
  · exact Or.inr (Or.inl ((timeMatches_congr rfl).mpr htime))
  · exact Or.inr (Or.inr ((sizeMatches_congr rfl).mpr hsize))

/-- Where only systems are left, an entry without a run is lost to any run. -/
theorem Selection.hasItemFilters_of_matchedBy_runs {X : Crates} {sel : Selection}
    {runs : List UInt64} (hruns : runs ≠ []) (h : sel.MatchedBy X { sel with runs := runs }) :
    sel.predicates.hasItemFilters = true := by
  by_contra hno
  rw [Selection.hasItemFilters_iff] at hno
  push Not at hno
  obtain ⟨hitems, htimed, hsizes⟩ := hno
  obtain ⟨system, hsystem⟩ := exists_systemAllowed sel.predicates.systems
  have hbefore : sel.predicates.Matches X ⟨""⟩ (plainEntry "" system 0 "" none) :=
    FilterPredicates.matches_iff.mpr ⟨hsystem, fun hfilters => by
      rcases hasItemFilters_iff.mp hfilters with h | h | h
      · exact absurd h hitems
      · exact absurd h htimed
      · exact absurd hsizes h⟩
  have hnone : ¬ sel.predicates.ItemReason ⟨""⟩ (plainEntry "" system 0 "" none) :=
    fun h => hitems (hasItems_of_itemReason h)
  have hfilters : ({ sel with runs := runs } : Selection).predicates.hasItemFilters = true :=
    hasItemFilters_iff.mpr (Or.inl (Or.inr (Or.inr (Or.inr (by simpa [predicates] using hruns)))))
  rcases (FilterPredicates.matches_iff.mp (h _ _ hbefore)).2 hfilters with
    (hhash | hpattern | hjob | hrun) | htime | hsize
  · exact hnone (Or.inl hhash)
  · exact hnone (Or.inr (Or.inl hpattern))
  · exact hnone (Or.inr (Or.inr (Or.inl hjob)))
  · simp [FilterPredicates.runMatches, plainEntry] at hrun
  · obtain ⟨instant, -, filter, hfilter, -⟩ := timeMatches_iff.mp htime
    exact htimed (Option.ne_none_iff_exists'.mpr ⟨filter, hfilter⟩)
  · obtain ⟨filter, hfilter, -⟩ := sizeMatches_iff.mp hsize
    exact absurd hsizes (Option.ne_none_iff_exists'.mpr ⟨filter, hfilter⟩)

namespace Invocation

variable {inv : Invocation} {sel : Selection} {before after : List Char} {item : String}

/-- When the other texts can be read, an unreadable run fails closed if everything is selected,
nothing is, or there is another item filter. -/
theorem runFailsClosed_of_read (h : inv.UnreadableRun before item after)
    (hread : inv.read = .ok sel) :
    inv.RunFailsClosed before after ↔ inv.args.resolveAll inv.host = true ∨
      sel.predicates.isEmpty = true ∨ sel.predicates.hasItemFilters = true := by
  obtain ⟨front, back, hruns, hreplaced⟩ := h.read_replaceRun hread
  have hclosed := closed_iff (fun i : String × UInt64 => Str.parseU64 i.1 = .ok i.2)
    (fun i => inv.replaceRun before i.1 after)
    (fun i => { sel with runs := front ++ i.2 :: back }) hread
    (fun i _ => sameSettings_setVar (by decide) _) (fun i hi => hreplaced i.1 i.2 hi)
    (fun _ => rfl) (fun i _ => Selection.hasItemFilters_iff.mpr
      (Or.inl (Or.inr (Or.inr (Or.inr (by simp [Selection.predicates]))))))
  simp only [Prod.forall] at hclosed
  rw [RunFailsClosed, hclosed]
  refine or_congr_right (or_congr_right ?_)
  constructor
  · intro hmatched
    exact Selection.hasItemFilters_of_matchedBy_runs (by simp) (hmatched "0" 0 (by decide))
  · intro hfilters item' run _
    refine Selection.matchedBy_runs hfilters fun run' hrun' => ?_
    rw [hruns, List.mem_append] at hrun'
    rcases hrun' with hrun' | hrun'
    · exact List.mem_append_left _ hrun'
    · exact List.mem_append_right _ (List.mem_cons_of_mem _ hrun')

/-! ## When the purge fails closed -/

/-- The other texts of the invocation are read, and the purge keeps within what a valid text would
select: an error about a hash, everything selected, nothing selected, or `more`. -/
def ClosedWhen (inv : Invocation) (more : Selection → Prop) : Prop :=
  (∃ error, inv.args.resolveHashes inv.host = .error error) ∨
    ∃ sel, inv.read = .ok sel ∧ (inv.args.resolveAll inv.host = true ∨
      sel.predicates.isEmpty = true ∨ sel.predicates.hasItemFilters = true ∧ more sel)

/-- A purge is an error about a hash, or a panic, or reads all texts. -/
theorem closedWhen_iff {closed : Prop} {more : Selection → Prop}
    (herror : (∃ error, inv.purge = .error (.error error)) → closed)
    (hpurge : closed → (∃ error, inv.purge = .error (.error error)) ∨
      ∃ narrow, inv.purge = .ok narrow)
    (hread : ∀ sel, inv.read = .ok sel → (closed ↔ inv.args.resolveAll inv.host = true ∨
      sel.predicates.isEmpty = true ∨ sel.predicates.hasItemFilters = true ∧ more sel)) :
    closed ↔ inv.ClosedWhen more := by
  rw [ClosedWhen, ← purge_eq_error_iff]
  constructor
  · intro hclosed
    rcases hpurge hclosed with hfailed | ⟨narrow, hnarrow⟩
    · exact Or.inl hfailed
    · rw [purge_eq, map_eq_ok] at hnarrow
      obtain ⟨sel, hsel, -⟩ := hnarrow
      exact Or.inr ⟨sel, hsel, (hread sel hsel).mp hclosed⟩
  · rintro (hfailed | ⟨sel, hsel, hcondition⟩)
    · exact herror hfailed
    · exact (hread sel hsel).mpr hcondition

/-- A purge fails closed on an unreadable bound exactly when that bound would only have been one
reason more, and on an unreadable run exactly when there is another item filter. -/
theorem failsClosed_iff (halpha : inv.host.AlphabeticOnAscii) (hchrono : inv.host.Chrono) :
    (∀ bound, inv.Unreadable bound → (inv.FailsClosed bound ↔
      inv.ClosedWhen fun sel => sel.NoOpenRange inv.host.crates bound)) ∧
    ∀ before item after, inv.UnreadableRun before item after →
      (inv.RunFailsClosed before after ↔ inv.ClosedWhen fun _ => True) := by
  constructor
  · intro bound hunreadable
    refine closedWhen_iff Or.inl (fun hclosed => ?_) fun sel hread =>
      failsClosed_of_read halpha hchrono hunreadable hread
    exact hclosed.imp_right fun ⟨narrow, hnarrow, _⟩ => ⟨narrow, hnarrow⟩
  · intro before item after hunreadable
    refine closedWhen_iff Or.inl (fun hclosed => ?_) fun sel hread => ?_
    · exact hclosed.imp_right fun ⟨narrow, hnarrow, _⟩ => ⟨narrow, hnarrow⟩
    · rw [runFailsClosed_of_read hunreadable hread]
      simp

theorem sampleHost_chrono : sampleHost.Chrono where
  blank := rfl
  seconds text := by
    have hne : text ++ "s" ≠ "2024-01-01T00:00:00Z" := by
      intro h
      have hlast := congrArg (fun t : String => t.toList.getLast?) h
      simp at hlast
    exact if_neg hne
  stamps text instant h := by
    have hinstant : instant = 1704067200000000000 := by
      simp only [sampleHost, sampleCrates] at h
      split at h
      · exact (Option.some.inj h).symm
      · cases h
    rw [hinstant]
    decide
  clock arg := by cases arg <;> decide
  width := by decide

/-- `--patterns hello --older-than 30x`. -/
def patternAndTypo : Invocation :=
  ⟨sampleHost, { patterns := ["hello"], olderThan := some "30x" }, []⟩

/-- `--system x86_64-linux --older-than 30x`. -/
def systemAndTypo : Invocation :=
  ⟨sampleHost, { system := ["x86_64-linux"], olderThan := some "30x" }, []⟩

/-- A selection without bounds, jobs or runs. -/
def unboundedSelection (patterns : List String) (systems : List SystemArch) : Selection where
  hashes := []
  patterns := patterns
  systems := systems
  bound := fun
    | .olderThan | .newerThan | .minSize | .maxSize => none
  jobs := []
  runs := []

theorem parse_typo : parseDurationOrDatetime sampleHost .olderThan "30x" = .ok none := by
  decide +kernel

theorem patternAndTypo_read : patternAndTypo.read = .ok (unboundedSelection ["hello"] []) := by
  refine read_eq_ok.mpr ⟨⟨[], rfl, rfl⟩, rfl, rfl, ?_, rfl, rfl⟩
  rintro (_ | _ | _ | _)
  · exact parse_typo
  · rfl
  · rfl
  · rfl

theorem systemAndTypo_read : systemAndTypo.read = .ok (unboundedSelection [] [.x86_64Linux]) := by
  refine read_eq_ok.mpr ⟨⟨[], rfl, rfl⟩, rfl, rfl, ?_, rfl, rfl⟩
  rintro (_ | _ | _ | _)
  · exact parse_typo
  · rfl
  · rfl
  · rfl

/-- Beside a pattern the unreadable bound would have been one reason more. -/
theorem failsClosed_patternAndTypo : patternAndTypo.FailsClosed .olderThan := by
  have hunreadable : patternAndTypo.Unreadable .olderThan := by
    refine ⟨"30x", by decide +kernel, fun value h => ?_⟩
    have htypo : (.ok none : Except Panic (Option Int)) = .ok (some value) := parse_typo.symm.trans h
    cases htypo
  refine ((failsClosed_iff sampleHost_alphabeticOnAscii sampleHost_chrono).1 .olderThan
    hunreadable).mpr (Or.inr ⟨_, patternAndTypo_read, Or.inr (Or.inr ⟨rfl, ?_⟩)⟩)
  intro newer hnewer
  cases hnewer

/-- With a system alone beside it, a mistyped `--older-than 30x` purges every entry of the system,
also one that `--older-than 3650d` keeps. -/
theorem systemAndTypo_not_failsClosed :
    (∃ narrow, systemAndTypo.purge = .ok narrow ∧
      narrow.scopeReason sampleCrates (sampleHash '1') (sampleEntry '1' []) =
        some "System Architecture Match") ∧
      (∃ wide, (systemAndTypo.replaceText .olderThan "3650d").purge = .ok wide ∧
        wide.scopeReason sampleCrates (sampleHash '1') (sampleEntry '1' []) = none) ∧
      systemAndTypo.Unreadable .olderThan ∧ ¬ systemAndTypo.FailsClosed .olderThan := by
  have hunreadable : systemAndTypo.Unreadable .olderThan := by
    refine ⟨"30x", by decide +kernel, fun value h => ?_⟩
    have htypo : (.ok none : Except Panic (Option Int)) = .ok (some value) := parse_typo.symm.trans h
    cases htypo
  have hvalue : parseDurationOrDatetime sampleHost .olderThan "3650d" =
      .ok (some 1451865600000000000) := by decide +kernel
  have hnarrow : systemAndTypo.purge = .ok (systemAndTypo.selectorOf .dependents .requireExplicit
      (unboundedSelection [] [.x86_64Linux])) := by
    rw [purge_eq, systemAndTypo_read]
    rfl
  have hwide : (systemAndTypo.replaceText .olderThan "3650d").purge =
      .ok ((systemAndTypo.replaceText .olderThan "3650d").selectorOf .dependents .requireExplicit
        ((unboundedSelection [] [.x86_64Linux]).setBound .olderThan
          (some (1451865600000000000 : Int)))) := by
    have hparse : Bound.olderThan.parse systemAndTypo.host "3650d" =
        .ok (some (1451865600000000000 : Int)) := by
      rw [Bound.parse]
      exact hvalue
    rw [purge_eq, hunreadable.read_replaceText systemAndTypo_read hparse]
    rfl
  refine ⟨⟨_, hnarrow, by decide +kernel⟩, ⟨_, hwide, by decide +kernel⟩, hunreadable, ?_⟩
  rw [failsClosed_of_read sampleHost_alphabeticOnAscii sampleHost_chrono hunreadable
    systemAndTypo_read]
  rintro (hall | hempty | ⟨hfilters, -⟩)
  · exact absurd hall (by decide)
  · exact absurd hempty (by decide)
  · exact absurd hfilters (by decide)

end Invocation

end NixCache.Cli
