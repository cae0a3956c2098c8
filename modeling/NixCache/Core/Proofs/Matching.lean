import NixCache.Core.Proofs.Closure
import NixCache.Core.Proofs.Wildcard
import Mathlib.Algebra.Order.BigOperators.Group.List
import Mathlib.Data.Fintype.EquivFin
import Mathlib.Data.List.GetD
import Mathlib.Data.List.Infix
/-!
# Why an entry matches

`evaluate_entry` collects reasons and matches when there is one, so every predicate of a selection
widens it.  What one selection matches on every index and another does not comes down to single
entries, and all but the size and the time of an entry can be chosen to give no reason.
-/

namespace NixCache.Core

open NixCache.Lib NixCache.Lib.Result

/-! ## Reasons -/

namespace FilterPredicates

variable {X : Crates} {predicates : FilterPredicates} {hash : StoreHash} {entry : IndexEntry}

/-- A reason other than the size and the time of the entry. -/
def ItemReason (predicates : FilterPredicates) (hash : StoreHash) (entry : IndexEntry) : Prop :=
  predicates.hashMatches hash = true ∨ predicates.patternMatches entry = true ∨
    predicates.jobMatches entry = true ∨ predicates.runMatches entry = true

def Matches (X : Crates) (predicates : FilterPredicates) (hash : StoreHash) (entry : IndexEntry) :
    Prop :=
  (predicates.evaluateEntry X hash entry).isSome = true

theorem reasons_ne_nil : predicates.reasons X hash entry ≠ [] ↔
    predicates.ItemReason hash entry ∨ predicates.timeMatches X entry = true ∨
      predicates.sizeMatches entry = true := by
  unfold reasons ItemReason
  cases predicates.hashMatches hash <;> cases predicates.patternMatches entry <;>
    cases predicates.timeMatches X entry <;> cases predicates.sizeMatches entry <;>
    cases predicates.jobMatches entry <;> cases predicates.runMatches entry <;> simp

/-- The systems restrict; without item filters they are all there is, and with item filters one
reason is enough. -/
theorem matches_iff : predicates.Matches X hash entry ↔
    systemAllowed predicates.systems entry.system = true ∧
      (predicates.hasItemFilters = true →
        predicates.ItemReason hash entry ∨ predicates.timeMatches X entry = true ∨
          predicates.sizeMatches entry = true) := by
  rw [Matches, ← reasons_ne_nil, evaluateEntry]
  cases hsystem : systemAllowed predicates.systems entry.system with
  | false => simp
  | true =>
      cases hitems : predicates.hasItemFilters with
      | false => simp
      | true =>
          cases hreasons : predicates.reasons X hash entry with
          | nil => simp
          | cons reason rest => simp

end FilterPredicates

/-! ## Selections on every index -/

/-- On every index `wide` starts from all that `narrow` starts from. -/
def Covers (X : Crates) (narrow wide : CacheSelector) : Prop :=
  ∀ entries gcRoots result result', evaluateCacheQuery X entries gcRoots narrow = .ok result →
    evaluateCacheQuery X entries gcRoots wide = .ok result' →
    ∀ hash ∈ result.initialMatchedHashes, hash ∈ result'.initialMatchedHashes

section Queries

variable {X : Crates} {entries : HashMap StoreHash IndexEntry}
  {gcRoots : HashMap SystemArch (List StoreHash)} {selector narrow wide : CacheSelector}
  {result : CacheQueryResult} {hash : StoreHash}

theorem mem_initialMatchedHashes (h : evaluateCacheQuery X entries gcRoots selector = .ok result) :
    hash ∈ result.initialMatchedHashes ↔ InitialMatch X entries gcRoots selector hash := by
  simp only [evaluateCacheQuery, bind_eq_ok, pure_eq_ok] at h
  obtain ⟨pairs, hpairs, rfl⟩ := h
  simp only [mem_sortHashes, mem_initialMatches, mem_protectedReachable hpairs, InitialMatch]
  refine exists_congr fun entry => and_congr_right fun _ => and_congr_left fun _ => not_congr ?_
  exact and_iff_right_of_imp fun hprotected => hprotected.1

/-- The references of an entry are no reason to select it. -/
theorem scopeReason_references (references : List String) (entry : IndexEntry) :
    selector.scopeReason X hash
        { entry with narinfoMeta := { entry.narinfoMeta with references := references } } =
      selector.scopeReason X hash entry := rfl

theorem protected_of_sameTargets (hprotect : wide.protectGcRoots = narrow.protectGcRoots)
    (htargets : wide.targetSystems = narrow.targetSystems) :
    Protected entries gcRoots wide hash ↔ Protected entries gcRoots narrow hash := by
  rw [Protected, Protected, hprotect, activeRoots, activeRoots, CacheSelector.activeGcRoots,
    CacheSelector.activeGcRoots, htargets]

theorem not_protected_of_no_roots : ¬ Protected entries ∅ selector hash := by
  rintro ⟨-, root, hroot, -⟩
  cases hroot

/-- Two selectors that protect alike are compared entry by entry. -/
theorem covers_iff (hprotect : wide.protectGcRoots = narrow.protectGcRoots)
    (htargets : wide.targetSystems = narrow.targetSystems) :
    Covers X narrow wide ↔ ∀ hash entry, (narrow.scopeReason X hash entry).isSome →
      (wide.scopeReason X hash entry).isSome := by
  constructor
  · intro hcovers hash entry hnarrow
    -- the entry alone, without references, is an index that protects nothing
    let bare := { entry with narinfoMeta := { entry.narinfoMeta with references := [] } }
    let entries : HashMap StoreHash IndexEntry := HashMap.ofList [(hash, bare)]
    have hlookup : ∀ hash' entry', entries.lookup hash' = some entry' ↔
        hash' = hash ∧ entry' = bare := by
      intro hash' entry'
      rw [show entries = HashMap.ofList [(hash, bare)] from rfl,
        HashMap.lookup_ofList (by simp), List.mem_singleton, Prod.mk.injEq]
    have hparse : ReferencesParse entries := by
      intro hash' entry' hentry
      obtain ⟨-, rfl⟩ := (hlookup hash' entry').mp hentry
      exact ⟨[], rfl⟩
    obtain ⟨result, hresult⟩ := (evaluateCacheQuery_ok_iff X ∅ narrow).mpr hparse
    obtain ⟨result', hresult'⟩ := (evaluateCacheQuery_ok_iff X ∅ wide).mpr hparse
    have hmem := hcovers entries ∅ result result' hresult hresult' hash
    rw [mem_initialMatchedHashes hresult, mem_initialMatchedHashes hresult'] at hmem
    obtain ⟨entry', hentry', -, hwide⟩ := hmem ⟨bare, (hlookup hash bare).mpr ⟨rfl, rfl⟩,
      not_protected_of_no_roots, by rwa [scopeReason_references]⟩
    obtain ⟨-, rfl⟩ := (hlookup hash entry').mp hentry'
    rwa [scopeReason_references] at hwide
  · intro hpointwise entries gcRoots result result' hresult hresult' hash hmem
    rw [mem_initialMatchedHashes hresult] at hmem
    rw [mem_initialMatchedHashes hresult']
    obtain ⟨entry, hentry, hopen, hscope⟩ := hmem
    refine ⟨entry, hentry, ?_, hpointwise hash entry hscope⟩
    rwa [protected_of_sameTargets hprotect htargets]

end Queries

/-! ## Patterns -/

section Patterns

open LoopState

/-- Before a star is remembered, a text of stars is read byte by byte, and a shorter pattern ends
before it. -/
theorem not_accepts_stars {p t : List UInt8} (hstars : ∀ b ∈ t, b = starByte)
    (hlen : p.length < t.length) {fuel i : Nat} (hi : i ≤ p.length) (hfuel : p.length < i + fuel) :
    ¬ Accepts p t fuel ⟨i, i, none, 0⟩ := by
  induction fuel generalizing i with
  | zero => omega
  | succ fuel ih =>
      have hmore : ¬ t.length ≤ i := by omega
      have hstar : t.getD i 0 = starByte := by
        rw [List.getD_eq_getElem _ _ (by omega : i < t.length)]
        exact hstars _ (List.getElem_mem _)
      by_cases hfits : i < p.length ∧ (p.getD i 0 = anyByte ∨ p.getD i 0 = starByte)
      · have hnext : next p t ⟨i, i, none, 0⟩ = some ⟨i + 1, i + 1, none, 0⟩ := by
          simp only [next, hmore, if_false, hstar, hfits, and_self, if_true]
        rw [accepts_of_next hnext]
        exact ih hfits.1 (by omega)
      · have hnext : next p t ⟨i, i, none, 0⟩ = none := by
          have hno : ¬ (i < p.length ∧ p.getD i 0 = starByte) := fun h => hfits ⟨h.1, Or.inr h.2⟩
          simp only [next, hmore, if_false, hstar, hfits, hno]
        rw [accepts_of_end hnext]
        exact fun h => hmore h.1

/-- A text is read byte by byte by itself. -/
theorem accepts_self {p : List UInt8} {fuel i : Nat} (hi : i ≤ p.length)
    (hfuel : p.length < i + fuel) : Accepts p p fuel ⟨i, i, none, 0⟩ := by
  induction fuel generalizing i with
  | zero => omega
  | succ fuel ih =>
      by_cases hend : p.length ≤ i
      · have hnext : next p p ⟨i, i, none, 0⟩ = none := by simp only [next, hend, if_true]
        rw [accepts_of_end hnext]
        exact ⟨hend, by simp [List.drop_eq_nil_of_le hend]⟩
      · have hnext : next p p ⟨i, i, none, 0⟩ = some ⟨i + 1, i + 1, none, 0⟩ := by
          simp only [next, hend, if_false, not_le.mp hend, or_true, and_self, if_true]
        rw [accepts_of_next hnext]
        exact ih (by omega) (by omega)

theorem lt_wildcardFuel (p t : List UInt8) : p.length < 0 + wildcardFuel p t := by
  have hle : (p.length + 2) * 1 ≤ (p.length + 2) * (t.length + 2) :=
    Nat.mul_le_mul_left _ (by omega)
  rw [wildcardFuel]
  omega

/-- A pattern matches its own text. -/
theorem matchesPattern_self (pattern : String) : matchesPattern pattern pattern = true := by
  unfold matchesPattern
  split
  · rw [wildcardMatch_iff]
    exact accepts_self (Nat.zero_le _) (lt_wildcardFuel _ _)
  · rw [Str.containsStr, List.any_eq_true]
    exact ⟨pattern.toList, (List.mem_tails _ _).mpr (List.suffix_refl _), by simp⟩

theorem matchesPattern_empty (text : String) : matchesPattern "" text = true := by
  rw [matchesPattern, if_neg (by decide), Str.containsStr, List.any_eq_true]
  exact ⟨[], (List.mem_tails _ _).mpr List.nil_suffix, rfl⟩

/-- The text of `count` stars. -/
def starText (count : Nat) : String := String.ofList (List.replicate count '*')

theorem asBytes_starText (count : Nat) :
    Str.asBytes (starText count) = List.replicate count starByte := by
  rw [starText, Str.asBytes_ofList_ascii, List.map_replicate]
  · rfl
  · intro c hc
    rw [List.eq_of_mem_replicate hc, Str.IsAscii]
    decide

/-- No pattern but the empty one matches all texts of stars. -/
theorem not_matchesPattern_starText {pattern : String} (hne : pattern ≠ "") {count : Nat}
    (hcount : (Str.asBytes pattern).length < count) :
    matchesPattern pattern (starText count) = false := by
  rw [← Bool.not_eq_true]
  unfold matchesPattern
  split
  · rw [wildcardMatch_iff, asBytes_starText]
    exact not_accepts_stars (fun b hb => List.eq_of_mem_replicate hb) (by simpa using hcount)
      (Nat.zero_le _) (lt_wildcardFuel _ _)
  · rename_i hplain
    rw [Str.containsStr, List.any_eq_true]
    rintro ⟨suffix, hsuffix, hstart⟩
    obtain ⟨c, hc⟩ : ∃ c, c ∈ pattern.toList := by
      apply List.exists_mem_of_ne_nil
      simpa using hne
    -- the characters of a pattern inside the text are stars, and this one has none
    have hstar : c ∈ (starText count).toList :=
      ((List.mem_tails _ _).mp hsuffix).subset ((List.isPrefixOf_iff_prefix.mp hstart).subset hc)
    rw [starText, String.toList_ofList] at hstar
    rw [List.eq_of_mem_replicate hstar] at hc
    exact hplain (Or.inl (by simpa [Str.containsChar] using hc))

end Patterns

/-! ## Entries without a reason -/

instance : Infinite StoreHash :=
  Infinite.of_injective (fun n : Nat => (⟨starText n⟩ : StoreHash)) fun m n h => by
    have htext := congrArg (fun hash : StoreHash => hash.val.toList.length) h
    simpa [starText] using htext

/-- The system of an entry that the selection lets pass. -/
theorem exists_systemAllowed (systems : Finset SystemArch) :
    ∃ system, systemAllowed systems system = true := by
  rcases systems.eq_empty_or_nonempty with rfl | ⟨system, hsystem⟩
  · exact ⟨none, by simp [systemAllowed]⟩
  · exact ⟨some system, by simp [systemAllowed, hsystem]⟩

/-- An entry whose texts are all `text`. -/
def plainEntry (text : String) (system : Option SystemArch) (narSize : UInt64) (added : String)
    (origin : Option OriginMetadata) : IndexEntry where
  name := text
  system := system
  narinfoMeta := {
    storePath := text, narBasename := text, compression := none, fileHash := none
    fileSize := none, narHash := text, references := [], deriver := none, signatures := []
    ca := none }
  narDigest := ⟨text⟩
  narSize := narSize
  added := added
  origin := origin

namespace FilterPredicates

/-- Unless a pattern is empty, some entry of any size and time has no reason but these. -/
theorem exists_no_itemReason (predicates : FilterPredicates) (hpatterns : "" ∉ predicates.patterns)
    (narSize : UInt64) (added : String) :
    ∃ hash entry, ¬ predicates.ItemReason hash entry ∧
      systemAllowed predicates.systems entry.system = true ∧ entry.narSize = narSize ∧
      entry.added = added := by
  obtain ⟨hash, hhash⟩ := Infinite.exists_notMem_finset predicates.storeHashes
  obtain ⟨system, hsystem⟩ := exists_systemAllowed predicates.systems
  let count := (predicates.patterns.map fun pattern => (Str.asBytes pattern).length).sum + 1
  have hpattern : ∀ pattern ∈ predicates.patterns,
      matchesPattern pattern (starText count) = false := by
    intro pattern hmem
    refine not_matchesPattern_starText (fun hempty => hpatterns (hempty ▸ hmem)) ?_
    exact Nat.lt_succ_of_le (List.single_le_sum (by simp) _ (List.mem_map_of_mem hmem))
  refine ⟨hash, plainEntry (starText count) system narSize added none, ?_, hsystem, rfl, rfl⟩
  rintro (hhashes | hpats | hjobs | hruns)
  · exact hhash (by simpa [hashMatches] using hhashes)
  · obtain ⟨pattern, hmem, hmatch⟩ := List.any_eq_true.mp hpats
    simp [plainEntry, hpattern pattern hmem] at hmatch
  · simp [jobMatches, plainEntry] at hjobs
  · simp [runMatches, plainEntry] at hruns

/-- Some hash, pattern, job or run is selected. -/
def HasItems (predicates : FilterPredicates) : Prop :=
  predicates.storeHashes ≠ ∅ ∨ predicates.patterns ≠ [] ∨ predicates.originJobs ≠ ∅ ∨
    predicates.originRuns ≠ ∅

/-- A hash, a pattern, a job or a run is a reason for some entry of any size and time. -/
theorem exists_itemReason (predicates : FilterPredicates) (hitems : predicates.HasItems)
    (narSize : UInt64) (added : String) :
    ∃ hash entry, predicates.ItemReason hash entry ∧
      systemAllowed predicates.systems entry.system = true ∧ entry.narSize = narSize ∧
      entry.added = added := by
  obtain ⟨system, hsystem⟩ := exists_systemAllowed predicates.systems
  rcases hitems with hhashes | hpatterns | hjobs | hruns
  · obtain ⟨hash, hhash⟩ := Finset.nonempty_of_ne_empty hhashes
    exact ⟨hash, plainEntry "" system narSize added none, Or.inl (by simpa [hashMatches]), hsystem,
      rfl, rfl⟩
  · obtain ⟨pattern, hpattern⟩ := List.exists_mem_of_ne_nil _ hpatterns
    have hmatch : predicates.patternMatches (plainEntry pattern system narSize added none) :=
      List.any_eq_true.mpr ⟨pattern, hpattern, by simp [plainEntry, matchesPattern_self]⟩
    exact ⟨⟨""⟩, plainEntry pattern system narSize added none, Or.inr (Or.inl hmatch), hsystem,
      rfl, rfl⟩
  · obtain ⟨job, hjob⟩ := Finset.nonempty_of_ne_empty hjobs
    exact ⟨⟨""⟩, plainEntry "" system narSize added (some ⟨none, some job⟩),
      Or.inr (Or.inr (Or.inl (by simpa [jobMatches, plainEntry]))), hsystem, rfl, rfl⟩
  · obtain ⟨run, hrun⟩ := Finset.nonempty_of_ne_empty hruns
    exact ⟨⟨""⟩, plainEntry "" system narSize added (some ⟨some run, none⟩),
      Or.inr (Or.inr (Or.inr (by simpa [runMatches, plainEntry]))), hsystem, rfl, rfl⟩

/-- The empty pattern is a reason for every entry. -/
theorem itemReason_of_empty_mem {predicates : FilterPredicates} (h : "" ∈ predicates.patterns)
    (hash : StoreHash) (entry : IndexEntry) : predicates.ItemReason hash entry :=
  Or.inr (Or.inl (List.any_eq_true.mpr ⟨"", h, by simp [matchesPattern_empty]⟩))

end FilterPredicates

end NixCache.Core
