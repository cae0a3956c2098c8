import NixCache.Core.Filter
import NixCache.Lib.Glob
import NixCache.Lib.Text
import Mathlib.Data.List.TakeWhile
import Mathlib.Tactic.Ring
/-!
# The glob matcher

`wildcard_match` walks the pattern and the text with one remembered star.  It asks whether the two
current bytes are equal before it asks whether the pattern's is a star, so a star of the pattern
that meets a star of the text stands for that byte alone.  Without such a meeting the matcher decides the
language of the pattern.
-/

namespace NixCache.Core

open NixCache.Lib
open NixCache.Lib.Glob (Fits)

/-- The byte `*`. -/
abbrev starByte : UInt8 := '*'.toUInt8

/-- The byte `?`. -/
abbrev anyByte : UInt8 := '?'.toUInt8

/-- The language of a glob pattern, over bytes. -/
abbrev GlobMatches (pattern text : List UInt8) : Prop :=
  Glob.Matches starByte anyByte pattern text

theorem starByte_ne_anyByte : starByte ≠ anyByte := by decide

/-! ## The loop -/

/-- The variables of the loop. -/
structure LoopState where
  pIdx : Nat
  tIdx : Nat
  starIdx : Option Nat
  matchIdx : Nat
deriving DecidableEq, Repr

namespace LoopState

def start : LoopState := ⟨0, 0, none, 0⟩

/-- One iteration, or `none` when the loop ends or the function returns. -/
def next (p t : List UInt8) (s : LoopState) : Option LoopState :=
  if t.length ≤ s.tIdx then none
  else if s.pIdx < p.length ∧ (p.getD s.pIdx 0 = anyByte ∨ p.getD s.pIdx 0 = t.getD s.tIdx 0) then
    some { s with pIdx := s.pIdx + 1, tIdx := s.tIdx + 1 }
  else if s.pIdx < p.length ∧ p.getD s.pIdx 0 = starByte then
    some ⟨s.pIdx + 1, s.tIdx, some s.pIdx, s.tIdx⟩
  else
    match s.starIdx with
    | some star => some ⟨star + 1, s.matchIdx + 1, some star, s.matchIdx + 1⟩
    | none => none

/-- What the loop leaves behind when it ends here. -/
def outcome (t : List UInt8) (s : LoopState) : Option Nat :=
  if t.length ≤ s.tIdx then some s.pIdx else none

def loop (p t : List UInt8) (fuel : Nat) (s : LoopState) : Option Nat :=
  wildcardLoop p t fuel s.pIdx s.tIdx s.starIdx s.matchIdx

variable {p t : List UInt8} {s s' : LoopState}

theorem loop_of_next (fuel : Nat) (h : s.next p t = some s') :
    s.loop p t (fuel + 1) = s'.loop p t fuel := by
  unfold next at h
  rw [loop, wildcardLoop.eq_def]
  dsimp only
  split
  · rename_i hend
    rw [if_pos hend] at h
    cases h
  · rename_i hend
    rw [if_neg hend] at h
    split
    · rename_i hfit
      rw [if_pos hfit] at h
      cases h
      rfl
    · rename_i hfit
      rw [if_neg hfit] at h
      split
      · rename_i hstar
        rw [if_pos hstar] at h
        cases h
        rfl
      · rename_i hstar
        rw [if_neg hstar] at h
        cases hidx : s.starIdx with
        | none =>
            rw [hidx] at h
            cases h
        | some star =>
            rw [hidx] at h
            cases h
            rfl

theorem loop_of_end (fuel : Nat) (h : s.next p t = none) :
    s.loop p t (fuel + 1) = s.outcome t := by
  unfold next at h
  rw [loop, wildcardLoop.eq_def, outcome]
  dsimp only
  split
  · rfl
  · rename_i hend
    rw [if_neg hend] at h
    split
    · rename_i hfit
      rw [if_pos hfit] at h
      cases h
    · rename_i hfit
      rw [if_neg hfit] at h
      split
      · rename_i hstar
        rw [if_pos hstar] at h
        cases h
      · rename_i hstar
        rw [if_neg hstar] at h
        cases hidx : s.starIdx with
        | none => rfl
        | some star =>
            rw [hidx] at h
            cases h

/-- Neither a byte that fits nor a star is next in the pattern, and the text has not ended. -/
structure Stuck (p t : List UInt8) (s : LoopState) : Prop where
  more : s.tIdx < t.length
  noFit : ∀ b, (p.drop s.pIdx).head? = some b → ¬ Fits anyByte b (t.getD s.tIdx 0)
  noStar : (p.drop s.pIdx).head? ≠ some starByte

/-- What one iteration does. -/
inductive Step (p t : List UInt8) (s : LoopState) : LoopState → Prop
  | advance {b c : UInt8} (pattern : p.drop s.pIdx = b :: p.drop (s.pIdx + 1))
      (text : t.drop s.tIdx = c :: t.drop (s.tIdx + 1)) (fit : Fits anyByte b c) :
      Step p t s { s with pIdx := s.pIdx + 1, tIdx := s.tIdx + 1 }
  | star (pattern : p.drop s.pIdx = starByte :: p.drop (s.pIdx + 1)) (more : s.tIdx < t.length) :
      Step p t s ⟨s.pIdx + 1, s.tIdx, some s.pIdx, s.tIdx⟩
  | retry {star : Nat} (last : s.starIdx = some star) (stuck : Stuck p t s) :
      Step p t s ⟨star + 1, s.matchIdx + 1, some star, s.matchIdx + 1⟩

theorem drop_eq_cons {l : List UInt8} {i : Nat} (h : i < l.length) :
    l.drop i = l.getD i 0 :: l.drop (i + 1) := by
  rw [List.getD_eq_getElem?_getD, List.getElem?_eq_getElem h, Option.getD_some]
  exact List.drop_eq_getElem_cons h

/-- Nothing in the language starts with a byte that does not fit. -/
theorem Stuck.not_matches (h : Stuck p t s) :
    ¬ GlobMatches (p.drop s.pIdx) (t.drop s.tIdx) := by
  intro hmatches
  rw [drop_eq_cons h.more] at hmatches
  cases hp : p.drop s.pIdx with
  | nil =>
      rw [hp] at hmatches
      cases Glob.matches_nil_iff.mp hmatches
  | cons b rest =>
      have hhead : (p.drop s.pIdx).head? = some b := by rw [hp]; rfl
      have hb : b ≠ starByte := by
        rintro rfl
        exact h.noStar hhead
      rw [hp] at hmatches
      obtain ⟨c, rest', hcons, hfit, -⟩ := (Glob.matches_cons_iff hb).mp hmatches
      cases hcons
      exact h.noFit b hhead hfit

/-! ## Termination -/

/-- The indices stay inside the pattern and the text. -/
structure InBounds (p t : List UInt8) (s : LoopState) : Prop where
  pIdx : s.pIdx ≤ p.length
  tIdx : s.tIdx ≤ t.length
  matchIdx : s.matchIdx ≤ s.tIdx
  starIdx : ∀ star, s.starIdx = some star → star < p.length

theorem lt_of_drop_eq_cons {l rest : List UInt8} {i : Nat} {b : UInt8} (h : l.drop i = b :: rest) :
    i < l.length := by
  by_contra hle
  rw [List.drop_of_length_le (not_lt.mp hle)] at h
  cases h

theorem InBounds.step (h : InBounds p t s) (hstep : Step p t s s') : InBounds p t s' := by
  cases hstep with
  | advance pattern text fit =>
      have hmatch := h.matchIdx
      exact ⟨lt_of_drop_eq_cons pattern, lt_of_drop_eq_cons text, Nat.le_succ_of_le hmatch,
        h.starIdx⟩
  | star pattern more =>
      have hp := lt_of_drop_eq_cons pattern
      exact ⟨hp, h.tIdx, Nat.le_refl _, fun star hstar => by cases hstar; exact hp⟩
  | retry last stuck =>
      have hmatch := h.matchIdx
      have hmore := stuck.more
      exact ⟨h.starIdx _ last, by dsimp only; omega, Nat.le_refl _, fun star hstar => by
        cases hstar; exact h.starIdx _ last⟩

/-- The state after at most `count` iterations; `none` when the loop has ended before. -/
def iterate (p t : List UInt8) : Nat → LoopState → Option LoopState
  | 0, s => some s
  | count + 1, s => (s.next p t).bind (iterate p t count)

/-- The loop ends with the text used up and only stars left of the pattern. -/
def Accepts (p t : List UInt8) (fuel : Nat) (s : LoopState) : Prop :=
  ∃ pEnd, s.loop p t fuel = some pEnd ∧ ∀ b ∈ p.drop pEnd, b = starByte

theorem accepts_of_next {fuel : Nat} (h : s.next p t = some s') :
    Accepts p t (fuel + 1) s ↔ Accepts p t fuel s' := by
  rw [Accepts, Accepts, loop_of_next fuel h]

theorem accepts_of_end {fuel : Nat} (h : s.next p t = none) :
    Accepts p t (fuel + 1) s ↔ t.length ≤ s.tIdx ∧ ∀ b ∈ p.drop s.pIdx, b = starByte := by
  rw [Accepts, loop_of_end fuel h, outcome]
  split
  · rename_i hend
    simp [hend]
  · rename_i hend
    simp [hend]

/-- A property that a match of the remaining pattern, or of what follows the last star from here
on, has. -/
structure Owes (p t : List UInt8) (goal : Prop) (s : LoopState) : Prop where
  here : GlobMatches (p.drop s.pIdx) (t.drop s.tIdx) → goal
  later : ∀ star, s.starIdx = some star → ∀ n, s.matchIdx ≤ n →
    GlobMatches (p.drop (star + 1)) (t.drop n) → goal

theorem Owes.step {goal : Prop} (h : Owes p t goal s) (hstep : Step p t s s') :
    Owes p t goal s' := by
  cases hstep with
  | advance pattern text fit =>
      refine ⟨fun hmatches => h.here ?_, h.later⟩
      rw [pattern, text]
      exact .cons fit hmatches
  | star pattern more =>
      have hskip : ∀ n, s.tIdx ≤ n → GlobMatches (p.drop (s.pIdx + 1)) (t.drop n) → goal := by
        intro n hn hmatches
        apply h.here
        rw [pattern]
        refine (Glob.matches_star_iff starByte_ne_anyByte).mpr ⟨n - s.tIdx, ?_⟩
        rwa [List.drop_drop, Nat.add_sub_cancel' hn]
      refine ⟨hskip _ (Nat.le_refl _), fun star hstar n hn => ?_⟩
      cases hstar
      exact hskip n hn
  | retry last stuck =>
      refine ⟨h.later _ last _ (Nat.le_succ _), fun star hstar n hn => ?_⟩
      cases hstar
      exact h.later _ last n (Nat.le_of_succ_le hn)

/-- The text is in the language exactly when the rest of it still matches: from here on as long as no
star was passed, and else from some place that the last star can skip to. -/
def Decides (p t : List UInt8) (s : LoopState) : Prop :=
  match s.starIdx with
  | none => GlobMatches p t ↔ GlobMatches (p.drop s.pIdx) (t.drop s.tIdx)
  | some star => ∃ seg front, starByte ∉ seg ∧ List.Forall₂ (Fits anyByte) seg front ∧
      p.drop (star + 1) = seg ++ p.drop s.pIdx ∧ t.drop s.matchIdx = front ++ t.drop s.tIdx ∧
      (GlobMatches p t ↔ ∃ n, GlobMatches (p.drop (star + 1)) ((t.drop s.matchIdx).drop n))

theorem Decides.advance (h : Decides p t s) {b c : UInt8}
    (pattern : p.drop s.pIdx = b :: p.drop (s.pIdx + 1))
    (text : t.drop s.tIdx = c :: t.drop (s.tIdx + 1)) (fit : Fits anyByte b c)
    (hb : b ≠ starByte) : Decides p t { s with pIdx := s.pIdx + 1, tIdx := s.tIdx + 1 } := by
  unfold Decides at h ⊢
  cases hidx : s.starIdx with
  | none =>
      simp only [hidx] at h ⊢
      have hone : starByte ∉ [b] := by simpa using Ne.symm hb
      rw [h, pattern, text]
      exact Glob.matches_append_iff hone (.cons fit .nil)
  | some star =>
      simp only [hidx] at h ⊢
      obtain ⟨seg, front, hseg, hfits, hpattern, htext, hiff⟩ := h
      refine ⟨seg ++ [b], front ++ [c], ?_, ?_, ?_, ?_, hiff⟩
      · simpa using ⟨hseg, Ne.symm hb⟩
      · exact List.rel_append hfits (.cons fit .nil)
      · rw [hpattern, pattern, List.append_assoc, List.singleton_append]
      · rw [htext, text, List.append_assoc, List.singleton_append]

/-- A star replaces the one before it. -/
theorem Decides.star (h : Decides p t s)
    (pattern : p.drop s.pIdx = starByte :: p.drop (s.pIdx + 1)) :
    Decides p t ⟨s.pIdx + 1, s.tIdx, some s.pIdx, s.tIdx⟩ := by
  refine ⟨[], [], List.not_mem_nil, .nil, rfl, rfl, ?_⟩
  unfold Decides at h
  cases hidx : s.starIdx with
  | none =>
      simp only [hidx] at h
      rw [h, pattern]
      exact Glob.matches_star_iff starByte_ne_anyByte
  | some star =>
      simp only [hidx] at h
      obtain ⟨seg, front, hseg, hfits, hpattern, htext, hiff⟩ := h
      rw [hiff, hpattern, htext, pattern]
      exact Glob.exists_matches_star_iff starByte_ne_anyByte hseg hfits

/-- Where the segment behind the last star does not fit, the star skips one more byte. -/
theorem Decides.retry (h : Decides p t s) {star : Nat} (last : s.starIdx = some star)
    (stuck : Stuck p t s) : Decides p t ⟨star + 1, s.matchIdx + 1, some star, s.matchIdx + 1⟩ := by
  refine ⟨[], [], List.not_mem_nil, .nil, rfl, rfl, ?_⟩
  unfold Decides at h
  simp only [last] at h
  obtain ⟨seg, front, hseg, hfits, hpattern, htext, hiff⟩ := h
  have hfirst : ¬ GlobMatches (p.drop (star + 1)) (t.drop s.matchIdx) := by
    rw [hpattern, htext, GlobMatches, Glob.matches_append_iff hseg hfits]
    exact stuck.not_matches
  have hdrop : ∀ n, (t.drop (s.matchIdx + 1)).drop n = (t.drop s.matchIdx).drop (n + 1) := by
    intro n
    rw [List.drop_drop, List.drop_drop]
    congr 1
    omega
  rw [hiff]
  constructor
  · rintro ⟨n, hn⟩
    cases n with
    | zero => exact absurd hn hfirst
    | succ n => exact ⟨n, hdrop n ▸ hn⟩
  · rintro ⟨n, hn⟩
    exact ⟨n + 1, hdrop n ▸ hn⟩

theorem Decides.step (h : Decides p t s) (hshared : ¬ (starByte ∈ p ∧ starByte ∈ t))
    (hstep : Step p t s s') : Decides p t s' := by
  cases hstep with
  | @advance b c pattern text fit =>
      refine h.advance pattern text fit ?_
      rintro rfl
      -- the byte that fits a star is a star
      have hstar : starByte ∈ p := List.mem_of_mem_drop (pattern ▸ List.mem_cons_self)
      rcases fit with hany | rfl
      · exact starByte_ne_anyByte hany
      · exact hshared ⟨hstar, List.mem_of_mem_drop (text ▸ List.mem_cons_self)⟩
  | star pattern more => exact h.star pattern
  | retry last stuck => exact h.retry last stuck

end LoopState

open LoopState

/-! ## The matcher -/

theorem wildcardMatch_iff (pattern text : String) : wildcardMatch pattern text = true ↔
    Accepts (Str.asBytes pattern) (Str.asBytes text)
      (wildcardFuel (Str.asBytes pattern) (Str.asBytes text)) start := by
  unfold wildcardMatch Accepts loop start
  dsimp only
  cases wildcardLoop (Str.asBytes pattern) (Str.asBytes text)
      (wildcardFuel (Str.asBytes pattern) (Str.asBytes text)) 0 0 none 0 with
  | none => simp
  | some pEnd => simp [List.isEmpty_iff, List.dropWhile_eq_nil_iff]

end NixCache.Core
