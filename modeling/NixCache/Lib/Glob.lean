import Mathlib.Data.List.Forall2
import Mathlib.Data.List.Basic
/-!
# Glob patterns

The language of a pattern over any alphabet: `star` stands for any word, `any` for any one letter,
and every other letter for itself.  A greedy matcher may forget all stars but the last one it
passed, since a word that a segment without stars matches can be given back to that star.
-/

namespace NixCache.Lib.Glob

variable {α : Type} {star any : α}

/-- `text` is in the language of `pattern`. -/
inductive Matches (star any : α) : (pattern text : List α) → Prop
  | nil : Matches star any [] []
  | skip {pattern text : List α} (run : List α) (rest : Matches star any pattern text) :
      Matches star any (star :: pattern) (run ++ text)
  | one {pattern text : List α} (letter : α) (rest : Matches star any pattern text) :
      Matches star any (any :: pattern) (letter :: text)
  | letter {pattern text : List α} {letter : α} (notStar : letter ≠ star) (notAny : letter ≠ any)
      (rest : Matches star any pattern text) :
      Matches star any (letter :: pattern) (letter :: text)

/-- A pattern letter that stands for one letter of the text. -/
def Fits (any : α) (p c : α) : Prop := p = any ∨ p = c

/-! ## One letter of the pattern -/

theorem matches_nil_iff {text : List α} : Matches star any [] text ↔ text = [] := by
  constructor
  · intro h
    cases h
    rfl
  · rintro rfl
    exact .nil

theorem matches_star_iff (hne : star ≠ any) {pattern text : List α} :
    Matches star any (star :: pattern) text ↔ ∃ n, Matches star any pattern (text.drop n) := by
  constructor
  · intro h
    cases h with
    | skip run rest =>
        refine ⟨run.length, ?_⟩
        rwa [List.drop_left]
    | one letter rest => exact absurd rfl hne
    | letter notStar notAny rest => exact absurd rfl notStar
  · rintro ⟨n, h⟩
    have hskip := Matches.skip (text.take n) h
    rwa [List.take_append_drop] at hskip

/-- Any letter but a star takes one letter of the text. -/
theorem matches_cons_iff {p : α} (hp : p ≠ star) {pattern text : List α} :
    Matches star any (p :: pattern) text ↔
      ∃ c rest, text = c :: rest ∧ Fits any p c ∧ Matches star any pattern rest := by
  constructor
  · intro h
    cases h with
    | skip run rest => exact absurd rfl hp
    | one letter rest => exact ⟨letter, _, rfl, Or.inl rfl, rest⟩
    | letter notStar notAny rest => exact ⟨p, _, rfl, Or.inr rfl, rest⟩
  · rintro ⟨c, rest, rfl, hfit, h⟩
    by_cases hany : p = any
    · rw [hany]
      exact .one c h
    · rcases hfit with hfit | rfl
      · exact absurd hfit hany
      · exact .letter hp hany h

/-- A letter of the pattern that equals the letter of the text may be dropped with it, also when it
is a star. -/
theorem Matches.cons {p c : α} {pattern text : List α} (hfit : Fits any p c)
    (h : Matches star any pattern text) : Matches star any (p :: pattern) (c :: text) := by
  by_cases hstar : p = star
  · rw [hstar]
    exact .skip [c] h
  · exact (matches_cons_iff hstar).mpr ⟨c, text, rfl, hfit, h⟩

theorem Matches.self (pattern : List α) : Matches star any pattern pattern := by
  induction pattern with
  | nil => exact .nil
  | cons p pattern ih => exact .cons (Or.inr rfl) ih

/-- Every letter but the stars takes a letter of the text. -/
theorem Matches.length_le [DecidableEq α] {pattern text : List α}
    (h : Matches star any pattern text) :
    (pattern.filter (· ≠ star)).length ≤ text.length := by
  induction h with
  | nil => simp
  | skip run rest ih =>
      rw [List.filter_cons_of_neg (by simp), List.length_append]
      omega
  | one letter rest ih =>
      rw [List.length_cons, List.filter_cons]
      split
      · rw [List.length_cons]
        omega
      · omega
  | letter notStar notAny rest ih =>
      rw [List.filter_cons_of_pos (by simpa using notStar), List.length_cons, List.length_cons]
      omega

/-! ## Segments without stars -/

variable {seg front rest back : List α}

theorem Matches.append (hfit : List.Forall₂ (Fits any) seg front) (h : Matches star any rest back) :
    Matches star any (seg ++ rest) (front ++ back) := by
  induction hfit with
  | nil => exact h
  | cons hfit _ ih => exact .cons hfit ih

theorem exists_of_matches_append (hseg : star ∉ seg) {text : List α}
    (h : Matches star any (seg ++ rest) text) :
    ∃ front back, text = front ++ back ∧ List.Forall₂ (Fits any) seg front ∧
      Matches star any rest back := by
  induction seg generalizing text with
  | nil => exact ⟨[], text, rfl, .nil, h⟩
  | cons p seg ih =>
      rw [List.mem_cons, not_or] at hseg
      rw [List.cons_append, matches_cons_iff (Ne.symm hseg.1)] at h
      obtain ⟨c, tail, rfl, hfit, h⟩ := h
      obtain ⟨front, back, rfl, hfits, hrest⟩ := ih hseg.2 h
      exact ⟨c :: front, back, rfl, .cons hfit hfits, hrest⟩

/-- Behind a segment without stars, the match goes on where the segment ends. -/
theorem matches_append_iff (hseg : star ∉ seg) (hfit : List.Forall₂ (Fits any) seg front) :
    Matches star any (seg ++ rest) (front ++ back) ↔ Matches star any rest back := by
  constructor
  · intro h
    obtain ⟨front', back', happ, hfit', hrest⟩ := exists_of_matches_append hseg h
    have hlength : front.length = front'.length := by
      rw [← hfit.length_eq, ← hfit'.length_eq]
    obtain ⟨-, rfl⟩ := List.append_inj happ hlength
    exact hrest
  · exact .append hfit

/-- When a star follows a segment that fits at the first possible place, the places before that star
need not be tried again: what the segment would match later, the star can skip. -/
theorem exists_matches_star_iff (hne : star ≠ any) (hseg : star ∉ seg)
    (hfit : List.Forall₂ (Fits any) seg front) :
    (∃ n, Matches star any (seg ++ star :: rest) ((front ++ back).drop n)) ↔
      ∃ n, Matches star any rest (back.drop n) := by
  constructor
  · rintro ⟨n, h⟩
    obtain ⟨front', back', happ, hfit', hstar⟩ := exists_of_matches_append hseg h
    obtain ⟨m, hrest⟩ := (matches_star_iff hne).mp hstar
    have hlength : front.length = front'.length := by
      rw [← hfit.length_eq, ← hfit'.length_eq]
    -- the segment ended at `n + front.length`, which is at or after the start of `back`
    have hback : back' = back.drop n := by
      have hdrop := congrArg (List.drop front'.length) happ
      rw [List.drop_left, List.drop_drop, ← hlength, Nat.add_comm, ← List.drop_drop,
        List.drop_left] at hdrop
      exact hdrop.symm
    rw [hback, List.drop_drop] at hrest
    exact ⟨_, hrest⟩
  · rintro ⟨n, h⟩
    exact ⟨0, .append hfit ((matches_star_iff hne).mpr ⟨n, h⟩)⟩

end NixCache.Lib.Glob
