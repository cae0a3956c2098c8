import Mathlib.Algebra.Group.Int.Defs
import NixCache.Lib.Result
import NixCache.Lib.Str
/-!
# Decimal integers

`str::parse` to the integer types of Rust: digits are read from the left, each is checked before the
value that it makes.
-/

namespace NixCache.Lib.Str

/-- `std::num::IntErrorKind`. -/
inductive IntErrorKind where
  | empty
  | invalidDigit
  | posOverflow
  | negOverflow
deriving DecidableEq, Repr

/-- `ParseIntError`'s text. -/
def IntErrorKind.text : IntErrorKind → String
  | empty => "cannot parse integer from empty string"
  | invalidDigit => "invalid digit found in string"
  | posOverflow => "number too large to fit in target type"
  | negOverflow => "number too small to fit in target type"

def digitValue (c : Char) : Nat := c.toNat - '0'.toNat

/-- The digits after a value, all below `bound`. -/
def parseDigits (bound : Nat) (overflow : IntErrorKind) :
    (value : Nat) → List Char → Except IntErrorKind Nat
  | value, [] => .ok value
  | value, c :: cs =>
      if ¬ isAsciiDigit c then .error .invalidDigit
      else if bound ≤ 10 * value + digitValue c then .error overflow
      else parseDigits bound overflow (10 * value + digitValue c) cs

/-- `str::parse` to the unsigned type with the values below `bound`. -/
def parseUnsigned (bound : Nat) (s : String) : Except IntErrorKind Nat :=
  match s.toList with
  | [] => .error .empty
  | ['+'] | ['-'] => .error .invalidDigit
  | '+' :: digits => parseDigits bound .posOverflow 0 digits
  | digits => parseDigits bound .posOverflow 0 digits

/-- `str::parse` to the signed type with the values from `-bound` to below `bound`. -/
def parseSigned (bound : Nat) (s : String) : Except IntErrorKind Int :=
  match s.toList with
  | [] => .error .empty
  | ['+'] | ['-'] => .error .invalidDigit
  | '+' :: digits => Int.ofNat <$> parseDigits bound .posOverflow 0 digits
  | '-' :: digits =>
      (fun value => -Int.ofNat value) <$> parseDigits (bound + 1) .negOverflow 0 digits
  | digits => Int.ofNat <$> parseDigits bound .posOverflow 0 digits

/-- `str::parse::<u64>`. -/
def parseU64 (s : String) : Except IntErrorKind UInt64 :=
  UInt64.ofNat <$> parseUnsigned (2 ^ 64) s

/-- `str::parse::<i64>`. -/
def parseI64 (s : String) : Except IntErrorKind Int := parseSigned (2 ^ 63) s

/-! ## What is read -/

/-- A decimal number: at least one digit. -/
def IsDecimal (cs : List Char) : Prop := cs ≠ [] ∧ ∀ c ∈ cs, isAsciiDigit c = true

theorem le_foldl_digits (value : Nat) (cs : List Char) :
    value ≤ cs.foldl (fun value c => 10 * value + (c.toNat - '0'.toNat)) value := by
  induction cs generalizing value with
  | nil => exact le_rfl
  | cons c cs ih =>
      calc value ≤ 10 * value + (c.toNat - '0'.toNat) := by omega
        _ ≤ _ := ih _

theorem parseDigits_eq_ok {bound value result : Nat} {overflow : IntErrorKind} {cs : List Char}
    (hvalue : value < bound) :
    parseDigits bound overflow value cs = .ok result ↔
      (∀ c ∈ cs, isAsciiDigit c = true) ∧ result < bound ∧
        result = cs.foldl (fun value c => 10 * value + (c.toNat - '0'.toNat)) value := by
  induction cs generalizing value with
  | nil =>
      simp only [parseDigits, Except.ok.injEq, List.not_mem_nil, false_implies, implies_true,
        true_and, List.foldl_nil]
      omega
  | cons c cs ih =>
      rw [parseDigits]
      by_cases hdigit : isAsciiDigit c = true
      · rw [if_neg (by simpa using hdigit)]
        by_cases hbound : bound ≤ 10 * value + digitValue c
        · rw [if_pos hbound]
          simp only [reduceCtorEq, List.mem_cons, forall_eq_or_imp, List.foldl_cons, false_iff]
          rintro ⟨-, hlt, hresult⟩
          have hle := le_foldl_digits (10 * value + digitValue c) cs
          simp only [digitValue] at hle hbound
          omega
        · rw [if_neg hbound, ih (not_le.mp hbound)]
          simp [hdigit, digitValue]
      · rw [if_pos (by simpa using hdigit)]
        simp [hdigit]

/-- The characters of a number are neither signs nor white space. -/
theorem isAsciiDigit_iff {c : Char} : isAsciiDigit c = true ↔ 48 ≤ c.toNat ∧ c.toNat ≤ 57 := by
  simp only [isAsciiDigit, decide_eq_true_eq, Char.le_def, UInt32.le_iff_toNat_le]
  rfl

theorem not_isWhitespace_of_isAsciiDigit {c : Char} (h : isAsciiDigit c = true) :
    isWhitespace c = false := by
  rw [isAsciiDigit_iff] at h
  simp only [isWhitespace, decide_eq_false_iff_not]
  omega

theorem isAsciiDigit_eq_isDigit (c : Char) : isAsciiDigit c = c.isDigit := by
  simp only [isAsciiDigit, Char.isDigit, Char.le_def]
  rw [Bool.decide_and]

/-- A number that may have a `+` before it. -/
def IsNumeral (cs : List Char) (n : Nat) : Prop :=
  ∃ digits, (cs = digits ∨ cs = '+' :: digits) ∧ IsDecimal digits ∧ n = decimalValue digits

/-- A number that may have a sign before it. -/
def IsInteger (cs : List Char) (value : Int) : Prop :=
  (∃ n, IsNumeral cs n ∧ value = n) ∨
    ∃ digits, cs = '-' :: digits ∧ IsDecimal digits ∧ value = -(decimalValue digits : Int)

/-- A sign is no digit. -/
theorem IsDecimal.head {c : Char} {cs : List Char} (h : IsDecimal (c :: cs)) :
    c ≠ '+' ∧ c ≠ '-' := by
  have hc := h.2 c List.mem_cons_self
  constructor <;> (rintro rfl; revert hc; decide)

theorem isNumeral_cons {c : Char} {cs : List Char} {n : Nat} (hc : c ≠ '+') :
    IsNumeral (c :: cs) n ↔ IsDecimal (c :: cs) ∧ n = decimalValue (c :: cs) := by
  constructor
  · rintro ⟨digits, rfl | hplus, hdecimal, hn⟩
    · exact ⟨hdecimal, hn⟩
    · exact absurd (List.cons.inj hplus).1 hc
  · rintro ⟨hdecimal, hn⟩
    exact ⟨c :: cs, Or.inl rfl, hdecimal, hn⟩

theorem isNumeral_plus {cs : List Char} {n : Nat} :
    IsNumeral ('+' :: cs) n ↔ IsDecimal cs ∧ n = decimalValue cs := by
  constructor
  · rintro ⟨digits, rfl | hplus, hdecimal, hn⟩
    · exact absurd rfl hdecimal.head.1
    · cases hplus
      exact ⟨hdecimal, hn⟩
  · rintro ⟨hdecimal, hn⟩
    exact ⟨cs, Or.inr rfl, hdecimal, hn⟩

theorem IsNumeral.ne_nil {cs : List Char} {n : Nat} (h : IsNumeral cs n) : cs ≠ [] := by
  obtain ⟨digits, rfl | rfl, hdecimal, -⟩ := h
  · exact hdecimal.1
  · exact List.cons_ne_nil _ _

theorem IsNumeral.mem {cs : List Char} {n : Nat} (h : IsNumeral cs n) {c : Char} (hc : c ∈ cs) :
    isAsciiDigit c = true ∨ c = '+' := by
  obtain ⟨digits, rfl | rfl, hdecimal, -⟩ := h
  · exact Or.inl (hdecimal.2 c hc)
  · rcases List.mem_cons.mp hc with rfl | hc
    · exact Or.inr rfl
    · exact Or.inl (hdecimal.2 c hc)

theorem IsNumeral.not_isWhitespace {cs : List Char} {n : Nat} (h : IsNumeral cs n) {c : Char}
    (hc : c ∈ cs) : isWhitespace c = false := by
  rcases h.mem hc with hdigit | rfl
  · exact not_isWhitespace_of_isAsciiDigit hdigit
  · decide

theorem IsNumeral.unique {cs : List Char} {m n : Nat} (hm : IsNumeral cs m) (hn : IsNumeral cs n) :
    m = n := by
  cases cs with
  | nil => exact absurd rfl hm.ne_nil
  | cons c cs =>
      by_cases hplus : c = '+'
      · subst hplus
        rw [(isNumeral_plus.mp hm).2, (isNumeral_plus.mp hn).2]
      · rw [((isNumeral_cons hplus).mp hm).2, ((isNumeral_cons hplus).mp hn).2]

theorem parseUnsigned_of_plus {bound : Nat} {s : String} {c : Char} {cs : List Char}
    (h : s.toList = '+' :: c :: cs) :
    parseUnsigned bound s = parseDigits bound .posOverflow 0 (c :: cs) := by
  simp only [parseUnsigned, h]

theorem parseUnsigned_of_not_plus {bound : Nat} {s : String} {c : Char} {cs : List Char}
    (h : s.toList = c :: cs) (hplus : c ≠ '+') (hminus : c :: cs ≠ ['-']) :
    parseUnsigned bound s = parseDigits bound .posOverflow 0 (c :: cs) := by
  rw [parseUnsigned, h]
  split
  next hnil => cases hnil
  next heq => exact absurd (List.cons.inj heq).1 hplus
  next heq => exact absurd heq hminus
  next heq => exact absurd (List.cons.inj heq).1 hplus
  next => rfl

theorem parseDigits_decimal {bound n : Nat} {overflow : IntErrorKind} {cs : List Char}
    (hbound : 0 < bound) (hne : cs ≠ []) :
    parseDigits bound overflow 0 cs = .ok n ↔
      (IsDecimal cs ∧ n = decimalValue cs) ∧ n < bound := by
  rw [parseDigits_eq_ok hbound, IsDecimal]
  simp only [hne, ne_eq, not_false_eq_true, true_and]
  exact ⟨fun ⟨hdigits, hlt, hn⟩ => ⟨⟨hdigits, hn⟩, hlt⟩, fun ⟨⟨hdigits, hn⟩, hlt⟩ =>
    ⟨hdigits, hlt, hn⟩⟩

/-- Exactly the numerals below the bound are read. -/
theorem parseUnsigned_eq_ok {bound n : Nat} (hbound : 0 < bound) {s : String} :
    parseUnsigned bound s = .ok n ↔ IsNumeral s.toList n ∧ n < bound := by
  cases hchars : s.toList with
  | nil => simp [parseUnsigned, hchars, IsNumeral, IsDecimal]
  | cons c cs =>
      by_cases hplus : c = '+'
      · subst hplus
        rw [isNumeral_plus]
        cases cs with
        | nil => simp [parseUnsigned, hchars, IsDecimal]
        | cons d ds => rw [parseUnsigned_of_plus hchars, parseDigits_decimal hbound (by simp)]
      · rw [isNumeral_cons hplus]
        by_cases hminus : c :: cs = ['-']
        · obtain ⟨rfl, rfl⟩ := List.cons.inj hminus
          have hnot : ¬ IsDecimal ['-'] := fun h => h.head.2 rfl
          simp [parseUnsigned, hchars, hnot]
        · rw [parseUnsigned_of_not_plus hchars hplus hminus,
            parseDigits_decimal hbound (by simp)]

theorem isInteger_minus {cs : List Char} {value : Int} :
    IsInteger ('-' :: cs) value ↔ IsDecimal cs ∧ value = -(decimalValue cs : Int) := by
  constructor
  · rintro (⟨n, hnumeral, -⟩ | ⟨digits, hminus, hdigits⟩)
    · rw [isNumeral_cons (by decide)] at hnumeral
      exact absurd rfl hnumeral.1.head.2
    · cases hminus
      exact hdigits
  · intro hdigits
    exact Or.inr ⟨cs, rfl, hdigits⟩

theorem isInteger_not_minus {c : Char} {cs : List Char} {value : Int} (hc : c ≠ '-') :
    IsInteger (c :: cs) value ↔ ∃ n, IsNumeral (c :: cs) n ∧ value = n := by
  rw [IsInteger, or_iff_left]
  rintro ⟨digits, hminus, -⟩
  exact hc (List.cons.inj hminus).1

theorem parseSigned_of_minus {bound : Nat} {s : String} {c : Char} {cs : List Char}
    (h : s.toList = '-' :: c :: cs) :
    parseSigned bound s =
      (fun value => -Int.ofNat value) <$> parseDigits (bound + 1) .negOverflow 0 (c :: cs) := by
  simp only [parseSigned, h]

/-- Without a minus the integer is read as a natural number. -/
theorem parseSigned_of_not_minus {bound : Nat} {s : String} {c : Char} {cs : List Char}
    (h : s.toList = c :: cs) (hminus : c ≠ '-') :
    parseSigned bound s = Int.ofNat <$> parseUnsigned bound s := by
  by_cases hplus : c = '+'
  · subst hplus
    cases cs with
    | nil => simp only [parseSigned, parseUnsigned, h]; rfl
    | cons d ds => simp only [parseSigned, parseUnsigned, h]
  · rw [parseUnsigned_of_not_plus h hplus fun heq => hminus (List.cons.inj heq).1, parseSigned, h]
    split
    next hnil => cases hnil
    next heq => exact absurd (List.cons.inj heq).1 hplus
    next heq => exact absurd (List.cons.inj heq).1 hminus
    next heq => exact absurd (List.cons.inj heq).1 hplus
    next heq => exact absurd (List.cons.inj heq).1 hminus
    next => rfl

theorem IsInteger.ne_nil {cs : List Char} {v : Int} (h : IsInteger cs v) : cs ≠ [] := by
  rcases h with ⟨n, hn, -⟩ | ⟨digits, rfl, -⟩
  · exact hn.ne_nil
  · exact List.cons_ne_nil _ _

theorem IsInteger.unique {cs : List Char} {v w : Int} (hv : IsInteger cs v)
    (hw : IsInteger cs w) : v = w := by
  cases cs with
  | nil => exact absurd rfl hv.ne_nil
  | cons c cs =>
      by_cases hminus : c = '-'
      · subst hminus
        rw [(isInteger_minus.mp hv).2, (isInteger_minus.mp hw).2]
      · obtain ⟨m, hm, rfl⟩ := (isInteger_not_minus hminus).mp hv
        obtain ⟨n, hn, rfl⟩ := (isInteger_not_minus hminus).mp hw
        rw [hm.unique hn]

/-- Exactly the integers in range are read. -/
theorem parseSigned_eq_ok {bound : Nat} (hbound : 0 < bound) {s : String} {value : Int} :
    parseSigned bound s = .ok value ↔
      IsInteger s.toList value ∧ -(bound : Int) ≤ value ∧ value < bound := by
  cases hchars : s.toList with
  | nil => simp [parseSigned, hchars, IsInteger, IsNumeral, IsDecimal]
  | cons c cs =>
      by_cases hminus : c = '-'
      · subst hminus
        cases cs with
        | nil =>
            rw [isInteger_minus]
            simp [parseSigned, hchars, IsDecimal]
        | cons d ds =>
            rw [isInteger_minus, parseSigned_of_minus hchars, Result.map_eq_ok]
            simp only [parseDigits_decimal (Nat.succ_pos bound) (List.cons_ne_nil d ds)]
            constructor
            · rintro ⟨n, ⟨⟨hdecimal, rfl⟩, hlt⟩, rfl⟩
              exact ⟨⟨hdecimal, rfl⟩, by simp only [Int.ofNat_eq_natCast]; omega,
                by simp only [Int.ofNat_eq_natCast]; omega⟩
            · rintro ⟨⟨hdecimal, rfl⟩, hlow, -⟩
              exact ⟨_, ⟨⟨hdecimal, rfl⟩, by omega⟩, rfl⟩
      · rw [isInteger_not_minus hminus, parseSigned_of_not_minus hchars hminus, Result.map_eq_ok]
        simp only [parseUnsigned_eq_ok hbound, hchars]
        constructor
        · rintro ⟨n, ⟨hnumeral, hlt⟩, rfl⟩
          exact ⟨⟨n, hnumeral, rfl⟩, by simp only [Int.ofNat_eq_natCast]; omega,
            by simp only [Int.ofNat_eq_natCast]; omega⟩
        · rintro ⟨⟨n, hnumeral, rfl⟩, -, hlt⟩
          exact ⟨n, ⟨hnumeral, by omega⟩, rfl⟩

/-- Exactly the numerals of 64 bits are read. -/
theorem parseU64_eq_ok {s : String} {value : UInt64} :
    parseU64 s = .ok value ↔ IsNumeral s.toList value.toNat := by
  rw [parseU64, Result.map_eq_ok]
  constructor
  · rintro ⟨n, hn, rfl⟩
    obtain ⟨hnumeral, hlt⟩ := (parseUnsigned_eq_ok (by decide)).mp hn
    rwa [UInt64.toNat_ofNat_of_lt' hlt]
  · intro h
    exact ⟨value.toNat, (parseUnsigned_eq_ok (by decide)).mpr ⟨h, value.toNat_lt⟩,
      UInt64.ofNat_toNat⟩

/-- Exactly the integers of 64 bits are read. -/
theorem parseI64_eq_ok {s : String} {value : Int} :
    parseI64 s = .ok value ↔ IsInteger s.toList value ∧ -2 ^ 63 ≤ value ∧ value < 2 ^ 63 := by
  rw [parseI64, parseSigned_eq_ok (by decide)]
  norm_cast

theorem decimalValue_eq_ofDigitChars (cs : List Char) :
    decimalValue cs = Nat.ofDigitChars 10 cs 0 := by
  rw [decimalValue, Nat.ofDigitChars_eq_foldl]

theorem isDecimal_toDigits (n : Nat) : IsDecimal (Nat.toDigits 10 n) :=
  ⟨Nat.toDigits_ne_nil, fun c hc => by
    rw [isAsciiDigit_eq_isDigit]
    exact Nat.isDigit_of_mem_toDigits (by omega) (by omega) hc⟩

theorem decimalValue_toDigits (n : Nat) : decimalValue (Nat.toDigits 10 n) = n := by
  rw [decimalValue_eq_ofDigitChars, Nat.ofDigitChars_ten_toDigits]

theorem toList_toString (n : Nat) : (toString n).toList = Nat.toDigits 10 n := by
  rw [Nat.toString_eq_ofList_toDigits, String.toList_ofList]

theorem isNumeral_toString (n : Nat) : IsNumeral (toString n).toList n :=
  ⟨_, Or.inl rfl, by rw [toList_toString]; exact isDecimal_toDigits n,
    by rw [toList_toString, decimalValue_toDigits]⟩

/-- A printed number is read back. -/
theorem parseUnsigned_toString {bound n : Nat} (h : n < bound) :
    parseUnsigned bound (toString n) = .ok n :=
  (parseUnsigned_eq_ok (by omega)).mpr ⟨isNumeral_toString n, h⟩

theorem toString_inj {m n : Nat} : toString m = toString n ↔ m = n := by
  constructor
  · intro h
    have hm := parseUnsigned_toString (show m < m + n + 1 by omega)
    have hn := parseUnsigned_toString (show n < m + n + 1 by omega)
    rw [h, hn] at hm
    exact (Except.ok.inj hm).symm
  · rintro rfl
    rfl

theorem parseU64_toString (n : UInt64) : parseU64 (toString n.toNat) = .ok n := by
  rw [parseU64, parseUnsigned_toString n.toNat_lt]
  exact congrArg Except.ok UInt64.ofNat_toNat

end NixCache.Lib.Str
