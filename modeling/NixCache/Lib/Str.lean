import Mathlib.Data.List.Basic
import Mathlib.Data.String.Basic
/-!
# Text operations of the Rust standard library

The programs verified here are written against `str`.  Each operation is given over the list of
Unicode scalar values of a string, so that it evaluates in the kernel; lengths and slices count
UTF-8 bytes, as `str::len` does.
-/

namespace NixCache.Lib.Str

/-- What holds of all characters of a text is decided over the text, not over all characters. -/
instance (priority := 2000) decidableForallMem {p : Char → Prop} [DecidablePred p] (cs : List Char) :
    Decidable (∀ c ∈ cs, p c) :=
  List.decidableBAll p cs

instance (priority := 2000) decidableForallMemOption {p : Char → Prop} [DecidablePred p]
    (c : Option Char) :
    Decidable (∀ d ∈ c, p d) :=
  Option.decidableForallMem c

/-- `char::is_whitespace`: the Unicode property `White_Space`. -/
def isWhitespace (c : Char) : Bool :=
  (0x9 ≤ c.toNat ∧ c.toNat ≤ 0xD) ∨ c.toNat = 0x20 ∨ c.toNat = 0x85 ∨ c.toNat = 0xA0 ∨
    c.toNat = 0x1680 ∨ (0x2000 ≤ c.toNat ∧ c.toNat ≤ 0x200A) ∨ c.toNat = 0x2028 ∨
    c.toNat = 0x2029 ∨ c.toNat = 0x202F ∨ c.toNat = 0x205F ∨ c.toNat = 0x3000

/-- `char::is_control`: the general category `Cc`. -/
def isControl (c : Char) : Bool :=
  c.toNat < 0x20 ∨ (0x7F ≤ c.toNat ∧ c.toNat < 0xA0)

/-- `str::len`, in bytes. -/
def len (s : String) : Nat := s.utf8ByteSize

/-- `str::as_bytes`. -/
def asBytes (s : String) : List UInt8 := s.toUTF8.data.toList

def trimChars (cs : List Char) : List Char :=
  ((cs.dropWhile isWhitespace).reverse.dropWhile isWhitespace).reverse

/-- `str::trim`. -/
def trim (s : String) : String := String.ofList (trimChars s.toList)

/-- `str::is_empty`. -/
def isEmpty (s : String) : Bool := s.toList.isEmpty

/-- `str::contains` with a `char` pattern. -/
def containsChar (s : String) (c : Char) : Bool := s.toList.contains c

/-- `str::contains` with a `str` pattern. -/
def containsStr (s pat : String) : Bool :=
  s.toList.tails.any fun suffix => pat.toList.isPrefixOf suffix

/-- `str::starts_with`. -/
def startsWith (s pre : String) : Bool := pre.toList.isPrefixOf s.toList

/-- `str::ends_with`. -/
def endsWith (s suffix : String) : Bool := suffix.toList.isSuffixOf s.toList

/-- `str::strip_prefix`. -/
def stripPrefix (s pre : String) : Option String :=
  if startsWith s pre then some (String.ofList (s.toList.drop pre.toList.length)) else none

/-- The characters before and after the first occurrence of `sep`. -/
def splitOnceChars (sep : Char) : List Char → Option (List Char × List Char)
  | [] => none
  | c :: cs =>
      if c = sep then some ([], cs)
      else (splitOnceChars sep cs).map fun p => (c :: p.1, p.2)

/-- `str::split_once` with a `char` pattern. -/
def splitOnce (s : String) (sep : Char) : Option (String × String) :=
  (splitOnceChars sep s.toList).map fun p => (String.ofList p.1, String.ofList p.2)

/-- The characters before and after the first occurrence of `pat`. -/
def splitOnceListChars (pat : List Char) : List Char → Option (List Char × List Char)
  | [] => if pat.isEmpty then some ([], []) else none
  | c :: cs =>
      if pat.isPrefixOf (c :: cs) then some ([], (c :: cs).drop pat.length)
      else (splitOnceListChars pat cs).map fun p => (c :: p.1, p.2)

/-- `str::split_once` with a `str` pattern; `find` followed by slicing around the match. -/
def splitOnceStr (s pat : String) : Option (String × String) :=
  (splitOnceListChars pat.toList s.toList).map fun p => (String.ofList p.1, String.ofList p.2)

/-- `str::rsplit_once` with a `char` pattern. -/
def rsplitOnce (s : String) (sep : Char) : Option (String × String) :=
  (splitOnceChars sep s.toList.reverse).map fun p =>
    (String.ofList p.2.reverse, String.ofList p.1.reverse)

/-- `str::trim_start_matches` with a `char` pattern. -/
def trimStartMatches (s : String) (c : Char) : String :=
  String.ofList (s.toList.dropWhile (· = c))

/-- `str::trim_matches` with a `char` pattern. -/
def trimMatches (s : String) (c : Char) : String :=
  String.ofList (((s.toList.dropWhile (· = c)).reverse.dropWhile (· = c)).reverse)

/-- `std::str::from_utf8`. -/
def fromUtf8 (bytes : List UInt8) : Option String := String.fromUTF8? ⟨bytes.toArray⟩

/-- The value of a text of decimal digits. -/
def decimalValue (cs : List Char) : Nat :=
  cs.foldl (fun value c => 10 * value + (c.toNat - '0'.toNat)) 0

def lowerAscii (c : Char) : Char :=
  if 'A'.toNat ≤ c.toNat ∧ c.toNat ≤ 'Z'.toNat then Char.ofNat (c.toNat + 32) else c

/-- `str::to_ascii_lowercase`. -/
def toAsciiLowercase (s : String) : String := String.ofList (s.toList.map lowerAscii)

/-- `char::is_ascii_digit`. -/
def isAsciiDigit (c : Char) : Bool := '0' ≤ c ∧ c ≤ '9'

/-- `u8::is_ascii_hexdigit` without the upper-case letters. -/
def isLowerHexDigit (c : Char) : Bool := isAsciiDigit c ∨ ('a' ≤ c ∧ c ≤ 'f')

/-- `char::is_ascii_hexdigit`. -/
def isAsciiHexdigit (c : Char) : Bool := isLowerHexDigit c ∨ ('A' ≤ c ∧ c ≤ 'F')

/-- `char::is_ascii_alphanumeric`. -/
def isAsciiAlphanumeric (c : Char) : Bool :=
  isAsciiDigit c ∨ ('a' ≤ c ∧ c ≤ 'z') ∨ ('A' ≤ c ∧ c ≤ 'Z')

/-- `str::parse` to an unsigned integer below `bound`: digits after an optional `+`. -/
def parseBelow (bound : Nat) (s : String) : Option Nat :=
  let digits := match s.toList with
    | '+' :: rest => rest
    | cs => cs
  if ¬ digits.isEmpty ∧ digits.all isAsciiDigit ∧ decimalValue digits < bound then
    some (decimalValue digits)
  else none

theorem asBytes_injective : Function.Injective asBytes := by
  intro s t h
  have hdata : s.toUTF8.data = t.toUTF8.data := Array.ext' h
  exact String.toByteArray_inj.mp (ByteArray.ext hdata)

theorem length_asBytes (s : String) : (asBytes s).length = len s := by
  rw [asBytes, Array.length_toList]
  rfl

theorem len_le (s : String) : len s ≤ 4 * s.length := by
  have hencode : ∀ cs : List Char, cs.utf8Encode.data.toList.length ≤ 4 * cs.length := by
    intro cs
    induction cs with
    | nil => simp
    | cons c cs ih =>
        have hc := c.utf8Size_le_four
        rw [List.utf8Encode_cons, ByteArray.data_append, Array.toList_append, List.length_append,
          List.utf8Encode_singleton, List.length_cons]
        simp only [List.data_toByteArray, String.length_utf8EncodeChar]
        omega
  have hs := hencode s.toList
  rw [← String.toByteArray_ofList, String.ofList_toList] at hs
  rw [← length_asBytes, asBytes, String.toUTF8_eq_toByteArray, ← String.length_toList]
  exact hs

theorem asBytes_append (s t : String) : asBytes (s ++ t) = asBytes s ++ asBytes t := by
  rw [asBytes, String.toUTF8_eq_toByteArray, String.toByteArray_append, ByteArray.data_append,
    Array.toList_append]
  rfl

theorem fromUtf8_eq_some {bytes : List UInt8} {s : String} :
    fromUtf8 bytes = some s ↔ bytes = asBytes s := by
  unfold fromUtf8 String.fromUTF8?
  constructor
  · intro h
    split at h
    · cases h
      rfl
    · cases h
  · rintro rfl
    have hbytes : (⟨(asBytes s).toArray⟩ : ByteArray) = s.toByteArray := by
      apply ByteArray.ext
      simp [asBytes]
    rw [hbytes, dif_pos s.isValidUTF8]
    rfl

/-! ### ASCII texts -/

def IsAscii (c : Char) : Prop := c.toNat < 128

theorem utf8EncodeChar_ascii {c : Char} (h : IsAscii c) :
    String.utf8EncodeChar c = [UInt8.ofNat c.toNat] := by
  have hle : c.toNat ≤ 127 := Nat.le_of_lt_succ h
  simp only [String.utf8EncodeChar, Char.toNat_val, hle, if_true]

theorem asBytes_ofList_ascii {cs : List Char} (h : ∀ c ∈ cs, IsAscii c) :
    asBytes (String.ofList cs) = cs.map fun c => UInt8.ofNat c.toNat := by
  rw [asBytes, String.toUTF8_eq_toByteArray, String.toByteArray_ofList]
  induction cs with
  | nil => rfl
  | cons c cs ih =>
      rw [List.utf8Encode_cons, ByteArray.data_append, Array.toList_append,
        ih fun c' hc' => h c' (by simp [hc']), List.utf8Encode_singleton,
        utf8EncodeChar_ascii (h c (by simp))]
      simp

theorem len_ofList_ascii {cs : List Char} (h : ∀ c ∈ cs, IsAscii c) :
    len (String.ofList cs) = cs.length := by
  rw [← length_asBytes, asBytes_ofList_ascii h, List.length_map]

theorem len_ofList_cons (c : Char) (cs : List Char) :
    len (String.ofList (c :: cs)) = c.utf8Size + len (String.ofList cs) := by
  have hcons : String.ofList (c :: cs) = String.singleton c ++ String.ofList cs := by
    apply String.toList_inj.mp
    simp
  rw [hcons, len, String.utf8ByteSize_append, String.utf8ByteSize_singleton]
  rfl

theorem len_ofList_append (xs ys : List Char) :
    len (String.ofList (xs ++ ys)) =
      len (String.ofList xs) + len (String.ofList ys) := by
  rw [String.ofList_append, len, String.utf8ByteSize_append]
  rfl

theorem len_ofList_eq_zero {cs : List Char} : len (String.ofList cs) = 0 ↔ cs = [] := by
  cases cs with
  | nil => simp [len]
  | cons c cs =>
      have hpos := c.utf8Size_pos
      rw [len_ofList_cons]
      constructor
      · omega
      · simp

theorem toNat_ofNat_ascii {n : Nat} (h : n < 128) : (Char.ofNat n).toNat = n := by
  have hvalid : n.isValidChar := Or.inl (by omega)
  rw [Char.ofNat, dif_pos hvalid]
  rfl

/-- A text whose bytes are all below 128 is the text of those bytes. -/
theorem eq_ofList_of_ascii {s : String} (h : ∀ b ∈ asBytes s, b.toNat < 128) :
    s = String.ofList ((asBytes s).map fun b => Char.ofNat b.toNat) := by
  have hvalid : ∀ b ∈ asBytes s, (Char.ofNat b.toNat).toNat = b.toNat :=
    fun b hb => toNat_ofNat_ascii (h b hb)
  apply asBytes_injective
  rw [asBytes_ofList_ascii]
  · rw [List.map_map]
    conv_lhs => rw [← List.map_id (asBytes s)]
    apply List.map_congr_left
    intro b hb
    simp [hvalid b hb]
  · intro c hc
    obtain ⟨b, hb, rfl⟩ := List.mem_map.mp hc
    rw [IsAscii, hvalid b hb]
    exact h b hb

/-- Trimming leaves a text alone that neither starts nor ends with white space. -/
theorem trim_eq_self {s : String} {first last : Char} {rest init : List Char}
    (hfirst : s.toList = first :: rest) (hlast : s.toList = init ++ [last])
    (hf : isWhitespace first = false) (hl : isWhitespace last = false) : trim s = s := by
  have htrim : trimChars s.toList = s.toList := by
    rw [trimChars, show s.toList.dropWhile isWhitespace = s.toList by
      rw [hfirst, List.dropWhile_cons_of_neg (by simp [hf])]]
    rw [hlast, List.reverse_append, List.reverse_singleton, List.singleton_append,
      List.dropWhile_cons_of_neg (by simp [hl]), List.reverse_cons, List.reverse_reverse]
  rw [trim, htrim, String.ofList_toList]

theorem startsWith_iff {s pre : String} :
    startsWith s pre = true ↔ ∃ rest, s.toList = pre.toList ++ rest := by
  rw [startsWith, List.isPrefixOf_iff_prefix]
  constructor
  · rintro ⟨rest, h⟩
    exact ⟨rest, h.symm⟩
  · rintro ⟨rest, h⟩
    exact ⟨rest, h.symm⟩

theorem stripPrefix_eq_some {s pre rest : String} :
    stripPrefix s pre = some rest ↔ s = pre ++ rest := by
  unfold stripPrefix
  constructor
  · intro h
    split at h
    · rename_i hs
      obtain ⟨cs, hcs⟩ := startsWith_iff.mp hs
      have hrest : rest.toList = cs := by
        have := congrArg String.toList (Option.some.inj h)
        simpa [hcs] using this.symm
      apply String.toList_inj.mp
      rw [String.toList_append, hcs, hrest]
    · simp at h
  · rintro rfl
    have hs : startsWith (pre ++ rest) pre = true :=
      startsWith_iff.mpr ⟨rest.toList, by simp⟩
    simp [hs]

theorem splitOnceChars_eq_some {sep : Char} {cs before after : List Char} :
    splitOnceChars sep cs = some (before, after) ↔
      cs = before ++ sep :: after ∧ sep ∉ before := by
  induction cs generalizing before after with
  | nil => simp [splitOnceChars]
  | cons c cs ih =>
      unfold splitOnceChars
      by_cases hc : c = sep
      · subst hc
        simp only [if_true, Option.some.injEq, Prod.mk.injEq]
        constructor
        · rintro ⟨rfl, rfl⟩
          simp
        · rintro ⟨happ, hnot⟩
          cases before with
          | nil => simpa using happ
          | cons b bs =>
              simp only [List.cons_append, List.cons.injEq] at happ
              exact absurd (by simp [happ.1]) hnot
      · rw [if_neg hc]
        constructor
        · intro h
          obtain ⟨⟨b, a⟩, hsplit, hp⟩ := Option.map_eq_some_iff.mp h
          simp only [Prod.mk.injEq] at hp
          obtain ⟨rfl, rfl⟩ := hp
          obtain ⟨rfl, hnot⟩ := ih.mp hsplit
          exact ⟨rfl, by simp [Ne.symm hc, hnot]⟩
        · rintro ⟨happ, hnot⟩
          cases before with
          | nil =>
              simp only [List.nil_append, List.cons.injEq] at happ
              exact absurd happ.1 hc
          | cons b bs =>
              simp only [List.cons_append, List.cons.injEq] at happ
              obtain ⟨rfl, happ⟩ := happ
              have hsplit := ih.mpr ⟨happ, fun hmem => hnot (by simp [hmem])⟩
              simp [hsplit]

end NixCache.Lib.Str
