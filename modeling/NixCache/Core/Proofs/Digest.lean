import NixCache.Core.Sharding
import Mathlib.Tactic.IntervalCases
/-!
# Digest texts

`sha256:` and 64 lower-case digits: the texts that `format_digest` prints, that `is_sha256` accepts
and that `canonical_digest_bytes` decodes are the same, and each stands for one digest.
-/

namespace NixCache.Core

open NixCache.Lib NixCache.Lib.Result

def hexAlphabet : List Char := "0123456789abcdef".toList

/-- A property of the sixteen digits, checked on each of them. -/
theorem forall_hexAlphabet {p : Char → Bool} (h : hexAlphabet.all p = true) {c : Char}
    (hc : c ∈ hexAlphabet) : p c = true :=
  List.all_eq_true.mp h c hc

theorem mem_hexAlphabet {c : Char} : c ∈ hexAlphabet ↔ Str.isLowerHexDigit c = true := by
  constructor
  · exact forall_hexAlphabet (by decide)
  · intro h
    simp only [Str.isLowerHexDigit, Str.isAsciiDigit, decide_eq_true_eq, Bool.decide_and,
      Bool.and_eq_true] at h
    have hrange : (48 ≤ c.toNat ∧ c.toNat ≤ 57) ∨ (97 ≤ c.toNat ∧ c.toNat ≤ 102) := h
    rw [← Char.ofNat_toNat c]
    rcases hrange with ⟨hlow, hhigh⟩ | ⟨hlow, hhigh⟩ <;>
      interval_cases c.toNat <;> decide

theorem isAscii_of_mem_hexAlphabet {c : Char} (h : c ∈ hexAlphabet) : Str.IsAscii c := by
  have hlt := forall_hexAlphabet (p := fun c => decide (c.toNat < 128)) (by decide) h
  exact (of_decide_eq_true hlt : c.toNat < 128)

/-- A property of bytes, checked on each of them. -/
theorem forall_uint8 {p : UInt8 → Bool} (h : ((List.range 256).all fun n => p (UInt8.ofNat n)) = true)
    (b : UInt8) : p b = true := by
  have hb := List.all_eq_true.mp h b.toNat (List.mem_range.mpr b.toNat_lt)
  rwa [UInt8.ofNat_toNat] at hb

theorem hexDigits_mem (b : UInt8) : ∀ c ∈ hexDigits b, c ∈ hexAlphabet := by
  have hall := forall_uint8 (p := fun b => (hexDigits b).all fun c => hexAlphabet.contains c)
    (by decide +kernel) b
  intro c hc
  exact List.contains_iff_mem.mp (List.all_eq_true.mp hall c hc)

/-- The byte of an ASCII character. -/
def charByte (c : Char) : UInt8 := UInt8.ofNat c.toNat

theorem decodeHex_hexDigits_append (b : UInt8) (rest : List UInt8) :
    decodeHex ((hexDigits b).map charByte ++ rest) = b :: decodeHex rest := by
  have hbyte : ((hexValue (charByte (hexChar (b >>> 4))) <<< 4) |||
      hexValue (charByte (hexChar (b &&& 15))) == b) = true :=
    forall_uint8 (p := fun b => (hexValue (charByte (hexChar (b >>> 4))) <<< 4) |||
      hexValue (charByte (hexChar (b &&& 15))) == b) (by decide +kernel) b
  simp only [hexDigits, List.map_cons, List.map_nil, List.cons_append, List.nil_append, decodeHex,
    beq_iff_eq.mp hbyte]

theorem hexDigits_of_chars {high low : Char} (hhigh : high ∈ hexAlphabet)
    (hlow : low ∈ hexAlphabet) :
    hexDigits ((hexValue (charByte high) <<< 4) ||| hexValue (charByte low)) = [high, low] := by
  have hall := forall_hexAlphabet (p := fun high => hexAlphabet.all fun low =>
    hexDigits ((hexValue (charByte high) <<< 4) ||| hexValue (charByte low)) == [high, low])
    (by decide +kernel) hhigh
  exact beq_iff_eq.mp (List.all_eq_true.mp hall low hlow)

theorem decodeHex_flatMap (bytes : List UInt8) :
    decodeHex ((bytes.flatMap hexDigits).map charByte) = bytes := by
  induction bytes with
  | nil => rfl
  | cons b bytes ih =>
      rw [List.flatMap_cons, List.map_append, decodeHex_hexDigits_append, ih]

/-- An even number of digits spells a list of bytes. -/
theorem exists_bytes_of_digits (n : Nat) {cs : List Char} (hlength : cs.length = 2 * n)
    (hhex : ∀ c ∈ cs, c ∈ hexAlphabet) :
    ∃ bytes : List UInt8, bytes.length = n ∧ bytes.flatMap hexDigits = cs := by
  induction n generalizing cs with
  | zero => exact ⟨[], rfl, by simpa [eq_comm] using hlength⟩
  | succ n ih =>
      match cs with
      | [] => simp at hlength
      | [_] =>
          simp only [List.length_singleton] at hlength
          omega
      | high :: low :: rest =>
          have hrest : rest.length = 2 * n := by
            simp only [List.length_cons] at hlength
            omega
          obtain ⟨bytes, hcount, hbytes⟩ := ih hrest (fun c hc => hhex c (by simp [hc]))
          refine ⟨((hexValue (charByte high) <<< 4) ||| hexValue (charByte low)) :: bytes,
            by simp [hcount], ?_⟩
          rw [List.flatMap_cons, hexDigits_of_chars (hhex high (by simp)) (hhex low (by simp)),
            hbytes]
          rfl

theorem length_flatMap_hexDigits (bytes : List UInt8) :
    (bytes.flatMap hexDigits).length = 2 * bytes.length := by
  induction bytes with
  | nil => rfl
  | cons b bytes ih =>
      rw [List.flatMap_cons, List.length_append, ih, List.length_cons]
      simp only [hexDigits, List.length_cons, List.length_nil]
      omega

theorem mem_flatMap_hexDigits {bytes : List UInt8} {c : Char} (h : c ∈ bytes.flatMap hexDigits) :
    c ∈ hexAlphabet := by
  obtain ⟨b, -, hc⟩ := List.mem_flatMap.mp h
  exact hexDigits_mem b c hc

/-- The texts `sha256:` with 64 lower-case digits are the printed digests. -/
theorem exists_formatDigest {cs : List Char} (hlength : cs.length = 64)
    (hhex : ∀ c ∈ cs, c ∈ hexAlphabet) :
    ∃ digest, "sha256:" ++ String.ofList cs = formatDigest digest := by
  obtain ⟨bytes, hcount, rfl⟩ := exists_bytes_of_digits 32 hlength hhex
  exact ⟨⟨bytes, hcount⟩, rfl⟩

/-! ## The digits of a printed digest -/

theorem toList_formatDigest (d : DigestBytes) :
    (formatDigest d).toList = "sha256:".toList ++ d.bytes.flatMap hexDigits := by
  simp [formatDigest]

theorem asBytes_formatDigest (d : DigestBytes) :
    Str.asBytes (formatDigest d) =
      Str.asBytes "sha256:" ++ (d.bytes.flatMap hexDigits).map charByte := by
  rw [formatDigest, Str.asBytes_append, Str.asBytes_ofList_ascii
    fun c hc => isAscii_of_mem_hexAlphabet (mem_flatMap_hexDigits hc)]
  rfl

theorem drop_asBytes_formatDigest (d : DigestBytes) :
    (Str.asBytes (formatDigest d)).drop 7 = (d.bytes.flatMap hexDigits).map charByte := by
  rw [asBytes_formatDigest, show Str.asBytes "sha256:" = [115, 104, 97, 50, 53, 54, 58] by decide]
  rfl

theorem overwrite_of_size (d : DigestBytes) : DigestBytes.overwrite d.bytes = d := by
  apply DigestBytes.ext
  rw [DigestBytes.overwrite]
  exact (List.take_append_of_le_length d.size.ge).trans (List.take_of_length_le d.size.le)

theorem decode_formatDigest (d : DigestBytes) :
    DigestBytes.overwrite (decodeHex ((Str.asBytes (formatDigest d)).drop 7)) = d := by
  rw [drop_asBytes_formatDigest, decodeHex_flatMap, overwrite_of_size]

theorem formatDigest_injective : Function.Injective formatDigest := by
  intro a b h
  rw [← decode_formatDigest a, h, decode_formatDigest]

theorem len_formatDigest (d : DigestBytes) : Str.len (formatDigest d) = 71 := by
  rw [← Str.length_asBytes, asBytes_formatDigest, List.length_append, List.length_map,
    length_flatMap_hexDigits, d.size]
  decide

theorem formatDigest_ne_empty (d : DigestBytes) : Str.isEmpty (formatDigest d) = false := by
  rw [Str.isEmpty, toList_formatDigest]
  rfl

/-! ## Parsing a digest -/

theorem lowerAscii_of_mem {c : Char} (h : c ∈ hexAlphabet) : Str.lowerAscii c = c := by
  have hlower := forall_hexAlphabet (p := fun c => Str.lowerAscii c == c) (by decide) h
  exact beq_iff_eq.mp hlower

theorem mem_of_isAsciiHexdigit {c : Char} (h : Str.isAsciiHexdigit c = true) :
    Str.lowerAscii c ∈ hexAlphabet ∧ Str.IsAscii c := by
  simp only [Str.isAsciiHexdigit, decide_eq_true_eq] at h
  rcases h with h | h
  · have hmem := mem_hexAlphabet.mpr h
    exact ⟨by rw [lowerAscii_of_mem hmem]; exact hmem, isAscii_of_mem_hexAlphabet hmem⟩
  · have hrange : 65 ≤ c.toNat ∧ c.toNat ≤ 70 := h
    obtain ⟨hlow, hhigh⟩ := hrange
    refine ⟨?_, by rw [Str.IsAscii]; omega⟩
    rw [← Char.ofNat_toNat c]
    interval_cases c.toNat <;> decide

theorem isAsciiHexdigit_of_mem {c : Char} (h : c ∈ hexAlphabet) :
    Str.isAsciiHexdigit c = true := by
  simp [Str.isAsciiHexdigit, mem_hexAlphabet.mp h]

theorem checkHex_eq_ok {cs : List Char} {u : Unit} :
    NarDigest.checkHex cs = .ok u ↔ ∀ c ∈ cs, Str.isAsciiHexdigit c = true := by
  simp only [NarDigest.checkHex, checkAll_eq_ok, ensure_eq_ok]
  constructor
  · intro h c hc
    obtain ⟨i, hi, rfl⟩ := List.getElem_of_mem hc
    exact h (cs[i], i) (by simp [List.mem_zipIdx_iff_getElem?, hi])
  · rintro h ⟨c, i⟩ hmem
    exact h c (List.fst_mem_of_mem_zipIdx hmem)

theorem trim_formatDigest (d : DigestBytes) : Str.trim (formatDigest d) = formatDigest d := by
  have hne : d.bytes.flatMap hexDigits ≠ [] := by
    intro h
    have := congrArg List.length h
    rw [length_flatMap_hexDigits, d.size] at this
    simp at this
  have hlast : ∀ c ∈ hexAlphabet, Str.isWhitespace c = false := by
    intro c hc
    have hvisible := forall_hexAlphabet (p := fun c => !Str.isWhitespace c) (by decide) hc
    simpa using hvisible
  have hstart : (formatDigest d).toList = 's' :: ("ha256:".toList ++ d.bytes.flatMap hexDigits) := by
    rw [toList_formatDigest]
    rfl
  have hend : (formatDigest d).toList = ("sha256:".toList ++ (d.bytes.flatMap hexDigits).dropLast) ++
      [(d.bytes.flatMap hexDigits).getLast hne] := by
    rw [toList_formatDigest, List.append_assoc, List.dropLast_append_getLast]
  exact Str.trim_eq_self hstart hend (by decide)
    (hlast _ (mem_flatMap_hexDigits (List.getLast_mem hne)))

theorem toAsciiLowercase_of_digits {cs : List Char} (hhex : ∀ c ∈ cs, c ∈ hexAlphabet) :
    Str.toAsciiLowercase (String.ofList cs) = String.ofList cs := by
  have hmap : cs.map Str.lowerAscii = cs.map id :=
    List.map_congr_left fun c hc => lowerAscii_of_mem (hhex c hc)
  rw [Str.toAsciiLowercase, String.toList_ofList, hmap, List.map_id]

theorem splitOnce_of_digits (cs : List Char) :
    Str.splitOnce ("sha256:" ++ String.ofList cs) ':' = some ("sha256", String.ofList cs) := by
  have hchars : Str.splitOnceChars ':' ("sha256:" ++ String.ofList cs).toList =
      some ("sha256".toList, cs) := by
    rw [Str.splitOnceChars_eq_some]
    exact ⟨by simp, by decide⟩
  rw [Str.splitOnce, hchars]
  rfl

theorem parse_of_digits {cs : List Char} (hlength : cs.length = 64)
    (hhex : ∀ c ∈ cs, c ∈ hexAlphabet)
    (htrim : Str.trim ("sha256:" ++ String.ofList cs) = "sha256:" ++ String.ofList cs) :
    NarDigest.parse ("sha256:" ++ String.ofList cs) = .ok ⟨"sha256:" ++ String.ofList cs⟩ := by
  have hlen : Str.len (String.ofList cs) = 64 := by
    rw [Str.len_ofList_ascii fun c hc => isAscii_of_mem_hexAlphabet (hhex c hc), hlength]
  have hcheck : NarDigest.checkHex (String.ofList cs).toList = .ok () :=
    checkHex_eq_ok.mpr fun c hc => isAsciiHexdigit_of_mem (hhex c (by simpa using hc))
  simp only [NarDigest.parse, htrim, splitOnce_of_digits, bind_eq_ok, okOr_eq_ok, ensure_eq_ok,
    pure_eq_ok]
  exact ⟨_, rfl, (), rfl, (), hlen, (), hcheck, by rw [toAsciiLowercase_of_digits hhex]⟩

theorem parse_formatDigest (d : DigestBytes) :
    NarDigest.parse (formatDigest d) = .ok ⟨formatDigest d⟩ := by
  refine parse_of_digits ?_ (fun c hc => mem_flatMap_hexDigits hc) (trim_formatDigest d)
  rw [length_flatMap_hexDigits, d.size]

theorem validateNixHash_formatDigest (d : DigestBytes) :
    validateNixHash (formatDigest d) = .ok () := by
  have hsplit : splitNixHash (formatDigest d) =
      some ("sha256", ':', String.ofList (d.bytes.flatMap hexDigits)) := by
    rw [splitNixHash, formatDigest, splitOnce_of_digits]
  have hbytes : Str.asBytes (String.ofList (d.bytes.flatMap hexDigits)) =
      (d.bytes.flatMap hexDigits).map fun c => UInt8.ofNat c.toNat :=
    Str.asBytes_ofList_ascii fun c hc => isAscii_of_mem_hexAlphabet (mem_flatMap_hexDigits hc)
  have hlen : (Str.asBytes (String.ofList (d.bytes.flatMap hexDigits))).length = 64 := by
    rw [hbytes, List.length_map, length_flatMap_hexDigits, d.size]
  have hdigits : (Str.asBytes (String.ofList (d.bytes.flatMap hexDigits))).all
      (fun b => Str.isLowerHexDigit (Char.ofNat b.toNat)) = true := by
    rw [hbytes, List.all_eq_true]
    intro b hb
    obtain ⟨c, hc, rfl⟩ := List.mem_map.mp hb
    exact forall_hexAlphabet
      (p := fun c => Str.isLowerHexDigit (Char.ofNat (UInt8.ofNat c.toNat).toNat)) (by decide)
      (mem_flatMap_hexDigits hc)
  simp only [validateNixHash, hsplit, bind_eq_ok, okOr_eq_ok, ensure_eq_ok]
  refine ⟨_, rfl, (), rfl, ?_⟩
  have hbase32 : ¬ (Str.asBytes (String.ofList (d.bytes.flatMap hexDigits))).length = 52 := by
    omega
  have hcolon : ':' ≠ '-' := by decide
  rw [if_neg fun hbase64 => hcolon hbase64.1, if_neg hbase32, ensure_eq_ok]
  exact ⟨hlen, hdigits⟩

/-- What the parser returns is always a printed digest. -/
theorem parse_eq_ok {value : String} {parsed : NarDigest} (h : NarDigest.parse value = .ok parsed) :
    ∃ d, parsed.val = formatDigest d := by
  simp only [NarDigest.parse, bind_eq_ok, okOr_eq_ok, ensure_eq_ok, pure_eq_ok] at h
  obtain ⟨⟨algo, hex⟩, -, -, -, -, hlen, _, hhex, rfl⟩ := h
  have hdigit := checkHex_eq_ok.mp hhex
  apply exists_formatDigest
  · have hascii : Str.len (String.ofList hex.toList) = hex.toList.length :=
      Str.len_ofList_ascii fun c hc => (mem_of_isAsciiHexdigit (hdigit c hc)).2
    rw [String.ofList_toList, hlen] at hascii
    rw [List.length_map, ← hascii]
  · intro c hc
    obtain ⟨c', hc', rfl⟩ := List.mem_map.mp hc
    exact (mem_of_isAsciiHexdigit (hdigit c' hc')).1

/-- `canonical_digest_bytes` is the inverse of `format_digest`. -/
theorem canonicalDigestBytes_eq_ok {value field : String} {d : DigestBytes} :
    canonicalDigestBytes value field = .ok d ↔ value = formatDigest d := by
  simp only [canonicalDigestBytes, bind_eq_ok, mapErr_eq_ok, ensure_eq_ok, pure_eq_ok]
  constructor
  · rintro ⟨parsed, hparsed, -, hval, rfl⟩
    obtain ⟨d, hd⟩ := parse_eq_ok hparsed
    rw [← hval, hd, decode_formatDigest]
  · rintro rfl
    exact ⟨_, parse_formatDigest d, (), rfl, decode_formatDigest d⟩

theorem isSha256_iff {value : String} : isSha256 value = true ↔ ∃ d, value = formatDigest d := by
  simp only [isSha256, decide_eq_true_eq]
  constructor
  · rintro ⟨hlen, hstart, hhex⟩
    obtain ⟨rest, hrest⟩ := Str.startsWith_iff.mp hstart
    obtain rfl : value = "sha256:" ++ String.ofList rest := by
      apply String.toList_inj.mp
      rw [hrest]
      simp
    rw [Str.asBytes_append, show Str.asBytes "sha256:" = [115, 104, 97, 50, 53, 54, 58] by decide]
      at hhex
    have hbytes : ∀ b ∈ Str.asBytes (String.ofList rest), isLowerHexByte b = true :=
      List.all_eq_true.mp hhex
    have hsmall : ∀ b ∈ Str.asBytes (String.ofList rest), b.toNat < 128 := by
      intro b hb
      have hbyte := forall_uint8 (p := fun b => !isLowerHexByte b || decide (b.toNat < 128))
        (by decide +kernel) b
      simpa [hbytes b hb] using hbyte
    rw [Str.eq_ofList_of_ascii hsmall]
    apply exists_formatDigest
    · rw [← Str.length_asBytes, Str.asBytes_append, List.length_append] at hlen
      have hseven : (Str.asBytes "sha256:").length = 7 := by decide
      rw [List.length_map]
      omega
    · intro c hc
      obtain ⟨b, hb, rfl⟩ := List.mem_map.mp hc
      exact mem_hexAlphabet.mpr (hbytes b hb)
  · rintro ⟨d, rfl⟩
    refine ⟨len_formatDigest d, Str.startsWith_iff.mpr ⟨_, toList_formatDigest d⟩, ?_⟩
    rw [drop_asBytes_formatDigest, List.all_eq_true]
    intro b hb
    obtain ⟨c, hc, rfl⟩ := List.mem_map.mp hb
    exact forall_hexAlphabet (p := fun c => isLowerHexByte (charByte c)) (by decide)
      (mem_flatMap_hexDigits hc)

theorem validateSha256_eq_ok {value : String} {u : Unit} :
    validateSha256 value = .ok u ↔ ∃ d, value = formatDigest d := by
  rw [validateSha256, ensure_eq_ok, isSha256_iff]

end NixCache.Core
