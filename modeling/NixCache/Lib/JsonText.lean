import NixCache.Lib.Json
import NixCache.Lib.Str
import Mathlib.Data.Nat.Digits.Defs
import Mathlib.Data.Nat.Size
import Mathlib.Tactic.IntervalCases
/-!
# JSON text

The compact text of a document and a reader of such texts.  The reader returns every document
without floating-point numbers from its text.
-/

namespace NixCache.Lib.JsonText

/-! ## Writing -/

def hexDigit (n : Nat) : Char := if n < 10 then Char.ofNat (48 + n) else Char.ofNat (87 + n)

/-- The characters of a string literal that stand for `c`. -/
def escape (c : Char) : List Char :=
  if c = '"' then ['\\', '"']
  else if c = '\\' then ['\\', '\\']
  else if c = '\n' then ['\\', 'n']
  else if c = '\r' then ['\\', 'r']
  else if c = '\t' then ['\\', 't']
  else if c = '\x08' then ['\\', 'b']
  else if c = '\x0c' then ['\\', 'f']
  else if c.toNat < 32 then ['\\', 'u', '0', '0', hexDigit (c.toNat / 16), hexDigit (c.toNat % 16)]
  else [c]

def printString (s : String) : List Char := '"' :: s.toList.flatMap escape ++ ['"']

def printInt : Int → List Char
  | .ofNat n => Nat.toDigits 10 n
  | .negSucc n => '-' :: Nat.toDigits 10 (n + 1)

mutual

def print : Json → List Char
  | .null => ['n', 'u', 'l', 'l']
  | .bool true => ['t', 'r', 'u', 'e']
  | .bool false => ['f', 'a', 'l', 's', 'e']
  | .int value => printInt value
  | .float text => text.toList
  | .str value => printString value
  | .arr [] => ['[', ']']
  | .arr (item :: items) => '[' :: print item ++ printItems items
  | .obj [] => ['{', '}']
  | .obj ((name, value) :: fields) =>
      '{' :: printString name ++ ':' :: print value ++ printFields fields

/-- The items after the first. -/
def printItems : List Json → List Char
  | [] => [']']
  | item :: items => ',' :: print item ++ printItems items

/-- The fields after the first. -/
def printFields : List (String × Json) → List Char
  | [] => ['}']
  | (name, value) :: fields =>
      ',' :: printString name ++ ':' :: print value ++ printFields fields

end

/-! ## Reading -/

def hexValue (c : Char) : Nat := if c.toNat < 58 then c.toNat - 48 else c.toNat - 87

def unescape (c : Char) : Option Char :=
  if c = '"' then some '"'
  else if c = '\\' then some '\\'
  else if c = '/' then some '/'
  else if c = 'n' then some '\n'
  else if c = 'r' then some '\r'
  else if c = 't' then some '\t'
  else if c = 'b' then some '\x08'
  else if c = 'f' then some '\x0c'
  else none

/-- The characters of a string literal after its first quote, and what follows it. -/
def readString : List Char → Option (List Char × List Char)
  | [] => none
  | '"' :: rest => some ([], rest)
  | '\\' :: 'u' :: a :: b :: c :: d :: rest => do
      let (cs, rest) ← readString rest
      some (Char.ofNat (hexValue a * 4096 + hexValue b * 256 + hexValue c * 16 + hexValue d) :: cs,
        rest)
  | '\\' :: e :: rest => do
      let c ← unescape e
      let (cs, rest) ← readString rest
      some (c :: cs, rest)
  | c :: rest =>
      if c.toNat < 32 then none
      else do
        let (cs, rest) ← readString rest
        some (c :: cs, rest)

def readNat (cs : List Char) : Option (Nat × List Char) :=
  let digits := cs.takeWhile Char.isDigit
  if digits = [] then none else some (Nat.ofDigitChars 10 digits 0, cs.dropWhile Char.isDigit)

def readInt : List Char → Option (Int × List Char)
  | '-' :: cs => (readNat cs).map fun (n, rest) => (-(n : Int), rest)
  | cs => (readNat cs).map fun (n, rest) => ((n : Int), rest)

mutual

def readValue : Nat → List Char → Option (Json × List Char)
  | 0, _ => none
  | fuel + 1, cs =>
      match cs with
      | 'n' :: 'u' :: 'l' :: 'l' :: rest => some (.null, rest)
      | 't' :: 'r' :: 'u' :: 'e' :: rest => some (.bool true, rest)
      | 'f' :: 'a' :: 'l' :: 's' :: 'e' :: rest => some (.bool false, rest)
      | '"' :: rest => (readString rest).map fun (cs, rest) => (.str (String.ofList cs), rest)
      | '[' :: ']' :: rest => some (.arr [], rest)
      | '[' :: rest => do
          let (item, rest) ← readValue fuel rest
          let (items, rest) ← readItems fuel rest
          some (.arr (item :: items), rest)
      | '{' :: '}' :: rest => some (.obj [], rest)
      | '{' :: rest => do
          let (field, rest) ← readField fuel rest
          let (fields, rest) ← readFields fuel rest
          some (.obj (field :: fields), rest)
      | cs => (readInt cs).map fun (value, rest) => (.int value, rest)

def readItems : Nat → List Char → Option (List Json × List Char)
  | fuel + 1, ',' :: rest => do
      let (item, rest) ← readValue fuel rest
      let (items, rest) ← readItems fuel rest
      some (item :: items, rest)
  | _ + 1, ']' :: rest => some ([], rest)
  | _, _ => none

def readField : Nat → List Char → Option ((String × Json) × List Char)
  | fuel + 1, '"' :: rest => do
      let (name, rest) ← readString rest
      match rest with
      | ':' :: rest => do
          let (value, rest) ← readValue fuel rest
          some ((String.ofList name, value), rest)
      | _ => none
  | _, _ => none

def readFields : Nat → List Char → Option (List (String × Json) × List Char)
  | fuel + 1, ',' :: rest => do
      let (field, rest) ← readField fuel rest
      let (fields, rest) ← readFields fuel rest
      some (field :: fields, rest)
  | _ + 1, '}' :: rest => some ([], rest)
  | _, _ => none

end

/-! ## Texts are read back -/

mutual

/-- There is no floating-point number in the document. -/
def isPlain : Json → Bool
  | .float _ => false
  | .arr items => arePlain items
  | .obj fields => arePlainFields fields
  | _ => true

def arePlain : List Json → Bool
  | [] => true
  | item :: items => isPlain item && arePlain items

def arePlainFields : List (String × Json) → Bool
  | [] => true
  | (_, value) :: fields => isPlain value && arePlainFields fields

end

theorem hexValue_hexDigit {n : Nat} (h : n < 16) : hexValue (hexDigit n) = n := by
  interval_cases n <;> rfl

/-- One escaped character is read as that character. -/
theorem readString_escape (c : Char) (rest : List Char) :
    readString (escape c ++ rest) = (readString rest).map fun read => (c :: read.1, read.2) := by
  unfold escape
  split_ifs with hquote hbackslash hn hr ht hb hf hcontrol
  · subst hquote
    cases hread : readString rest <;> simp [readString, unescape, hread]
  · subst hbackslash
    cases hread : readString rest <;> simp [readString, unescape, hread]
  · subst hn
    cases hread : readString rest <;> simp [readString, unescape, hread]
  · subst hr
    cases hread : readString rest <;> simp [readString, unescape, hread]
  · subst ht
    cases hread : readString rest <;> simp [readString, unescape, hread]
  · subst hb
    cases hread : readString rest <;> simp [readString, unescape, hread]
  · subst hf
    cases hread : readString rest <;> simp [readString, unescape, hread]
  · have hvalue : hexValue '0' * 4096 + hexValue '0' * 256 +
        hexValue (hexDigit (c.toNat / 16)) * 16 + hexValue (hexDigit (c.toNat % 16)) = c.toNat := by
      rw [hexValue_hexDigit (by omega), hexValue_hexDigit (by omega),
        show hexValue '0' = 0 from rfl]
      omega
    cases hread : readString rest <;> simp [readString, hread, hvalue]
  · cases hread : readString rest <;>
      simp [readString, hbackslash, hcontrol, hread]

theorem readString_flatMap (cs rest : List Char) :
    readString (cs.flatMap escape ++ '"' :: rest) = some (cs, rest) := by
  induction cs with
  | nil => simp [readString]
  | cons c cs ih => rw [List.flatMap_cons, List.append_assoc, readString_escape, ih]; rfl

/-- What follows does not continue a number. -/
def Ends (rest : List Char) : Prop := ∀ c ∈ rest.head?, c.isDigit = false

theorem readNat_toDigits (n : Nat) {rest : List Char} (hrest : Ends rest) :
    readNat (Nat.toDigits 10 n ++ rest) = some (n, rest) := by
  have hdigits : ∀ c ∈ Nat.toDigits 10 n, c.isDigit = true := fun c hc =>
    Nat.isDigit_of_mem_toDigits (by omega) (by omega) hc
  have hstop : rest.takeWhile Char.isDigit = [] ∧ rest.dropWhile Char.isDigit = rest := by
    cases rest with
    | nil => simp
    | cons c rest => simp [hrest c rfl]
  unfold readNat
  rw [List.takeWhile_append_of_pos hdigits, List.dropWhile_append_of_pos hdigits, hstop.1, hstop.2]
  simp [Nat.toDigits_ne_nil]

theorem readInt_printInt (value : Int) {rest : List Char} (hrest : Ends rest) :
    readInt (printInt value ++ rest) = some (value, rest) := by
  cases value with
  | ofNat n =>
      have hhead : ∀ cs, Nat.toDigits 10 n ++ rest ≠ '-' :: cs := by
        intro cs h
        cases hdigits : Nat.toDigits 10 n with
        | nil => exact Nat.toDigits_ne_nil hdigits
        | cons c digits =>
            rw [hdigits, List.cons_append, List.cons.injEq] at h
            have hdigit := Nat.isDigit_of_mem_toDigits (b := 10) (n := n) (c := c) (by omega)
              (by omega) (by simp [hdigits])
            rw [h.1] at hdigit
            exact absurd hdigit (by decide)
      rw [printInt, readInt, readNat_toDigits n hrest]
      · rfl
      · exact hhead
  | negSucc n =>
      rw [printInt, List.cons_append, readInt, readNat_toDigits _ hrest]
      rfl

theorem readValue_number {fuel : Nat} {c : Char} {cs : List Char}
    (h : c.isDigit = true ∨ c = '-') :
    readValue (fuel + 1) (c :: cs) = (readInt (c :: cs)).map fun read => (.int read.1, read.2) := by
  have hne : ∀ d : Char, d.isDigit = false → d ≠ '-' → c ≠ d := by
    rintro d hd hminus rfl
    rcases h with h | h
    · rw [hd] at h
      cases h
    · exact hminus h
  unfold readValue
  split
  all_goals first
    | rfl
    | (rename_i heq
       exact absurd (List.cons.inj heq).1 (hne _ (by decide) (by decide)))

theorem exists_cons_printInt (value : Int) :
    ∃ c cs, printInt value = c :: cs ∧ (c.isDigit = true ∨ c = '-') := by
  cases value with
  | ofNat n =>
      cases hdigits : Nat.toDigits 10 n with
      | nil => exact absurd hdigits Nat.toDigits_ne_nil
      | cons c cs =>
          refine ⟨c, cs, hdigits, Or.inl ?_⟩
          exact Nat.isDigit_of_mem_toDigits (b := 10) (n := n) (by omega) (by omega)
            (by simp [hdigits])
  | negSucc n => exact ⟨'-', _, rfl, Or.inr rfl⟩

theorem ends_printItems (items : List Json) (rest : List Char) : Ends (printItems items ++ rest) := by
  cases items with
  | nil => simp [printItems, Ends]
  | cons item items => simp [printItems, Ends]

theorem ends_printFields (fields : List (String × Json)) (rest : List Char) :
    Ends (printFields fields ++ rest) := by
  cases fields with
  | nil => simp [printFields, Ends]
  | cons field fields => simp [printFields, Ends]

/-- No value begins with a closing bracket. -/
theorem print_append_ne {json : Json} (hplain : isPlain json = true) (rest cs : List Char) :
    print json ++ rest ≠ ']' :: cs := by
  intro h
  match json with
  | .null => simp [print] at h
  | .bool true => simp [print] at h
  | .bool false => simp [print] at h
  | .float text => simp [isPlain] at hplain
  | .str value => simp [print, printString] at h
  | .arr [] => simp [print] at h
  | .arr (item :: items) => simp [print] at h
  | .obj [] => simp [print] at h
  | .obj ((name, value) :: fields) => simp [print] at h
  | .int value =>
      obtain ⟨c, digits, hdigits, hc⟩ := exists_cons_printInt value
      rw [print, hdigits, List.cons_append, List.cons.injEq] at h
      rw [h.1] at hc
      exact absurd hc (by decide)

theorem readField_print (name : String) {value : Json} {fuel : Nat} {rest : List Char}
    (h : readValue fuel (print value ++ rest) = some (value, rest)) :
    readField (fuel + 1) (printString name ++ ':' :: (print value ++ rest)) =
      some ((name, value), rest) := by
  rw [printString, List.cons_append, List.cons_append, List.append_assoc, List.singleton_append,
    readField, readString_flatMap]
  simp [h]

mutual

/-- The fuel that a text needs is its length. -/
theorem readValue_print (json : Json) (hplain : isPlain json = true) (fuel : Nat)
    (hfuel : (print json).length ≤ fuel) (rest : List Char) (hrest : Ends rest) :
    readValue fuel (print json ++ rest) = some (json, rest) := by
  match json, fuel with
  | .null, fuel + 1 => simp [print, readValue]
  | .bool true, fuel + 1 => simp [print, readValue]
  | .bool false, fuel + 1 => simp [print, readValue]
  | .int value, fuel =>
      obtain ⟨c, cs, hcs, hc⟩ := exists_cons_printInt value
      have hread := readInt_printInt value hrest
      rw [print, hcs] at hfuel
      obtain ⟨fuel, rfl⟩ : ∃ n, fuel = n + 1 := ⟨fuel - 1, by simp at hfuel; omega⟩
      rw [hcs, List.cons_append] at hread
      rw [print, hcs, List.cons_append, readValue_number hc, hread]
      rfl
  | .str value, fuel + 1 =>
      rw [print, printString, List.cons_append, List.cons_append, List.append_assoc]
      simp [readValue, readString_flatMap]
  | .arr [], fuel + 1 => simp [print, readValue]
  | .arr (item :: items), fuel + 1 =>
      simp only [isPlain, arePlain, Bool.and_eq_true] at hplain
      simp only [print, List.length_cons, List.cons_append, List.length_append] at hfuel
      have hitem := readValue_print item hplain.1 fuel (by omega) _
        (ends_printItems items rest)
      have hitems := readItems_print items hplain.2 fuel (by omega) rest
      rw [print, List.cons_append, List.cons_append, List.append_assoc, readValue]
      · simp [hitem, hitems]
      · exact print_append_ne hplain.1 _
  | .obj [], fuel + 1 => simp [print, readValue]
  | .obj ((name, value) :: fields), fuel + 1 =>
      simp only [isPlain, arePlainFields, Bool.and_eq_true] at hplain
      simp only [print, printString, List.length_cons, List.cons_append, List.length_append] at hfuel
      have hvalue := readValue_print value hplain.1 (fuel - 1) (by omega) _
        (ends_printFields fields rest)
      have hfields := readFields_print fields hplain.2 fuel (by omega) rest
      have hfield := readField_print name hvalue
      rw [show fuel - 1 + 1 = fuel by omega] at hfield
      rw [print, List.append_assoc, List.cons_append, List.cons_append, List.append_assoc,
        List.cons_append, readValue]
      · simp [hfield, hfields]
      · simp [printString]

theorem readItems_print (items : List Json) (hplain : arePlain items = true) (fuel : Nat)
    (hfuel : (printItems items).length ≤ fuel) (rest : List Char) :
    readItems fuel (printItems items ++ rest) = some (items, rest) := by
  match items, fuel with
  | [], fuel + 1 => simp [printItems, readItems]
  | item :: items, fuel + 1 =>
      simp only [arePlain, Bool.and_eq_true] at hplain
      simp only [printItems, List.length_cons, List.cons_append, List.length_append] at hfuel
      have hitem := readValue_print item hplain.1 fuel (by omega) _
        (ends_printItems items rest)
      have hitems := readItems_print items hplain.2 fuel (by omega) rest
      rw [printItems, List.cons_append, List.cons_append, List.append_assoc, readItems]
      simp [hitem, hitems]

theorem readFields_print (fields : List (String × Json)) (hplain : arePlainFields fields = true)
    (fuel : Nat) (hfuel : (printFields fields).length ≤ fuel) (rest : List Char) :
    readFields fuel (printFields fields ++ rest) = some (fields, rest) := by
  match fields, fuel with
  | [], fuel + 1 => simp [printFields, readFields]
  | (name, value) :: fields, fuel + 1 =>
      simp only [arePlainFields, Bool.and_eq_true] at hplain
      simp only [printFields, printString, List.length_cons, List.cons_append,
        List.length_append] at hfuel
      have hvalue := readValue_print value hplain.1 (fuel - 1) (by omega) _
        (ends_printFields fields rest)
      have hfields := readFields_print fields hplain.2 fuel (by omega) rest
      have hfield := readField_print name hvalue
      rw [show fuel - 1 + 1 = fuel by omega] at hfield
      rw [printFields, List.append_assoc, List.cons_append, List.cons_append, List.append_assoc,
        List.cons_append, readFields]
      simp [hfield, hfields]

end

/-- The text of a document. -/
def render (json : Json) : String := String.ofList (print json)

/-- The document that a text holds. -/
def parse (bytes : List UInt8) : Except JsonError Json :=
  match Str.fromUtf8 bytes with
  | none => .error .malformed
  | some text =>
      match readValue text.toList.length text.toList with
      | some (json, []) => .ok json
      | _ => .error .malformed

theorem parse_render {json : Json} (h : isPlain json = true) :
    parse (Str.asBytes (render json)) = .ok json := by
  have htext : Str.fromUtf8 (Str.asBytes (render json)) = some (render json) :=
    Str.fromUtf8_eq_some.mpr rfl
  have hread := readValue_print json h _ (Nat.le_refl _) [] (by simp [Ends])
  rw [List.append_nil] at hread
  rw [parse, htext]
  simp only [render, String.toList_ofList, hread]

/-! ## The length of a text -/

mutual

/-- A bound on the number of characters of a text. -/
def weight : Json → Nat
  | .null => 4
  | .bool _ => 5
  | .int value => value.natAbs.size + 2
  | .float text => text.length
  | .str value => 6 * value.length + 2
  | .arr items => weightItems items + 2
  | .obj fields => weightFields fields + 2

def weightItems : List Json → Nat
  | [] => 0
  | item :: items => weight item + 1 + weightItems items

def weightFields : List (String × Json) → Nat
  | [] => 0
  | (name, value) :: fields => 6 * name.length + weight value + 4 + weightFields fields

end

theorem length_escape_le (c : Char) : (escape c).length ≤ 6 := by
  unfold escape
  repeat' split
  all_goals simp

theorem length_printString_le (s : String) : (printString s).length ≤ 6 * s.length + 2 := by
  have hescaped : ∀ cs : List Char, (cs.flatMap escape).length ≤ 6 * cs.length := by
    intro cs
    induction cs with
    | nil => simp
    | cons c cs ih =>
        have hc := length_escape_le c
        rw [List.flatMap_cons, List.length_append, List.length_cons]
        omega
  have hs := hescaped s.toList
  rw [String.length_toList] at hs
  simp only [printString, List.length_append, List.length_cons, List.length_nil]
  omega

theorem length_toDigits_le (n : Nat) : (Nat.toDigits 10 n).length ≤ n.size + 1 := by
  apply Nat.toDigits_length 10 n (n.size + 1) (by omega)
  calc n < 2 ^ n.size := Nat.lt_size_self n
    _ ≤ 10 ^ n.size := Nat.pow_le_pow_left (by omega) _
    _ ≤ 10 ^ (n.size + 1) := Nat.pow_le_pow_right (by omega) (by omega)

theorem length_printInt_le (value : Int) : (printInt value).length ≤ value.natAbs.size + 2 := by
  cases value with
  | ofNat n =>
      have := length_toDigits_le n
      simp only [printInt, Int.ofNat_eq_natCast, Int.natAbs_natCast]
      omega
  | negSucc n =>
      have := length_toDigits_le (n + 1)
      simp only [printInt, List.length_cons, Int.natAbs_negSucc, Nat.succ_eq_add_one]
      omega

mutual

theorem length_print_le (json : Json) : (print json).length ≤ weight json := by
  match json with
  | .null => simp [print, weight]
  | .bool true => simp [print, weight]
  | .bool false => simp [print, weight]
  | .int value =>
      rw [print, weight]
      exact length_printInt_le value
  | .float text => rw [print, weight, String.length_toList]
  | .str value =>
      rw [print, weight]
      exact length_printString_le value
  | .arr [] => simp [print, weight]
  | .arr (item :: items) =>
      have hitem := length_print_le item
      have hitems := length_printItems_le items
      simp only [print, weight, weightItems, List.length_append, List.length_cons]
      omega
  | .obj [] => simp [print, weight]
  | .obj ((name, value) :: fields) =>
      have hname := length_printString_le name
      have hvalue := length_print_le value
      have hfields := length_printFields_le fields
      simp only [print, weight, weightFields, List.length_append, List.length_cons]
      omega

theorem length_printItems_le (items : List Json) :
    (printItems items).length ≤ weightItems items + 1 := by
  match items with
  | [] => simp [printItems]
  | item :: items =>
      have hitem := length_print_le item
      have hitems := length_printItems_le items
      simp only [printItems, weightItems, List.length_append, List.length_cons]
      omega

theorem length_printFields_le (fields : List (String × Json)) :
    (printFields fields).length ≤ weightFields fields + 1 := by
  match fields with
  | [] => simp [printFields]
  | (name, value) :: fields =>
      have hname := length_printString_le name
      have hvalue := length_print_le value
      have hfields := length_printFields_le fields
      simp only [printFields, weightFields, List.length_append, List.length_cons]
      omega

end

theorem length_asBytes_render_le (json : Json) :
    (Str.asBytes (render json)).length ≤ 4 * weight json := by
  have hprint := length_print_le json
  have hbytes := Str.len_le (render json)
  rw [Str.length_asBytes]
  rw [render, String.length_ofList] at hbytes
  rw [render]
  omega

/-- The names and the values of an object. -/
theorem weightFields_eq (fields : List (String × Json)) :
    weightFields fields = (fields.map fun field => 6 * field.1.length + 4).sum +
      (fields.map fun field => weight field.2).sum := by
  induction fields with
  | nil => rfl
  | cons field fields ih =>
      rw [weightFields, ih, List.map_cons, List.map_cons, List.sum_cons, List.sum_cons]
      omega

theorem weightItems_map_le {α : Type} {encode : α → Json} {values : List α} {bound : Nat}
    (h : ∀ value ∈ values, weight (encode value) ≤ bound) :
    weightItems (values.map encode) ≤ values.length * (bound + 1) := by
  induction values with
  | nil => simp [weightItems]
  | cons value values ih =>
      have hvalue := h value (by simp)
      have hvalues := ih fun v hv => h v (by simp [hv])
      rw [List.map_cons, weightItems, List.length_cons, Nat.add_mul]
      omega

end NixCache.Lib.JsonText
