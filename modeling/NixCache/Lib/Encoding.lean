import Mathlib.Data.List.Basic
import Mathlib.Algebra.Order.Ring.Nat
/-!
# Self-delimiting byte encodings

An encoder writes one value after another into a byte string.  The string determines the values
when each encoder is self-delimiting: what it wrote can be told apart from whatever follows.
-/

namespace NixCache.Lib.Encoding

variable {α β : Type}

/-- From an encoding followed by any bytes, the value and the rest can be read back. -/
def SelfDelimiting (P : α → Prop) (encode : α → List UInt8) : Prop :=
  ∀ a b r s, P a → P b → encode a ++ r = encode b ++ s → a = b ∧ r = s

/-- The low `width` bytes of a number, most significant first. -/
def bigEndian : Nat → Nat → List UInt8
  | 0, _ => []
  | width + 1, n => UInt8.ofNat (n / 256 ^ width) :: bigEndian width (n % 256 ^ width)

/-- The number of bytes, then the bytes. -/
def lengthPrefixed (bytes : List UInt8) : List UInt8 := bigEndian 8 bytes.length ++ bytes

/-- A tag byte, then the value if there is one. -/
def optional (encode : α → List UInt8) : Option α → List UInt8
  | some value => 1 :: encode value
  | none => [0]

/-- The number of values, then the values. -/
def vector (encode : α → List UInt8) (values : List α) : List UInt8 :=
  bigEndian 8 values.length ++ values.flatMap encode

theorem selfDelimiting_bigEndian (width : Nat) :
    SelfDelimiting (· < 256 ^ width) (bigEndian width) := by
  induction width with
  | zero =>
      intro a b r s ha hb h
      simp only [pow_zero, Nat.lt_one_iff] at ha hb
      exact ⟨by rw [ha, hb], h⟩
  | succ width ih =>
      intro a b r s ha hb h
      simp only [bigEndian, List.cons_append, List.cons.injEq] at h
      obtain ⟨hhead, htail⟩ := h
      have hpos : 0 < 256 ^ width := Nat.pow_pos (by decide)
      have hdigit : ∀ n, n < 256 ^ (width + 1) → n / 256 ^ width < 256 := by
        intro n hn
        rw [Nat.div_lt_iff_lt_mul hpos]
        rw [pow_succ, mul_comm] at hn
        exact hn
      have hdiv : a / 256 ^ width = b / 256 ^ width := by
        have := congrArg UInt8.toNat hhead
        simpa [Nat.mod_eq_of_lt (hdigit a ha), Nat.mod_eq_of_lt (hdigit b hb)] using this
      obtain ⟨hmod, hrest⟩ := ih _ _ _ _ (Nat.mod_lt a hpos) (Nat.mod_lt b hpos) htail
      refine ⟨?_, hrest⟩
      rw [← Nat.div_add_mod a (256 ^ width), ← Nat.div_add_mod b (256 ^ width), hdiv, hmod]

/-- An injective encoder into strings of one length is self-delimiting. -/
theorem selfDelimiting_of_length {encode : α → List UInt8} {n : Nat}
    (hlength : ∀ a, (encode a).length = n) (hinj : Function.Injective encode) :
    SelfDelimiting (fun _ => True) encode := by
  intro a b r s _ _ h
  obtain ⟨hencode, hrest⟩ := List.append_inj h (by rw [hlength, hlength])
  exact ⟨hinj hencode, hrest⟩

theorem selfDelimiting_lengthPrefixed :
    SelfDelimiting (fun bytes => bytes.length < 256 ^ 8) lengthPrefixed := by
  intro a b r s ha hb h
  rw [lengthPrefixed, lengthPrefixed, List.append_assoc, List.append_assoc] at h
  obtain ⟨hlength, hrest⟩ := selfDelimiting_bigEndian 8 _ _ _ _ ha hb h
  exact List.append_inj hrest hlength

namespace SelfDelimiting

variable {P : α → Prop} {encode : α → List UInt8}

theorem comp (h : SelfDelimiting P encode) {f : β → α} (hf : Function.Injective f) :
    SelfDelimiting (fun b => P (f b)) (fun b => encode (f b)) := by
  intro a b r s ha hb heq
  obtain ⟨hvalue, hrest⟩ := h _ _ _ _ ha hb heq
  exact ⟨hf hvalue, hrest⟩

theorem optional (h : SelfDelimiting P encode) :
    SelfDelimiting (fun value => ∀ a ∈ value, P a) (optional encode) := by
  intro a b r s ha hb heq
  cases a with
  | none =>
      cases b with
      | none => simpa [Encoding.optional] using heq
      | some b => simp [Encoding.optional] at heq
  | some a =>
      cases b with
      | none => simp [Encoding.optional] at heq
      | some b =>
          simp only [Encoding.optional, List.cons_append, List.cons.injEq, true_and] at heq
          obtain ⟨rfl, hrest⟩ := h a b r s (ha a rfl) (hb b rfl) heq
          exact ⟨rfl, hrest⟩

theorem flatMap (h : SelfDelimiting P encode) :
    ∀ (xs ys : List α) (r s : List UInt8), xs.length = ys.length → (∀ x ∈ xs, P x) →
      (∀ y ∈ ys, P y) → xs.flatMap encode ++ r = ys.flatMap encode ++ s → xs = ys ∧ r = s := by
  intro xs
  induction xs with
  | nil =>
      intro ys r s hlength _ _ heq
      rw [List.length_nil, eq_comm, List.length_eq_zero_iff] at hlength
      subst hlength
      exact ⟨rfl, heq⟩
  | cons x xs ih =>
      intro ys r s hlength hx hy heq
      cases ys with
      | nil => simp at hlength
      | cons y ys =>
          rw [List.flatMap_cons, List.flatMap_cons, List.append_assoc, List.append_assoc] at heq
          obtain ⟨rfl, hrest⟩ := h _ _ _ _ (hx x (by simp)) (hy y (by simp)) heq
          obtain ⟨rfl, hrs⟩ := ih ys r s (by simpa using hlength)
            (fun z hz => hx z (by simp [hz])) (fun z hz => hy z (by simp [hz])) hrest
          exact ⟨rfl, hrs⟩

theorem vector (h : SelfDelimiting P encode) :
    SelfDelimiting (fun values : List α => values.length < 256 ^ 8 ∧ ∀ a ∈ values, P a)
      (vector encode) := by
  intro a b r s ha hb heq
  rw [Encoding.vector, Encoding.vector, List.append_assoc, List.append_assoc] at heq
  obtain ⟨hlength, hrest⟩ := selfDelimiting_bigEndian 8 _ _ _ _ ha.1 hb.1 heq
  exact h.flatMap a b r s hlength ha.2 hb.2 hrest

/-- Nothing follows the last value. -/
theorem inj (h : SelfDelimiting P encode) {a b : α} (ha : P a) (hb : P b)
    (heq : encode a = encode b) : a = b :=
  (h a b [] [] ha hb (by simpa using heq)).1

end SelfDelimiting

end NixCache.Lib.Encoding
