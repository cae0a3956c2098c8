import Mathlib.Data.Nat.Digits.Defs
import Mathlib.Tactic.Ring
/-!
# Little-endian words

The 64-bit words of byte strings, least significant byte first.
-/

namespace NixCache.Lib.LittleEndian

/-- `u64::from_le_bytes`; missing bytes are zeros. -/
def fromLeBytes (bytes : List UInt8) : UInt64 :=
  UInt64.ofNat (Nat.ofDigits 256 (bytes.map UInt8.toNat))

/-- `u64::to_le_bytes`. -/
def toLeBytes (word : UInt64) : List UInt8 :=
  (List.range 8).map fun i => UInt8.ofNat (word.toNat / 256 ^ i)

@[simp] theorem length_toLeBytes (word : UInt64) : (toLeBytes word).length = 8 := rfl

theorem fromLeBytes_append_zeros (bytes : List UInt8) (count : Nat) :
    fromLeBytes (bytes ++ List.replicate count 0) = fromLeBytes bytes := by
  rw [fromLeBytes, List.map_append, List.map_replicate]
  exact congrArg UInt64.ofNat (Nat.ofDigits_append_replicate_zero _)

@[simp] theorem fromLeBytes_zeros (count : Nat) : fromLeBytes (List.replicate count 0) = 0 :=
  fromLeBytes_append_zeros [] count

theorem fromLeBytes_toLeBytes (word : UInt64) : fromLeBytes (toLeBytes word) = word := by
  have hword := word.toNat_lt
  apply UInt64.toNat_inj.mp
  simp only [fromLeBytes, toLeBytes, List.map_map, UInt64.toNat_ofNat']
  simp only [List.range, List.range.loop, List.map_cons, List.map_nil, Function.comp_apply,
    Nat.ofDigits_cons, Nat.ofDigits_nil, UInt8.toNat_ofNat']
  omega

theorem value_lt (bytes : List UInt8) :
    Nat.ofDigits 256 (bytes.map UInt8.toNat) < 256 ^ bytes.length := by
  have hdigits : ∀ digit ∈ bytes.map UInt8.toNat, digit < 256 := by
    intro digit hdigit
    obtain ⟨byte, -, rfl⟩ := List.mem_map.mp hdigit
    exact byte.toNat_lt
  have hlt := Nat.ofDigits_lt_base_pow_length (by decide : 1 < 256) hdigits
  rwa [List.length_map] at hlt

/-- Numbers without a common bit are added by `xor`. -/
theorem add_eq_xor_of_lt {low high width : Nat} (h : low < 2 ^ width) :
    low + 2 ^ width * high = low ^^^ high <<< width := by
  apply Nat.eq_of_testBit_eq
  intro j
  rw [Nat.add_comm, Nat.testBit_two_pow_mul_add high h, Nat.testBit_xor, Nat.testBit_shiftLeft]
  by_cases hj : j < width
  · have hge : ¬ width ≤ j := by omega
    simp [hj, hge]
  · have hbit : low.testBit j = false :=
      Nat.testBit_lt_two_pow (h.trans_le (Nat.pow_le_pow_right (by decide) (by omega)))
    have hge : width ≤ j := by omega
    simp [hj, hge, hbit]

/-- A further byte is shifted over the ones before it. -/
theorem fromLeBytes_concat {bytes : List UInt8} (byte : UInt8) (h : bytes.length < 8) :
    fromLeBytes (bytes ++ [byte]) =
      fromLeBytes bytes ^^^ byte.toUInt64 <<< UInt64.ofNat (8 * bytes.length) := by
  have hlow := value_lt bytes
  have hbyte := byte.toNat_lt
  have hpow : (256 : Nat) ^ bytes.length = 2 ^ (8 * bytes.length) := by
    rw [show (256 : Nat) = 2 ^ 8 from rfl, ← Nat.pow_mul]
  have hwidth : 2 ^ (8 * bytes.length) * 2 ^ 8 ≤ (2 : Nat) ^ 64 := by
    rw [← Nat.pow_add]
    exact Nat.pow_le_pow_right (by decide) (by omega)
  have hhigh : byte.toNat * 2 ^ (8 * bytes.length) < 2 ^ 64 :=
    calc
      byte.toNat * 2 ^ (8 * bytes.length) < 2 ^ 8 * 2 ^ (8 * bytes.length) :=
        Nat.mul_lt_mul_of_pos_right hbyte (Nat.two_pow_pos _)
      _ = 2 ^ (8 * bytes.length) * 2 ^ 8 := Nat.mul_comm _ _
      _ ≤ 2 ^ 64 := hwidth
  have hlow' : Nat.ofDigits 256 (bytes.map UInt8.toNat) < 2 ^ 64 := by
    rw [hpow] at hlow
    omega
  apply UInt64.toNat_inj.mp
  rw [UInt64.toNat_xor, UInt64.toNat_shiftLeft, fromLeBytes, fromLeBytes, UInt64.toNat_ofNat',
    UInt64.toNat_ofNat', UInt64.toNat_ofNat', UInt8.toNat_toUInt64, List.map_append,
    List.map_singleton, Nat.ofDigits_append, Nat.ofDigits_singleton, List.length_map, hpow,
    add_eq_xor_of_lt (hpow ▸ hlow), Nat.mod_eq_of_lt hlow']
  have hshift : 8 * bytes.length % 2 ^ 64 % 64 = 8 * bytes.length := by omega
  rw [hshift, Nat.shiftLeft_eq, Nat.mod_eq_of_lt hhigh,
    Nat.mod_eq_of_lt (Nat.xor_lt_two_pow hlow' hhigh)]

end NixCache.Lib.LittleEndian
