import NixCache.Core.Bloom
import NixCache.Lib.Murmur3
import NixCache.Lib.Str
/-!
# The unrolled hash against its reference

Each case of the tail reads the bytes that are there from the last to the first.  All of them are
one word whose bytes are the slice, so the cases are instances of two lemmas.
-/

namespace NixCache.Core.Murmur

open NixCache.Lib NixCache.Lib.Result NixCache.Lib.LittleEndian

variable {data tail : List UInt8} {h : UInt64 × UInt64}

/-! ## Blocks -/

theorem word_eq_ok {bytes : List UInt8} (hlen : bytes.length = 8) :
    word bytes = .ok (fromLeBytes bytes) :=
  if_pos hlen

theorem block_eq {i : Nat} (hi : 16 * (i + 1) ≤ data.length) :
    block data h i = .ok (Murmur3.mixBlock h ((data.drop (16 * i)).take 16)) := by
  have hchunk : Slice.range data (i * 16) ((i + 1) * 16) =
      .ok ((data.drop (16 * i)).take 16) := by
    rw [Slice.range_eq_ok (by omega) (by omega)]
    congr 2
    · omega
    · rw [Nat.mul_comm]
  have hlen : ((data.drop (16 * i)).take 16).length = 16 := by
    rw [List.length_take, List.length_drop]
    omega
  refine bind_eq_ok.mpr ⟨_, hchunk, ?_⟩
  generalize (data.drop (16 * i)).take 16 = chunk at hlen ⊢
  have hfirst : Slice.range chunk 0 8 = .ok (chunk.take 8) :=
    Slice.range_eq_ok (by omega) (by omega)
  have hsecond : Slice.range chunk 8 16 = .ok (chunk.drop 8) := by
    rw [Slice.range_eq_ok (by omega) (by omega), List.take_of_length_le]
    rw [List.length_drop]
    omega
  have htake : (chunk.take 8).length = 8 := by
    rw [List.length_take]
    omega
  have hdrop : (chunk.drop 8).length = 8 := by
    rw [List.length_drop]
    omega
  refine bind_eq_ok.mpr ⟨_, hfirst, bind_eq_ok.mpr ⟨_, word_eq_ok htake, ?_⟩⟩
  exact bind_eq_ok.mpr ⟨_, hsecond, bind_eq_ok.mpr ⟨_, word_eq_ok hdrop, rfl⟩⟩

theorem foldlM_block {count : Nat} (hcount : 16 * count ≤ data.length) :
    (List.range count).foldlM (block data) h = .ok (Murmur3.mixBlocks count h data) := by
  induction count with
  | zero => rfl
  | succ count ih =>
      rw [List.range_succ, List.foldlM_append, Murmur3.mixBlocks_succ]
      exact bind_eq_ok.mpr ⟨_, ih (by omega), bind_eq_ok.mpr ⟨_, block_eq hcount, rfl⟩⟩

/-! ## The tail -/

/-- The bytes from `start` on with their shifts, the last one first. -/
def descending (start : Nat) : (count : Nat) → List (Nat × UInt64)
  | 0 => []
  | count + 1 => (start + count, UInt64.ofNat (8 * count)) :: descending start count

theorem xorBytes_descending {start count : Nat} {k : UInt64} (hcount : count ≤ 8)
    (hlen : start + count ≤ tail.length) :
    xorBytes tail k (descending start count) =
      .ok (k ^^^ fromLeBytes ((tail.drop start).take count)) := by
  induction count generalizing k with
  | zero =>
      rw [List.take_zero, descending, xorBytes]
      simp [fromLeBytes]
  | succ count ih =>
      have hin : start + count < tail.length := by omega
      have hbyte : Slice.index tail (start + count) = .ok tail[start + count] :=
        Slice.index_eq_ok.mpr (List.getElem?_eq_getElem hin)
      have htake : ((tail.drop start).take count).length = count := by
        rw [List.length_take, List.length_drop]
        omega
      have hsplit : (tail.drop start).take (count + 1) =
          (tail.drop start).take count ++ [tail[start + count]] := by
        rw [List.take_succ_eq_append_getElem (by rw [List.length_drop]; omega),
          List.getElem_drop]
      have hword := @fromLeBytes_concat ((tail.drop start).take count)
        tail[start + count] (by omega)
      rw [htake] at hword
      rw [descending, xorBytes, hbyte]
      show xorBytes tail (k ^^^ tail[start + count].toUInt64 <<< UInt64.ofNat (8 * count))
        (descending start count) = _
      rw [ih (by omega) (by omega), hsplit, hword, UInt64.xor_assoc, UInt64.xor_comm
        (fromLeBytes _)]

theorem tailK1_descending {count : Nat} (hcount : count ≤ 8) (hlen : count ≤ tail.length) :
    tailK1 tail h (descending 0 count) =
      .ok (h.1 ^^^ Murmur3.scramble1 (fromLeBytes (tail.take count)), h.2) := by
  rw [tailK1, xorBytes_descending hcount (by omega), UInt64.zero_xor]
  rfl

theorem tailK2_descending {count : Nat} (hcount : count ≤ 8) (hlen : 8 + count = tail.length) :
    tailK2 tail h (descending 8 count) =
      .ok (h.1, h.2 ^^^ Murmur3.scramble2 (fromLeBytes (tail.drop 8))) := by
  have htake : (tail.drop 8).take count = tail.drop 8 := by
    rw [List.take_of_length_le]
    rw [List.length_drop]
    omega
  rw [tailK2, xorBytes_descending hcount (by omega), UInt64.zero_xor, htake]
  rfl

/-- The cases with `k1` alone. -/
theorem short_tail (hlen : tail.length ≤ 8) :
    tailK1 tail h (descending 0 tail.length) = .ok (Murmur3.mixTail h tail) := by
  rw [tailK1_descending hlen le_rfl, List.take_length, Murmur3.mixTail_eq,
    List.take_of_length_le hlen, List.drop_eq_nil_of_le hlen]
  have hzero : fromLeBytes [] = 0 := fromLeBytes_zeros 0
  rw [hzero, Murmur3.scramble2_zero, UInt64.xor_zero]

/-- The cases with both words. -/
theorem long_tail (count : Nat) (hcount : count ≤ 8) (hlen : 8 + count = tail.length) :
    (do
      let h ← tailK2 tail h (descending 8 count)
      tailK1 tail h (descending 0 8)) = .ok (Murmur3.mixTail h tail) := by
  rw [tailK2_descending hcount hlen]
  show tailK1 tail _ (descending 0 8) = _
  rw [tailK1_descending le_rfl (by omega), Murmur3.mixTail_eq]

theorem matchTail_eq (hlen : tail.length < 16) :
    matchTail tail h = .ok (Murmur3.mixTail h tail) := by
  have hshort := @short_tail tail h
  unfold matchTail
  split
  case h_1 heq => exact long_tail 7 (by omega) (by omega)
  case h_2 heq => exact long_tail 6 (by omega) (by omega)
  case h_3 heq => exact long_tail 5 (by omega) (by omega)
  case h_4 heq => exact long_tail 4 (by omega) (by omega)
  case h_5 heq => exact long_tail 3 (by omega) (by omega)
  case h_6 heq => exact long_tail 2 (by omega) (by omega)
  case h_7 heq => exact long_tail 1 (by omega) (by omega)
  case h_16 =>
    -- no case has matched
    simp only [imp_false] at *
    have hnil : tail = [] := by
      apply List.length_eq_zero_iff.mp
      omega
    rw [hnil]
    simp [Murmur3.mixTail_eq, fromLeBytes]
  all_goals
    next heq =>
      rw [heq] at hshort
      exact hshort (by omega)

/-- The unrolled hash is the reference, and no access is out of bounds. -/
theorem murmur3_eq (data : List UInt8) (seed : UInt64) :
    murmur3X64_128 data seed = .ok (Murmur3.hash data seed) := by
  have htail : Slice.range data (data.length / 16 * 16) data.length =
      .ok (data.drop (16 * (data.length / 16))) := by
    rw [Slice.range_eq_ok (by omega) le_rfl, List.take_of_length_le, Nat.mul_comm]
    rw [List.length_drop]
  have hshort : (data.drop (16 * (data.length / 16))).length < 16 := by
    rw [List.length_drop]
    omega
  refine bind_eq_ok.mpr ⟨_, foldlM_block (by omega), ?_⟩
  exact bind_eq_ok.mpr ⟨_, htail, bind_eq_ok.mpr ⟨_, matchTail_eq hshort, rfl⟩⟩

end NixCache.Core.Murmur

namespace NixCache.Core

open NixCache.Lib

/-- Both words of the unrolled hash are those of the reference, whatever the bytes and the seed. -/
theorem murmur3X64_128_eq_hash :
    ∀ (data : List UInt8) (seed : UInt64),
      murmur3X64_128 data seed = .ok (Murmur3.hash data seed) :=
  Murmur.murmur3_eq

example : (murmur3X64_128 (Str.asBytes "0g15l22sw4lgnh1x159ngkcyz5n7f9ag") 0).map Prod.fst =
    .ok 0xca7671463c6a9f37 := by
  decide

end NixCache.Core
