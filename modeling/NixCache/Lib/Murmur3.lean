import NixCache.Lib.LittleEndian
/-!
# MurmurHash3

The 128-bit variant for 64-bit platforms, over lists of bytes: blocks of 16 bytes, then the tail
padded with zeros, then the finalisation.
-/

namespace NixCache.Lib.Murmur3

open LittleEndian

abbrev State := UInt64 × UInt64

def c1 : UInt64 := 0x87c37b91114253d5
def c2 : UInt64 := 0x4cf5ad432745937f

def rotl (x n : UInt64) : UInt64 := (x <<< n) ||| (x >>> (64 - n))

def scramble1 (k1 : UInt64) : UInt64 := rotl (k1 * c1) 31 * c2
def scramble2 (k2 : UInt64) : UInt64 := rotl (k2 * c2) 33 * c1

def mixBlock (h : State) (block : List UInt8) : State :=
  let h1 := (rotl (h.1 ^^^ scramble1 (fromLeBytes (block.take 8))) 27 + h.2) * 5 + 0x52dce729
  let h2 := (rotl (h.2 ^^^ scramble2 (fromLeBytes (block.drop 8))) 31 + h1) * 5 + 0x38495ab5
  (h1, h2)

/-- The first `count` blocks. -/
def mixBlocks : (count : Nat) → State → List UInt8 → State
  | 0, h, _ => h
  | count + 1, h, data => mixBlocks count (mixBlock h (data.take 16)) (data.drop 16)

/-- The tail as one more block, which is scrambled only. -/
def mixTail (h : State) (tail : List UInt8) : State :=
  let block := tail ++ List.replicate (16 - tail.length) 0
  (h.1 ^^^ scramble1 (fromLeBytes (block.take 8)), h.2 ^^^ scramble2 (fromLeBytes (block.drop 8)))

def fmix64 (k : UInt64) : UInt64 :=
  let k := (k ^^^ k >>> 33) * 0xff51afd7ed558ccd
  let k := (k ^^^ k >>> 33) * 0xc4ceb9fe1a85ec53
  k ^^^ k >>> 33

def finalise (h : State) (length : Nat) : State :=
  let h1 := h.1 ^^^ UInt64.ofNat length
  let h2 := h.2 ^^^ UInt64.ofNat length
  let h1 := h1 + h2
  let h2 := h2 + h1
  let h1 := fmix64 h1
  let h2 := fmix64 h2
  (h1 + h2, h2 + (h1 + h2))

def hash (data : List UInt8) (seed : UInt64) : State :=
  let blocks := data.length / 16
  finalise (mixTail (mixBlocks blocks (seed, seed) data) (data.drop (16 * blocks))) data.length

@[simp] theorem scramble1_zero : scramble1 0 = 0 := by decide

@[simp] theorem scramble2_zero : scramble2 0 = 0 := by decide

theorem mixBlocks_succ (count : Nat) (h : State) (data : List UInt8) :
    mixBlocks (count + 1) h data =
      mixBlock (mixBlocks count h data) ((data.drop (16 * count)).take 16) := by
  induction count generalizing h data with
  | zero => rfl
  | succ count ih =>
      rw [mixBlocks, ih, mixBlocks, List.drop_drop]
      congr 3
      omega

/-- The tail without its padding. -/
theorem mixTail_eq (h : State) (tail : List UInt8) :
    mixTail h tail = (h.1 ^^^ scramble1 (fromLeBytes (tail.take 8)),
      h.2 ^^^ scramble2 (fromLeBytes (tail.drop 8))) := by
  have htake : fromLeBytes ((tail ++ List.replicate (16 - tail.length) 0).take 8) =
      fromLeBytes (tail.take 8) := by
    rw [List.take_append, List.take_replicate, fromLeBytes_append_zeros]
  have hdrop : fromLeBytes ((tail ++ List.replicate (16 - tail.length) 0).drop 8) =
      fromLeBytes (tail.drop 8) := by
    rw [List.drop_append, List.drop_replicate, fromLeBytes_append_zeros]
  rw [mixTail, htake, hdrop]

end NixCache.Lib.Murmur3
