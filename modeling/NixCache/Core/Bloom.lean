import NixCache.Lib.LittleEndian
import NixCache.Lib.Slice
/-!
# The blocked Bloom filter

`nixcache-core/src/bloom.rs`: the unrolled hash, and the filter with its byte codec.
-/

namespace NixCache.Core

open NixCache.Lib NixCache.Lib.Result NixCache.Lib.LittleEndian

/-! ## Hashes -/

namespace Murmur

def c1 : UInt64 := 0x87c37b91114253d5
def c2 : UInt64 := 0x4cf5ad432745937f

/-- `u64::rotate_left`, by less than the width. -/
def rotateLeft (x n : UInt64) : UInt64 := (x <<< n) ||| (x >>> (64 - n))

def fmix64 (k : UInt64) : UInt64 :=
  let k := k ^^^ (k >>> 33)
  let k := k * 0xff51afd7ed558ccd
  let k := k ^^^ (k >>> 33)
  let k := k * 0xc4ceb9fe1a85ec53
  k ^^^ (k >>> 33)

/-- `u64::from_le_bytes(bytes.try_into().unwrap())`. -/
def word (bytes : List UInt8) : Except Slice.Panic UInt64 :=
  if bytes.length = 8 then .ok (fromLeBytes bytes) else .error .outOfBounds

/-- One iteration over the full blocks. -/
def block (data : List UInt8) (h : UInt64 × UInt64) (i : Nat) :
    Except Slice.Panic (UInt64 × UInt64) := do
  let chunk ← Slice.range data (i * 16) ((i + 1) * 16)
  let k1 ← word (← Slice.range chunk 0 8)
  let k2 ← word (← Slice.range chunk 8 16)
  let k1 := rotateLeft (k1 * c1) 31 * c2
  let h1 := rotateLeft (h.1 ^^^ k1) 27
  let h1 := (h1 + h.2) * 5 + 0x52dce729
  let k2 := rotateLeft (k2 * c2) 33 * c1
  let h2 := rotateLeft (h.2 ^^^ k2) 31
  let h2 := (h2 + h1) * 5 + 0x38495ab5
  pure (h1, h2)

/-- `k ^= (tail[i] as u64) << shift`, for each pair of an index and a shift. -/
def xorBytes (tail : List UInt8) : (k : UInt64) → List (Nat × UInt64) → Except Slice.Panic UInt64
  | k, [] => .ok k
  | k, (i, shift) :: rest => do
      let byte ← Slice.index tail i
      xorBytes tail (k ^^^ byte.toUInt64 <<< shift) rest

/-- The statements of a case about `k1`. -/
def tailK1 (tail : List UInt8) (h : UInt64 × UInt64) (bytes : List (Nat × UInt64)) :
    Except Slice.Panic (UInt64 × UInt64) := do
  let k1 ← xorBytes tail 0 bytes
  pure (h.1 ^^^ rotateLeft (k1 * c1) 31 * c2, h.2)

/-- The statements of a case about `k2`. -/
def tailK2 (tail : List UInt8) (h : UInt64 × UInt64) (bytes : List (Nat × UInt64)) :
    Except Slice.Panic (UInt64 × UInt64) := do
  let k2 ← xorBytes tail 0 bytes
  pure (h.1, h.2 ^^^ rotateLeft (k2 * c2) 33 * c1)

/-- `match tail.len()`. -/
def matchTail (tail : List UInt8) (h : UInt64 × UInt64) : Except Slice.Panic (UInt64 × UInt64) :=
  match tail.length with
  | 15 => do
      let h ← tailK2 tail h
        [(14, 48), (13, 40), (12, 32), (11, 24), (10, 16), (9, 8), (8, 0)]
      tailK1 tail h [(7, 56), (6, 48), (5, 40), (4, 32), (3, 24), (2, 16), (1, 8), (0, 0)]
  | 14 => do
      let h ← tailK2 tail h [(13, 40), (12, 32), (11, 24), (10, 16), (9, 8), (8, 0)]
      tailK1 tail h [(7, 56), (6, 48), (5, 40), (4, 32), (3, 24), (2, 16), (1, 8), (0, 0)]
  | 13 => do
      let h ← tailK2 tail h [(12, 32), (11, 24), (10, 16), (9, 8), (8, 0)]
      tailK1 tail h [(7, 56), (6, 48), (5, 40), (4, 32), (3, 24), (2, 16), (1, 8), (0, 0)]
  | 12 => do
      let h ← tailK2 tail h [(11, 24), (10, 16), (9, 8), (8, 0)]
      tailK1 tail h [(7, 56), (6, 48), (5, 40), (4, 32), (3, 24), (2, 16), (1, 8), (0, 0)]
  | 11 => do
      let h ← tailK2 tail h [(10, 16), (9, 8), (8, 0)]
      tailK1 tail h [(7, 56), (6, 48), (5, 40), (4, 32), (3, 24), (2, 16), (1, 8), (0, 0)]
  | 10 => do
      let h ← tailK2 tail h [(9, 8), (8, 0)]
      tailK1 tail h [(7, 56), (6, 48), (5, 40), (4, 32), (3, 24), (2, 16), (1, 8), (0, 0)]
  | 9 => do
      let h ← tailK2 tail h [(8, 0)]
      tailK1 tail h [(7, 56), (6, 48), (5, 40), (4, 32), (3, 24), (2, 16), (1, 8), (0, 0)]
  | 8 => tailK1 tail h [(7, 56), (6, 48), (5, 40), (4, 32), (3, 24), (2, 16), (1, 8), (0, 0)]
  | 7 => tailK1 tail h [(6, 48), (5, 40), (4, 32), (3, 24), (2, 16), (1, 8), (0, 0)]
  | 6 => tailK1 tail h [(5, 40), (4, 32), (3, 24), (2, 16), (1, 8), (0, 0)]
  | 5 => tailK1 tail h [(4, 32), (3, 24), (2, 16), (1, 8), (0, 0)]
  | 4 => tailK1 tail h [(3, 24), (2, 16), (1, 8), (0, 0)]
  | 3 => tailK1 tail h [(2, 16), (1, 8), (0, 0)]
  | 2 => tailK1 tail h [(1, 8), (0, 0)]
  | 1 => tailK1 tail h [(0, 0)]
  | _ => .ok h

end Murmur

/-- `murmur3_x64_128`. -/
def murmur3X64_128 (data : List UInt8) (seed : UInt64) : Except Slice.Panic (UInt64 × UInt64) := do
  let nBlocks := data.length / 16
  let h ← (List.range nBlocks).foldlM (Murmur.block data) (seed, seed)
  let tail ← Slice.range data (nBlocks * 16) data.length
  let h ← Murmur.matchTail tail h
  let h1 := h.1 ^^^ UInt64.ofNat data.length
  let h2 := h.2 ^^^ UInt64.ofNat data.length
  let h1 := h1 + h2
  let h2 := h2 + h1
  let h1 := Murmur.fmix64 h1
  let h2 := Murmur.fmix64 h2
  let h1 := h1 + h2
  let h2 := h2 + h1
  pure (h1, h2)

/-! ## Filters -/

inductive BloomError where
  | invalidByteLength (actual : Nat)
  | invalidHashCount (actual min max : UInt8)
  | invalidFalsePositiveRate (actual min max : String)
  | invalidBlockCount (actual : UInt32)
  | blockCountOverflow (actual : UInt64) (max : UInt32)
  | blockLimitExceeded (actual : UInt64) (limit : UInt32)
  | arithmeticOverflow (operation : String)
  | allocationFailed (requested : Nat) (details : String)
  | entryCountOverflow (actual : UInt64)
  | invalidStructure (numBlocks : UInt32) (expectedWords actualWords : Nat)
deriving DecidableEq, Repr

/-- The widths of `usize` on the targets of the crate. -/
inductive PointerWidth where
  | bits32
  | bits64
deriving DecidableEq, Repr

namespace PointerWidth

def bits : PointerWidth → Nat
  | bits32 => 32
  | bits64 => 64

/-- A value as `usize`, unless it does not fit. -/
def tryFrom (width : PointerWidth) (value : Nat) : Option Nat :=
  if value < 2 ^ width.bits then some value else none

end PointerWidth

/-- What the filter takes from its platform: `usize`, `Vec::try_reserve_exact` with the text of its
error, and the debug text of a float. -/
structure Platform where
  pointerWidth : PointerWidth
  reserve : Nat → Except String Unit
  debug : Float → String

structure FastBlockedBloomFilter where
  bits : List UInt64
  numBlocks : UInt32
  numEntries : UInt64
  numHashes : UInt8
deriving DecidableEq, Repr

/-- `u64::checked_mul`. -/
def checkedMul (a b : UInt64) : Option UInt64 :=
  if a.toNat * b.toNat < 2 ^ 64 then some (a * b) else none

/-- `u64::checked_add`. -/
def checkedAdd (a b : UInt64) : Option UInt64 :=
  if a.toNat + b.toNat < 2 ^ 64 then some (a + b) else none

def checkedDivCeil (value divisor : UInt64) : Except BloomError UInt64 := do
  ensure (divisor ≠ 0) (.arithmeticOverflow "division by zero")
  if value = 0 then pure 0
  else
    let adjusted ← okOr (.arithmeticOverflow "rounded block count") (checkedAdd value (divisor - 1))
    pure (adjusted / divisor)

namespace FastBlockedBloomFilter

def minFalsePositiveRate : Float := 0.00001
def maxFalsePositiveRate : Float := 0.5
def maxBlocks : UInt32 := 1048576
def maxHashes : UInt8 := 30
def blockBits : UInt64 := 512
def wordsPerBlock : Nat := 8

def validatedWordLen (platform : Platform) (numBlocks : UInt64) :
    Except BloomError (UInt32 × Nat) := do
  ensure (numBlocks.toNat < 2 ^ 32) (.blockCountOverflow numBlocks 4294967295)
  let numBlocks := numBlocks.toUInt32
  ensure (numBlocks ≠ 0) (.invalidBlockCount 0)
  ensure (numBlocks ≤ maxBlocks) (.blockLimitExceeded numBlocks.toUInt64 maxBlocks)
  let blocks ← okOr (.arithmeticOverflow "block count conversion to usize")
    (platform.pointerWidth.tryFrom numBlocks.toNat)
  let wordLen ← okOr (.arithmeticOverflow "bitmap word count")
    (platform.pointerWidth.tryFrom (blocks * wordsPerBlock))
  pure (numBlocks, wordLen)

/-- `bits.try_reserve_exact(word_len)?`, with the error of the filter. -/
def tryReserve (platform : Platform) (wordLen : Nat) : Except BloomError Unit :=
  mapErr (.allocationFailed wordLen) (platform.reserve wordLen)

def allocateZeroedWords (platform : Platform) (wordLen : Nat) :
    Except BloomError (List UInt64) := do
  tryReserve platform wordLen
  pure (List.replicate wordLen 0)

/-- `FastBlockedBloomFilter::new`. -/
def new (platform : Platform) (expectedEntries : Nat) (falsePositiveRate : Float) :
    Except BloomError FastBlockedBloomFilter := do
  ensure (falsePositiveRate.isFinite ∧ minFalsePositiveRate ≤ falsePositiveRate ∧
      falsePositiveRate ≤ maxFalsePositiveRate)
    (.invalidFalsePositiveRate (platform.debug falsePositiveRate) "0.00001" "0.5")
  let ln2 := Float.log 2.0
  let bitsPerEntry := -(Float.log falsePositiveRate / (ln2 * ln2)) * 1.15
  ensure (bitsPerEntry.isFinite ∧ ¬ bitsPerEntry ≤ 0.0) (.arithmeticOverflow "bits per entry")
  let bitsPerEntry := bitsPerEntry.ceil
  ensure (¬ 18446744073709551616.0 < bitsPerEntry)
    (.arithmeticOverflow "bits per entry conversion")
  let bitsPerEntry := bitsPerEntry.toUInt64
  ensure (expectedEntries < 2 ^ 64) (.arithmeticOverflow "expected entry count conversion")
  let totalBits ← okOr (.arithmeticOverflow "total bit count")
    (checkedMul (UInt64.ofNat expectedEntries) bitsPerEntry)
  let numBlocks ← checkedDivCeil (max totalBits blockBits) blockBits
  let (numBlocks, wordLen) ← validatedWordLen platform numBlocks
  let bits ← allocateZeroedWords platform wordLen
  let numHashes := (bitsPerEntry.toFloat * ln2).round.toUInt8
  pure
    { bits := bits
      numBlocks := numBlocks
      numEntries := 0
      numHashes := min (max numHashes 1) maxHashes }

/-- The words of the full chunks of 8 bytes. -/
def leWords : List UInt8 → List UInt64
  | b0 :: b1 :: b2 :: b3 :: b4 :: b5 :: b6 :: b7 :: rest =>
      fromLeBytes [b0, b1, b2, b3, b4, b5, b6, b7] :: leWords rest
  | _ => []

/-- `FastBlockedBloomFilter::from_bytes`. -/
def fromBytes (platform : Platform) (bytes : List UInt8) (numEntries : UInt64) (numHashes : UInt8) :
    Except BloomError FastBlockedBloomFilter := do
  ensure (1 ≤ numHashes ∧ numHashes ≤ maxHashes) (.invalidHashCount numHashes 1 maxHashes)
  ensure (bytes ≠ [] ∧ bytes.length % 64 = 0) (.invalidByteLength bytes.length)
  let numBlocksRaw := bytes.length / 64
  ensure (numBlocksRaw < 2 ^ 64) (.arithmeticOverflow "serialized block count conversion")
  let (numBlocks, wordLen) ← validatedWordLen platform (UInt64.ofNat numBlocksRaw)
  tryReserve platform wordLen
  let bits := leWords bytes
  ensure (bits.length = wordLen) (.invalidStructure numBlocks wordLen bits.length)
  pure { bits := bits, numBlocks := numBlocks, numEntries := numEntries, numHashes := numHashes }

def validateInternal (platform : Platform) (self : FastBlockedBloomFilter) :
    Except BloomError Unit := do
  let (_, expectedWords) ← validatedWordLen platform self.numBlocks.toUInt64
  ensure (self.bits.length = expectedWords)
    (.invalidStructure self.numBlocks expectedWords self.bits.length)
  ensure (1 ≤ self.numHashes ∧ self.numHashes ≤ maxHashes)
    (.invalidHashCount self.numHashes 1 maxHashes)

def toBytes (self : FastBlockedBloomFilter) : List UInt8 := self.bits.flatMap toLeBytes

def calculateBlockOffset (platform : Platform) (h1 : UInt64) (numBlocks : UInt32) : Option Nat :=
  if numBlocks = 0 then none
  else
    match platform.pointerWidth.tryFrom (h1 % numBlocks.toUInt64).toNat with
    | none => none
    | some blockIdx => platform.pointerWidth.tryFrom (blockIdx * wordsPerBlock)

/-- `(h1 >> 32) ^ (h1 & 0xFFFF_FFFF)`. -/
def probeBase (h1 : UInt64) : UInt64 := (h1 >>> 32) ^^^ (h1 &&& 0xFFFFFFFF)

/-- `h2 | 1`. -/
def probeStep (h2 : UInt64) : UInt64 := h2 ||| 1

/-- The word of the `i`-th probe in its block, and the bit in the word. -/
def probe (base step : UInt64) (i : Nat) : Nat × Nat :=
  let bitInBlock := ((base + UInt64.ofNat i * step) &&& 511).toNat
  (bitInBlock >>> 6, bitInBlock &&& 63)

/-- `1u64 << bit_idx`. -/
def mask (bitIdx : Nat) : UInt64 := 1 <<< UInt64.ofNat bitIdx

/-- The loop of `insert_bytes`. -/
def setProbes (blockOffset : Nat) (base step : UInt64) :
    List Nat → List UInt64 → Except Slice.Panic (List UInt64)
  | [], bits => .ok bits
  | i :: probes, bits => do
      let (wordIdx, bitIdx) := probe base step i
      let bits ← Slice.modify bits (blockOffset + wordIdx) (· ||| mask bitIdx)
      setProbes blockOffset base step probes bits

/-- `insert_bytes`, with the filter after the call. -/
def insertBytes (platform : Platform) (self : FastBlockedBloomFilter) (key : List UInt8) :
    Except Slice.Panic (Except BloomError Unit × FastBlockedBloomFilter) :=
  match self.validateInternal platform with
  | .error error => .ok (.error error, self)
  | .ok () =>
      match checkedAdd self.numEntries 1 with
      | none => .ok (.error (.entryCountOverflow self.numEntries), self)
      | some nextEntries => do
          let (h1, h2) ← murmur3X64_128 key 0
          match calculateBlockOffset platform h1 self.numBlocks with
          | none => .ok (.error (.invalidBlockCount self.numBlocks), self)
          | some blockOffset => do
              let bits ← setProbes blockOffset (probeBase h1) (probeStep h2)
                (List.range self.numHashes.toNat) self.bits
              pure (.ok (), { self with bits := bits, numEntries := nextEntries })

/-- The loop of `contains_bytes`. -/
def testProbes (bits : List UInt64) (blockOffset : Nat) (base step : UInt64) :
    List Nat → Except Slice.Panic Bool
  | [] => .ok true
  | i :: probes => do
      let (wordIdx, bitIdx) := probe base step i
      let word ← Slice.index bits (blockOffset + wordIdx)
      if word &&& mask bitIdx = 0 then pure false
      else testProbes bits blockOffset base step probes

/-- `contains_bytes`. -/
def containsBytes (platform : Platform) (self : FastBlockedBloomFilter) (key : List UInt8) :
    Except Slice.Panic Bool :=
  if self.numEntries = 0 then .ok false
  else do
    let (h1, h2) ← murmur3X64_128 key 0
    match calculateBlockOffset platform h1 self.numBlocks with
    | none => pure false
    | some blockOffset =>
        testProbes self.bits blockOffset (probeBase h1) (probeStep h2)
          (List.range self.numHashes.toNat)

end FastBlockedBloomFilter

end NixCache.Core
