import NixCache.Core.Proofs.Murmur
import NixCache.Lib.BloomFilter
import Mathlib.Data.Nat.Bitwise
/-!
# The Bloom filter keeps every key

The words of a filter as a set of marked bits.  A valid filter has eight words for each block, so
every probe of a key is inside; insertion marks the probes and nothing is unmarked.
-/

namespace NixCache.Core.FastBlockedBloomFilter

open NixCache.Lib NixCache.Lib.Result NixCache.Lib.LittleEndian

variable {platform : Platform}

/-! ## Marked bits -/

/-- The bits that are set: the index of the word, and the bit in it. -/
def markedBits (bits : List UInt64) : Set (Nat × Nat) :=
  {p | ∃ word, bits[p.1]? = some word ∧ word.toNat.testBit p.2 = true}

theorem toNat_mask {bitIdx : Nat} (h : bitIdx < 64) : (mask bitIdx).toNat = 2 ^ bitIdx := by
  have hpow : 2 ^ bitIdx < 2 ^ 64 := Nat.pow_lt_pow_right (by decide) h
  have hmod : bitIdx % 2 ^ 64 % 64 = bitIdx := by omega
  rw [mask, UInt64.toNat_shiftLeft, UInt64.toNat_ofNat', hmod, Nat.shiftLeft_eq]
  rw [UInt64.toNat_one, Nat.one_mul, Nat.mod_eq_of_lt hpow]

theorem testBit_or_mask {word : UInt64} {bitIdx : Nat} (h : bitIdx < 64) (j : Nat) :
    (word ||| mask bitIdx).toNat.testBit j = (word.toNat.testBit j || decide (bitIdx = j)) := by
  rw [UInt64.toNat_or, Nat.testBit_or, toNat_mask h, Nat.testBit_two_pow]

theorem and_mask_eq_zero {word : UInt64} {bitIdx : Nat} (h : bitIdx < 64) :
    word &&& mask bitIdx = 0 ↔ word.toNat.testBit bitIdx = false := by
  rw [← UInt64.toNat_inj, UInt64.toNat_and, toNat_mask h, Nat.and_two_pow]
  cases word.toNat.testBit bitIdx <;> simp

theorem markedBits_modify {bits : List UInt64} {wordIdx bitIdx : Nat}
    (hword : wordIdx < bits.length) (hbit : bitIdx < 64) :
    markedBits (bits.modify wordIdx (· ||| mask bitIdx)) =
      insert (wordIdx, bitIdx) (markedBits bits) := by
  ext ⟨i, j⟩
  simp only [markedBits, Set.mem_ofPred_eq, Set.mem_insert_iff, Prod.mk.injEq,
    List.getElem?_modify]
  by_cases hi : wordIdx = i
  · subst hi
    have hget := List.getElem?_eq_getElem hword
    simp only [hget, if_pos, Option.map_eq_map, Option.map_some, Option.some.injEq,
      exists_eq_left', testBit_or_mask hbit, Bool.or_eq_true, decide_eq_true_eq, true_and]
    constructor
    · rintro (hold | hnew)
      · exact Or.inr hold
      · exact Or.inl hnew.symm
    · rintro (hnew | hold)
      · exact Or.inr hnew.symm
      · exact Or.inl hold
  · have hne : i ≠ wordIdx := fun h => hi h.symm
    simp [hi, hne]

/-! ## Probes -/

theorem probe_lt (base step : UInt64) (i : Nat) :
    (probe base step i).1 < 8 ∧ (probe base step i).2 < 64 := by
  have hbit : ((base + UInt64.ofNat i * step) &&& 511).toNat ≤ 511 := by
    rw [UInt64.toNat_and]
    exact Nat.and_le_right
  constructor
  · show ((base + UInt64.ofNat i * step) &&& 511).toNat >>> 6 < 8
    rw [Nat.shiftRight_eq_div_pow]
    omega
  · show ((base + UInt64.ofNat i * step) &&& 511).toNat &&& 63 < 64
    exact Nat.lt_succ_of_le Nat.and_le_right

/-- The position of a probe in the words. -/
def position (blockOffset : Nat) (base step : UInt64) (i : Nat) : Nat × Nat :=
  (blockOffset + (probe base step i).1, (probe base step i).2)

section Probes

variable (blockOffset : Nat) (base step : UInt64) {bits : List UInt64}

theorem setProbes_eq (probes : List Nat) (hin : blockOffset + 8 ≤ bits.length) :
    ∃ bits', setProbes blockOffset base step probes bits = .ok bits' ∧
      bits'.length = bits.length ∧
      markedBits bits' =
        markedBits bits ∪ {p | ∃ i ∈ probes, p = position blockOffset base step i} := by
  induction probes generalizing bits with
  | nil => exact ⟨bits, rfl, rfl, by simp⟩
  | cons i probes ih =>
      have hprobe := probe_lt base step i
      have hword : blockOffset + (probe base step i).1 < bits.length := by omega
      obtain ⟨bits', hset, hlen, hmarked⟩ :=
        @ih (bits.modify (blockOffset + (probe base step i).1) (· ||| mask (probe base step i).2))
          (by rw [List.length_modify]; exact hin)
      refine ⟨bits', bind_eq_ok.mpr ⟨_, Slice.modify_eq_ok hword, hset⟩, ?_, ?_⟩
      · rw [hlen, List.length_modify]
      · rw [hmarked, markedBits_modify hword hprobe.2]
        ext p
        simp only [Set.mem_union, Set.mem_insert_iff, Set.mem_ofPred_eq, List.exists_mem_cons_iff,
          position]
        tauto

theorem testProbes_eq (probes : List Nat) (hin : blockOffset + 8 ≤ bits.length) :
    ∃ found, testProbes bits blockOffset base step probes = .ok found ∧
      (found = true ↔ ∀ i ∈ probes, position blockOffset base step i ∈ markedBits bits) := by
  induction probes with
  | nil => exact ⟨true, rfl, by simp⟩
  | cons i probes ih =>
      have hprobe := probe_lt base step i
      have hword : blockOffset + (probe base step i).1 < bits.length := by omega
      have hget := List.getElem?_eq_getElem hword
      have hindex := Slice.index_eq_ok.mpr hget
      have hmem : position blockOffset base step i ∈ markedBits bits ↔
          bits[blockOffset + (probe base step i).1].toNat.testBit (probe base step i).2 = true := by
        simp [position, markedBits, hget]
      by_cases hzero : bits[blockOffset + (probe base step i).1] &&& mask (probe base step i).2 = 0
      · refine ⟨false, bind_eq_ok.mpr ⟨_, hindex, if_pos hzero⟩, ?_⟩
        rw [List.forall_mem_cons, hmem, (and_mask_eq_zero hprobe.2).mp hzero]
        simp
      · obtain ⟨found, htest, hfound⟩ := ih
        refine ⟨found, bind_eq_ok.mpr ⟨_, hindex, (if_neg hzero).trans htest⟩, ?_⟩
        have hset : bits[blockOffset + (probe base step i).1].toNat.testBit
            (probe base step i).2 = true := by
          rw [and_mask_eq_zero hprobe.2] at hzero
          simpa using hzero
        rw [List.forall_mem_cons, hmem, hset, hfound]
        simp

end Probes

/-! ## Valid filters -/

/-- The invariant of every filter that can be built. -/
structure Valid (filter : FastBlockedBloomFilter) : Prop where
  pos : 0 < filter.numBlocks.toNat
  blocks : filter.numBlocks.toNat ≤ 1048576
  words : filter.bits.length = 8 * filter.numBlocks.toNat
  hashes : 1 ≤ filter.numHashes ∧ filter.numHashes ≤ maxHashes

theorem tryFrom_of_lt {width : PointerWidth} {value : Nat} (h : value < 2 ^ 32) :
    width.tryFrom value = some value := by
  have hbits : 2 ^ 32 ≤ 2 ^ width.bits := by
    cases width
    · exact le_rfl
    · exact Nat.pow_le_pow_right (by decide) (by decide)
  exact if_pos (h.trans_le hbits)

theorem validatedWordLen_eq_ok {numBlocks : UInt64} {count : UInt32} {wordLen : Nat} :
    validatedWordLen platform numBlocks = .ok (count, wordLen) ↔
      0 < numBlocks.toNat ∧ numBlocks.toNat ≤ 1048576 ∧ count = numBlocks.toUInt32 ∧
        wordLen = 8 * numBlocks.toNat := by
  simp only [validatedWordLen, bind_eq_ok, ensure_eq_ok, okOr_eq_ok, pure_eq_ok, Prod.mk.injEq]
  have hsmall : numBlocks.toNat < 2 ^ 32 → numBlocks.toUInt32.toNat = numBlocks.toNat := by
    intro hlt
    rw [UInt64.toNat_toUInt32, Nat.mod_eq_of_lt hlt]
  have hzero : numBlocks.toUInt32 ≠ 0 ↔ numBlocks.toUInt32.toNat ≠ 0 := by
    rw [ne_eq, ← UInt32.toNat_inj]
    rfl
  have hlimit : numBlocks.toUInt32 ≤ maxBlocks ↔ numBlocks.toUInt32.toNat ≤ 1048576 :=
    UInt32.le_iff_toNat_le
  constructor
  · rintro ⟨_, hlt, _, hne, _, hle, blocks, hblocks, words, hwords, rfl, rfl⟩
    rw [hzero, hsmall hlt] at hne
    rw [hlimit, hsmall hlt] at hle
    rw [hsmall hlt, tryFrom_of_lt hlt, Option.some.injEq] at hblocks
    rw [← hblocks, wordsPerBlock, tryFrom_of_lt (by omega), Option.some.injEq] at hwords
    exact ⟨by omega, hle, rfl, by omega⟩
  · rintro ⟨hpos, hle, rfl, rfl⟩
    have hlt : numBlocks.toNat < 2 ^ 32 := by omega
    rw [hzero, hlimit, hsmall hlt]
    refine ⟨(), hlt, (), by omega, (), hle, _, tryFrom_of_lt hlt, _,
      tryFrom_of_lt (by rw [wordsPerBlock]; omega), rfl, ?_⟩
    rw [wordsPerBlock, Nat.mul_comm]

theorem validateInternal_eq_ok {filter : FastBlockedBloomFilter} :
    filter.validateInternal platform = .ok () ↔ Valid filter := by
  simp only [validateInternal, bind_eq_ok, ensure_eq_ok, Prod.exists, validatedWordLen_eq_ok,
    UInt32.toNat_toUInt64]
  constructor
  · rintro ⟨_, _, ⟨hpos, hle, -, rfl⟩, _, hwords, hhashes⟩
    exact ⟨hpos, hle, hwords, hhashes⟩
  · rintro ⟨hpos, hle, hwords, hhashes⟩
    exact ⟨_, _, ⟨hpos, hle, rfl, rfl⟩, (), hwords, hhashes⟩

theorem calculateBlockOffset_eq (platform : Platform) {numBlocks : UInt32}
    (hpos : 0 < numBlocks.toNat) (hle : numBlocks.toNat ≤ 1048576) (h1 : UInt64) :
    ∃ blockOffset, calculateBlockOffset platform h1 numBlocks = some blockOffset ∧
      blockOffset + 8 ≤ 8 * numBlocks.toNat ∧ blockOffset = 8 * (h1.toNat % numBlocks.toNat) := by
  have hne : numBlocks ≠ 0 := by
    rintro rfl
    simp at hpos
  have hmod : (h1 % numBlocks.toUInt64).toNat = h1.toNat % numBlocks.toNat := by
    rw [UInt64.toNat_mod, UInt32.toNat_toUInt64]
  have hlt : h1.toNat % numBlocks.toNat < numBlocks.toNat := Nat.mod_lt _ hpos
  refine ⟨8 * (h1.toNat % numBlocks.toNat), ?_, by omega, rfl⟩
  rw [calculateBlockOffset, if_neg hne, hmod, tryFrom_of_lt (by omega)]
  show platform.pointerWidth.tryFrom (h1.toNat % numBlocks.toNat * wordsPerBlock) = _
  rw [tryFrom_of_lt (by rw [wordsPerBlock]; omega), wordsPerBlock, Nat.mul_comm]

/-! ## Construction -/

theorem clamp_hashes (count : UInt8) :
    1 ≤ min (max count 1) maxHashes ∧ min (max count 1) maxHashes ≤ maxHashes := by
  have hmax : 1 ≤ max count 1 := by
    show 1 ≤ if count ≤ 1 then 1 else count
    split
    next => exact UInt8.le_refl 1
    next hgt => exact UInt8.le_of_lt (UInt8.not_le.mp hgt)
  exact ⟨Std.le_min_iff.mpr ⟨hmax, by decide⟩, Std.min_le_right⟩

theorem Valid.of_new {expectedEntries : Nat} {rate : Float} {filter : FastBlockedBloomFilter}
    (h : new platform expectedEntries rate = .ok filter) : Valid filter := by
  simp only [new, bind_eq_ok, ensure_eq_ok, okOr_eq_ok, pure_eq_ok, Prod.exists] at h
  obtain ⟨_, _, _, _, _, _, _, _, _, _, blocks, _, count, wordLen, hlen, bits, hbits, rfl⟩ := h
  obtain ⟨hpos, hle, rfl, rfl⟩ := validatedWordLen_eq_ok.mp hlen
  simp only [allocateZeroedWords, bind_eq_ok, pure_eq_ok] at hbits
  obtain ⟨_, _, rfl⟩ := hbits
  have hcount : blocks.toUInt32.toNat = blocks.toNat := by
    rw [UInt64.toNat_toUInt32, Nat.mod_eq_of_lt (by omega)]
  refine ⟨?_, ?_, ?_, ?_⟩
  · rw [hcount]
    exact hpos
  · rw [hcount]
    exact hle
  · rw [hcount, List.length_replicate]
  · exact clamp_hashes _

theorem Valid.of_fromBytes {bytes : List UInt8} {numEntries : UInt64} {numHashes : UInt8}
    {filter : FastBlockedBloomFilter}
    (h : fromBytes platform bytes numEntries numHashes = .ok filter) : Valid filter := by
  simp only [fromBytes, bind_eq_ok, ensure_eq_ok, pure_eq_ok, Prod.exists] at h
  obtain ⟨_, hhashes, _, _, _, _, count, wordLen, hlen, _, _, _, hwords, rfl⟩ := h
  obtain ⟨hpos, hle, rfl, rfl⟩ := validatedWordLen_eq_ok.mp hlen
  have hcount : (UInt64.ofNat (bytes.length / 64)).toUInt32.toNat =
      (UInt64.ofNat (bytes.length / 64)).toNat := by
    rw [UInt64.toNat_toUInt32, Nat.mod_eq_of_lt (by omega)]
  exact ⟨hcount ▸ hpos, hcount ▸ hle, hcount ▸ hwords, hhashes⟩

/-! ## The codec -/

theorem leWords_toBytes (words : List UInt64) : leWords (words.flatMap toLeBytes) = words := by
  induction words with
  | nil => rfl
  | cons word words ih =>
      have hhead : leWords (toLeBytes word ++ words.flatMap toLeBytes) =
          fromLeBytes (toLeBytes word) :: leWords (words.flatMap toLeBytes) := rfl
      rw [List.flatMap_cons, hhead, fromLeBytes_toLeBytes, ih]

theorem length_toBytes (filter : FastBlockedBloomFilter) :
    filter.toBytes.length = 8 * filter.bits.length := by
  rw [toBytes, List.length_flatMap]
  simp [Nat.mul_comm]

/-- A valid filter comes back from its bytes if its words can be allocated. -/
theorem Valid.fromBytes_toBytes {filter : FastBlockedBloomFilter} (h : Valid filter)
    (hreserve : platform.reserve filter.bits.length = .ok ()) :
    fromBytes platform filter.toBytes filter.numEntries filter.numHashes = .ok filter := by
  have hpos := h.pos
  have hle := h.blocks
  have hwords := h.words
  have hlen := length_toBytes filter
  have hraw : filter.toBytes.length / 64 = filter.numBlocks.toNat := by omega
  have hcount : (UInt64.ofNat filter.numBlocks.toNat).toNat = filter.numBlocks.toNat :=
    UInt64.toNat_ofNat_of_lt' (by show _ < 2 ^ 64; omega)
  have hnarrow : filter.numBlocks = (UInt64.ofNat filter.numBlocks.toNat).toUInt32 := by
    apply UInt32.toNat_inj.mp
    rw [UInt64.toNat_toUInt32, hcount, Nat.mod_eq_of_lt (by omega)]
  have hvalidated : validatedWordLen platform (UInt64.ofNat (filter.toBytes.length / 64)) =
      .ok (filter.numBlocks, filter.bits.length) := by
    rw [validatedWordLen_eq_ok, hraw, hcount]
    exact ⟨hpos, hle, hnarrow, hwords⟩
  have hbytes : filter.toBytes ≠ [] := by
    intro hnil
    rw [hnil, List.length_nil] at hlen
    omega
  simp only [fromBytes, bind_eq_ok, ensure_eq_ok, pure_eq_ok, Prod.exists]
  refine ⟨(), h.hashes, (), ⟨hbytes, by omega⟩, (), by omega, _, _, hvalidated, (), ?_, (), ?_, ?_⟩
  · rw [tryReserve, hreserve]
    rfl
  · rw [toBytes, leWords_toBytes]
  · rw [toBytes, leWords_toBytes]

/-! ## Insertion and lookup -/

/-- The positions of a key in a filter with these parameters. -/
def positions (numBlocks : UInt32) (numHashes : UInt8) (key : List UInt8) : Set (Nat × Nat) :=
  {p | ∃ i ∈ List.range numHashes.toNat,
    p = position (8 * ((Murmur3.hash key 0).1.toNat % numBlocks.toNat))
      (probeBase (Murmur3.hash key 0).1) (probeStep (Murmur3.hash key 0).2) i}

/-- The filter after a key was inserted. -/
structure Inserted (filter : FastBlockedBloomFilter) (key : List UInt8)
    (filter' : FastBlockedBloomFilter) : Prop where
  numBlocks : filter'.numBlocks = filter.numBlocks
  numHashes : filter'.numHashes = filter.numHashes
  length : filter'.bits.length = filter.bits.length
  nonempty : filter'.numEntries ≠ 0
  marked : markedBits filter'.bits = BloomFilter.insert
    (positions filter.numBlocks filter.numHashes) (markedBits filter.bits) key

theorem checkedAdd_one_ne_zero {entries next : UInt64} (h : checkedAdd entries 1 = some next) :
    next ≠ 0 := by
  unfold checkedAdd at h
  split at h
  next hlt =>
    obtain rfl := Option.some.inj h
    rintro hzero
    have hnat := congrArg UInt64.toNat hzero
    rw [UInt64.toNat_add, Nat.mod_eq_of_lt hlt] at hnat
    simp at hnat
  next => cases h

/-- An insertion marks the positions of its key, or it fails and changes nothing. -/
theorem Valid.insertBytes_eq {filter : FastBlockedBloomFilter} (h : Valid filter)
    (platform : Platform) (key : List UInt8) :
    ∃ result filter', insertBytes platform filter key = .ok (result, filter') ∧
      ((result = .ok () ∧ Inserted filter key filter') ∨
        ((∃ error, result = .error error) ∧ filter' = filter)) := by
  unfold insertBytes
  rw [validateInternal_eq_ok.mpr h]
  cases hnext : checkedAdd filter.numEntries 1 with
  | none => exact ⟨_, _, rfl, Or.inr ⟨⟨_, rfl⟩, rfl⟩⟩
  | some next =>
      obtain ⟨blockOffset, hoffset, hin, hvalue⟩ :=
        calculateBlockOffset_eq platform h.pos h.blocks (Murmur3.hash key 0).1
      obtain ⟨bits, hset, hlen, hmarked⟩ :=
        setProbes_eq blockOffset (probeBase (Murmur3.hash key 0).1)
          (probeStep (Murmur3.hash key 0).2) (List.range filter.numHashes.toNat)
          (hin.trans_eq h.words.symm)
      refine ⟨.ok (), { filter with bits := bits, numEntries := next }, ?_, Or.inl ⟨rfl, ?_⟩⟩
      · refine bind_eq_ok.mpr ⟨_, Murmur.murmur3_eq key 0, ?_⟩
        simp only [hoffset]
        exact bind_eq_ok.mpr ⟨_, hset, rfl⟩
      · refine ⟨rfl, rfl, hlen, checkedAdd_one_ne_zero hnext, ?_⟩
        rw [hmarked, hvalue]
        rfl

theorem Inserted.valid {filter filter' : FastBlockedBloomFilter} {key : List UInt8}
    (hinserted : Inserted filter key filter') (h : Valid filter) : Valid filter' := by
  refine ⟨?_, ?_, ?_, ?_⟩
  · rw [hinserted.numBlocks]
    exact h.pos
  · rw [hinserted.numBlocks]
    exact h.blocks
  · rw [hinserted.length, hinserted.numBlocks]
    exact h.words
  · rw [hinserted.numHashes]
    exact h.hashes

/-- A lookup in a filter with entries reports the marked keys. -/
theorem Valid.containsBytes_eq {filter : FastBlockedBloomFilter} (h : Valid filter)
    (platform : Platform) (key : List UInt8) :
    ∃ found, containsBytes platform filter key = .ok found ∧
      (found = true ↔ filter.numEntries ≠ 0 ∧ BloomFilter.Reports
        (positions filter.numBlocks filter.numHashes) (markedBits filter.bits) key) := by
  unfold containsBytes
  by_cases hempty : filter.numEntries = 0
  · exact ⟨false, if_pos hempty, by simp [hempty]⟩
  · rw [if_neg hempty]
    obtain ⟨blockOffset, hoffset, hin, hvalue⟩ :=
      calculateBlockOffset_eq platform h.pos h.blocks (Murmur3.hash key 0).1
    obtain ⟨found, htest, hfound⟩ :=
      testProbes_eq blockOffset (probeBase (Murmur3.hash key 0).1)
        (probeStep (Murmur3.hash key 0).2) (List.range filter.numHashes.toNat)
        (hin.trans_eq h.words.symm)
    refine ⟨found, ?_, ?_⟩
    · refine bind_eq_ok.mpr ⟨_, Murmur.murmur3_eq key 0, ?_⟩
      simp only [hoffset]
      exact htest
    · rw [hfound]
      constructor
      · intro hall
        refine ⟨hempty, ?_⟩
        rintro p ⟨i, hi, rfl⟩
        rw [← hvalue]
        exact hall i hi
      · rintro ⟨-, hall⟩ i hi
        have hp := hall ⟨i, hi, rfl⟩
        rwa [← hvalue] at hp

/-! ## Runs -/

/-- Insert the keys in turn, and collect what each insertion returned. -/
def insertAll (platform : Platform) : FastBlockedBloomFilter → List (List UInt8) →
    Except Slice.Panic (List (Except BloomError Unit) × FastBlockedBloomFilter)
  | self, [] => .ok ([], self)
  | self, key :: keys => do
      let (result, self) ← insertBytes platform self key
      let (results, self) ← insertAll platform self keys
      pure (result :: results, self)

/-- What a run of insertions leaves behind. -/
structure Grown (filter filter' : FastBlockedBloomFilter) : Prop where
  valid : Valid filter'
  numBlocks : filter'.numBlocks = filter.numBlocks
  numHashes : filter'.numHashes = filter.numHashes
  nonempty : filter.numEntries ≠ 0 → filter'.numEntries ≠ 0
  length : filter'.bits.length = filter.bits.length
  marked : markedBits filter.bits ⊆ markedBits filter'.bits

theorem Grown.trans {filter filter' filter'' : FastBlockedBloomFilter}
    (h : Grown filter filter') (h' : Grown filter' filter'') : Grown filter filter'' where
  valid := h'.valid
  numBlocks := h'.numBlocks.trans h.numBlocks
  numHashes := h'.numHashes.trans h.numHashes
  nonempty := fun hne => h'.nonempty (h.nonempty hne)
  length := h'.length.trans h.length
  marked := h.marked.trans h'.marked

theorem Valid.grown_self {filter : FastBlockedBloomFilter} (h : Valid filter) :
    Grown filter filter :=
  ⟨h, rfl, rfl, id, rfl, le_rfl⟩

theorem Inserted.grown {filter filter' : FastBlockedBloomFilter} {key : List UInt8}
    (hinserted : Inserted filter key filter') (h : Valid filter) : Grown filter filter' where
  valid := hinserted.valid h
  numBlocks := hinserted.numBlocks
  numHashes := hinserted.numHashes
  nonempty := fun _ => hinserted.nonempty
  length := hinserted.length
  marked := by
    rw [hinserted.marked]
    exact BloomFilter.subset_insert

/-- The key is reported. -/
structure Reported (filter : FastBlockedBloomFilter) (key : List UInt8) : Prop where
  nonempty : filter.numEntries ≠ 0
  reports : BloomFilter.Reports (positions filter.numBlocks filter.numHashes)
    (markedBits filter.bits) key

theorem Inserted.reported {filter filter' : FastBlockedBloomFilter} {key : List UInt8}
    (h : Inserted filter key filter') : Reported filter' key where
  nonempty := h.nonempty
  reports := by
    rw [h.numBlocks, h.numHashes, h.marked]
    exact BloomFilter.reports_insert

theorem Reported.grown {filter filter' : FastBlockedBloomFilter} {key : List UInt8}
    (h : Reported filter key) (hgrown : Grown filter filter') : Reported filter' key where
  nonempty := hgrown.nonempty h.nonempty
  reports := by
    rw [hgrown.numBlocks, hgrown.numHashes]
    exact h.reports.mono hgrown.marked

/-- Every run of insertions succeeds as a run, and reports the keys whose insertion succeeded. -/
theorem Valid.insertAll_eq {filter : FastBlockedBloomFilter} (h : Valid filter)
    (platform : Platform) (keys : List (List UInt8)) :
    ∃ results filter', insertAll platform filter keys = .ok (results, filter') ∧
      Grown filter filter' ∧ ∀ key, (key, .ok ()) ∈ keys.zip results → Reported filter' key := by
  induction keys generalizing filter with
  | nil => exact ⟨[], filter, rfl, h.grown_self, by simp⟩
  | cons key keys ih =>
      obtain ⟨result, next, hinsert, hstep⟩ := h.insertBytes_eq platform key
      have hnext : Grown filter next := by
        rcases hstep with ⟨-, hinserted⟩ | ⟨-, rfl⟩
        · exact hinserted.grown h
        · exact h.grown_self
      obtain ⟨results, filter', hrun, hgrown, hreported⟩ := ih hnext.valid
      refine ⟨result :: results, filter', ?_, hnext.trans hgrown, ?_⟩
      · exact bind_eq_ok.mpr ⟨_, hinsert, bind_eq_ok.mpr ⟨_, hrun, rfl⟩⟩
      · intro other hmem
        rw [List.zip_cons_cons, List.mem_cons] at hmem
        rcases hmem with hhead | htail
        · obtain ⟨rfl, rfl⟩ := Prod.mk.inj hhead
          rcases hstep with ⟨-, hinserted⟩ | ⟨⟨error, herror⟩, -⟩
          · exact hinserted.reported.grown hgrown
          · cases herror
        · exact hreported other htail

/-- A word keeps its bits if the marked bits stay. -/
theorem and_eq_of_markedBits_subset {bits bits' : List UInt64}
    (hlen : bits'.length = bits.length) (hsub : markedBits bits ⊆ markedBits bits') {i : Nat}
    {word : UInt64} (hword : bits[i]? = some word) :
    ∃ word', bits'[i]? = some word' ∧ word &&& word' = word := by
  have hi : i < bits'.length := by
    rw [hlen]
    exact (List.getElem?_eq_some_iff.mp hword).1
  refine ⟨bits'[i], List.getElem?_eq_getElem hi, ?_⟩
  apply UInt64.toNat_inj.mp
  rw [UInt64.toNat_and]
  apply Nat.eq_of_testBit_eq
  intro j
  rw [Nat.testBit_and]
  cases hbit : word.toNat.testBit j with
  | false => rfl
  | true =>
      obtain ⟨word', hword', hbit'⟩ := hsub (show (i, j) ∈ markedBits bits from ⟨word, hword, hbit⟩)
      obtain rfl := Option.some.inj ((List.getElem?_eq_getElem hi).symm.trans hword')
      simpa using hbit'

/-- A filter that one of the constructors returned. -/
def Built (platform : Platform) (filter : FastBlockedBloomFilter) : Prop :=
  (∃ expectedEntries rate, new platform expectedEntries rate = .ok filter) ∨
    ∃ bytes numEntries numHashes, fromBytes platform bytes numEntries numHashes = .ok filter

theorem Built.valid {filter : FastBlockedBloomFilter} (h : Built platform filter) :
    Valid filter := by
  rcases h with ⟨_, _, hnew⟩ | ⟨_, _, _, hfrom⟩
  · exact Valid.of_new hnew
  · exact Valid.of_fromBytes hfrom

/-- After any insertions into a filter that was built, the keys that were inserted are found, no bit
is cleared, every probe is inside, a failed insertion changes nothing, and the bytes give the filter
back. -/
theorem insertAll_sound {filter : FastBlockedBloomFilter} (h : Built platform filter)
    (keys : List (List UInt8)) :
    ∃ (results : List (Except BloomError Unit)) (filter' : FastBlockedBloomFilter),
      insertAll platform filter keys = .ok (results, filter') ∧
      (∀ key, (key, .ok ()) ∈ keys.zip results → containsBytes platform filter' key = .ok true) ∧
      (∀ (i : Nat) (word : UInt64), filter.bits[i]? = some word →
        ∃ word', filter'.bits[i]? = some word' ∧ word &&& word' = word) ∧
      (∀ key, (∃ result, insertBytes platform filter' key = .ok result) ∧
        ∃ found, containsBytes platform filter' key = .ok found) ∧
      (∀ key error filter'', insertBytes platform filter' key = .ok (.error error, filter'') →
        filter'' = filter') ∧
      ∀ platform' : Platform, platform'.reserve filter'.bits.length = .ok () →
        fromBytes platform' filter'.toBytes filter'.numEntries filter'.numHashes =
          .ok filter' := by
  obtain ⟨results, filter', hrun, hgrown, hreported⟩ :=
    h.valid.insertAll_eq platform keys
  refine ⟨results, filter', hrun, ?_, ?_, ?_, ?_, ?_⟩
  · intro key hmem
    obtain ⟨found, hcontains, hfound⟩ := hgrown.valid.containsBytes_eq platform key
    have hkey := hreported key hmem
    rwa [hfound.mpr ⟨hkey.nonempty, hkey.reports⟩] at hcontains
  · intro i word hword
    exact and_eq_of_markedBits_subset hgrown.length hgrown.marked hword
  · intro key
    obtain ⟨result, filter'', hinsert, -⟩ :=
      hgrown.valid.insertBytes_eq platform key
    obtain ⟨found, hcontains, -⟩ := hgrown.valid.containsBytes_eq platform key
    exact ⟨⟨_, hinsert⟩, found, hcontains⟩
  · intro key error filter'' hfailed
    obtain ⟨result, next, hinsert, hstep⟩ :=
      hgrown.valid.insertBytes_eq platform key
    have hsame := hinsert.symm.trans hfailed
    simp only [Except.ok.injEq, Prod.mk.injEq] at hsame
    obtain ⟨rfl, rfl⟩ := hsame
    rcases hstep with ⟨hok, -⟩ | ⟨-, hkept⟩
    · cases hok
    · exact hkept
  · intro platform' hreserve
    exact hgrown.valid.fromBytes_toBytes hreserve

def samplePlatform : Platform := ⟨.bits64, fun _ => .ok (), fun _ => ""⟩

theorem insertAll_sound_oneBlock :
    ∃ results filter', insertAll samplePlatform ⟨List.replicate 8 0, 1, 0, 7⟩ [[1], [2]] =
      .ok (results, filter') ∧ results = [.ok (), .ok ()] ∧
      containsBytes samplePlatform filter' [1] = .ok true := by
  have hbuilt : Built samplePlatform ⟨List.replicate 8 0, 1, 0, 7⟩ :=
    Or.inr ⟨List.replicate 64 0, 0, 7, by decide⟩
  obtain ⟨results, filter', hrun, hfound, -⟩ := insertAll_sound hbuilt [[1], [2]]
  have hresults : (insertAll samplePlatform ⟨List.replicate 8 0, 1, 0, 7⟩ [[1], [2]]).map
      Prod.fst = .ok [.ok (), .ok ()] := by
    decide
  rw [hrun] at hresults
  obtain rfl : results = [.ok (), .ok ()] := Except.ok.inj hresults
  exact ⟨_, filter', hrun, rfl, hfound [1] (by simp)⟩

end NixCache.Core.FastBlockedBloomFilter
