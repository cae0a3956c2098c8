import NixCache.Core.Index
import NixCache.Core.Proofs.Purge
import NixCache.Core.Proofs.SortedHashes
/-!
# Merging receipts

Every check of `merge_with` comes before its first assignment, and the check at its end cannot fail:
the entries of both receipts have the one origin that the receipts share.
-/

namespace NixCache.Core

open NixCache.Lib NixCache.Lib.Result

variable {hash : StoreHash} {roots other : List StoreHash}

namespace BuildReceipt

theorem Same.refl (receipt : BuildReceipt) : receipt.Same receipt :=
  ⟨rfl, rfl, rfl, rfl, rfl, rfl, fun _ => rfl, rfl, rfl⟩

/-! ## The GC roots -/

theorem mem_extendRoots : hash ∈ extendRoots roots other ↔ hash ∈ roots ∨ hash ∈ other := by
  rw [extendRoots, mem_destutter_insertionSort, List.mem_append]

theorem pairwise_extendRoots (roots other : List StoreHash) :
    (extendRoots roots other).Pairwise (· < ·) :=
  pairwise_destutter_insertionSort _

theorem extendRoots_assoc (a b c : List StoreHash) :
    extendRoots (extendRoots a b) c = extendRoots a (extendRoots b c) := by
  apply eq_of_pairwise_lt (pairwise_extendRoots _ _) (pairwise_extendRoots _ _)
  intro hash
  simp only [mem_extendRoots]
  exact or_assoc

theorem extendRoots_twice (a b : List StoreHash) :
    extendRoots (extendRoots a b) b = extendRoots a b := by
  apply eq_of_pairwise_lt (pairwise_extendRoots _ _) (pairwise_extendRoots _ _)
  intro hash
  simp only [mem_extendRoots]
  rw [or_assoc, or_self]

/-! ## Origins -/

variable {a b c : BuildReceipt}

/-- The receipt passes `validate_origin_consistency`. -/
def HasOneOrigin (receipt : BuildReceipt) : Prop := receipt.validateOriginConsistency = .ok ()

theorem hasOneOrigin_iff : a.HasOneOrigin ↔
    NarInfoMeta.whenSome a.origin (fun origin => liftType origin.validateStructure) = .ok () ∧
      ∀ hash entry, a.newEntries.lookup hash = some entry →
        validateEntryOrigin a.origin (hash, entry) = .ok () := by
  unfold HasOneOrigin validateOriginConsistency
  simp only [bind_eq_ok, checkAll_eq_ok, Prod.forall, HashMap.mem_toList_iff, exists_const]
  constructor
  · rintro ⟨_, horigin, hentries⟩
    exact ⟨horigin, hentries⟩
  · rintro ⟨horigin, hentries⟩
    exact ⟨(), horigin, hentries⟩

/-! ## The merged receipt -/

/-- What `merge_with` has assigned by its end. -/
def merged (a b : BuildReceipt) : BuildReceipt :=
  { a with
    newEntries := a.newEntries.extend b.newEntries
    activeGcRoots := extendRoots a.activeGcRoots b.activeGcRoots
    stats := a.stats.add b.stats
    publicKey := a.publicKey.or b.publicKey }

/-- The checks of `merge_with`. -/
def Mergeable (a b : BuildReceipt) : Prop :=
  a.HasOneOrigin ∧ b.HasOneOrigin ∧ a.system = b.system ∧ a.origin = b.origin

theorem Mergeable.hasOneOrigin (h : Mergeable a b) : (merged a b).HasOneOrigin := by
  obtain ⟨ha, hb, _, horigin⟩ := h
  rw [hasOneOrigin_iff] at ha hb ⊢
  refine ⟨ha.1, fun hash entry hentry => ?_⟩
  rw [merged, HashMap.lookup_extend, Option.or_eq_some_iff] at hentry
  rcases hentry with hentry | ⟨_, hentry⟩
  · have hchecked := hb.2 hash entry hentry
    rwa [← horigin] at hchecked
  · exact ha.2 hash entry hentry

/-- The checks of `merge_with` that come before its first assignment. -/
def checkMerge (a b : BuildReceipt) : Except CoreError Unit := do
  a.validateOriginConsistency
  b.validateOriginConsistency
  ensure (a.system = b.system)
    (.invalidReceipt "cannot merge receipts of different architectures")
  ensure (a.origin = b.origin) (.invalidReceipt "cannot merge receipts with different origins")

theorem checkMerge_eq_ok : checkMerge a b = .ok () ↔ Mergeable a b := by
  unfold checkMerge Mergeable HasOneOrigin
  simp only [bind_eq_ok, ensure_eq_ok, Unique.exists_iff]

theorem mergeWith_eq (a b : BuildReceipt) :
    a.mergeWith b = match checkMerge a b with
      | .error error => (.error error, a)
      | .ok () => ((merged a b).validateOriginConsistency, merged a b) := by
  unfold mergeWith checkMerge
  simp only [Mutating.run_get_bind, Mutating.run_ofExcept_bind, Mutating.run_modify_bind,
    Mutating.run_ofExcept]
  cases a.validateOriginConsistency with
  | error error => rfl
  | ok _ =>
      cases b.validateOriginConsistency with
      | error error => rfl
      | ok _ =>
          by_cases hsystem : a.system = b.system
          · by_cases horigin : a.origin = b.origin
            · rw [ensure_of _ hsystem, ensure_of _ horigin]
              rfl
            · rw [ensure_of _ hsystem]
              simp only [ensure, horigin, if_false]
              rfl
          · simp only [ensure, hsystem, if_false]
            rfl

theorem mergeWith_of_mergeable (h : Mergeable a b) : a.mergeWith b = (.ok (), merged a b) := by
  have hlast : (merged a b).validateOriginConsistency = .ok () := h.hasOneOrigin
  rw [mergeWith_eq, checkMerge_eq_ok.mpr h]
  exact Prod.ext hlast rfl

theorem mergeWith_of_not_mergeable (h : ¬ Mergeable a b) :
    ∃ error, a.mergeWith b = (.error error, a) := by
  rw [mergeWith_eq]
  cases hcheck : checkMerge a b with
  | error error => exact ⟨error, rfl⟩
  | ok _ => exact absurd (checkMerge_eq_ok.mp hcheck) h

end BuildReceipt

/-- The counters of `stats` are the sums of those of `a` and `b`. -/
structure BuildStats.IsSum (a b stats : BuildStats) : Prop where
  discoveredOutputs :
    stats.discoveredOutputs.toNat = a.discoveredOutputs.toNat + b.discoveredOutputs.toNat
  builtPaths : stats.builtPaths.toNat = a.builtPaths.toNat + b.builtPaths.toNat
  substitutedPaths :
    stats.substitutedPaths.toNat = a.substitutedPaths.toNat + b.substitutedPaths.toNat
  uploadedBlobs : stats.uploadedBlobs.toNat = a.uploadedBlobs.toNat + b.uploadedBlobs.toNat
  totalBytesUploaded :
    stats.totalBytesUploaded.toNat = a.totalBytesUploaded.toNat + b.totalBytesUploaded.toNat

/-- No counter of the two leaves its type when they are added. -/
structure BuildStats.Fits (a b : BuildStats) : Prop where
  discoveredOutputs : a.discoveredOutputs.toNat + b.discoveredOutputs.toNat < 2 ^ 64
  builtPaths : a.builtPaths.toNat + b.builtPaths.toNat < 2 ^ 64
  substitutedPaths : a.substitutedPaths.toNat + b.substitutedPaths.toNat < 2 ^ 64
  uploadedBlobs : a.uploadedBlobs.toNat + b.uploadedBlobs.toNat < 2 ^ 64
  totalBytesUploaded : a.totalBytesUploaded.toNat + b.totalBytesUploaded.toNat < 2 ^ 64

theorem toNat_add_of_lt {m n : UInt64} (h : m.toNat + n.toNat < 2 ^ 64) :
    (m + n).toNat = m.toNat + n.toNat := by
  rw [UInt64.toNat_add, Nat.mod_eq_of_lt h]

theorem BuildStats.isSum_add {a b : BuildStats} (h : a.Fits b) : IsSum a b (a.add b) where
  discoveredOutputs := toNat_add_of_lt h.discoveredOutputs
  builtPaths := toNat_add_of_lt h.builtPaths
  substitutedPaths := toNat_add_of_lt h.substitutedPaths
  uploadedBlobs := toNat_add_of_lt h.uploadedBlobs
  totalBytesUploaded := toNat_add_of_lt h.totalBytesUploaded

theorem BuildStats.add_assoc (a b c : BuildStats) : (a.add b).add c = a.add (b.add c) := by
  simp only [add, UInt64.add_assoc]

namespace BuildReceipt

/-- `final` is what `a` becomes when `b` is merged into it. -/
structure IsMerge (a b final : BuildReceipt) : Prop where
  version : final.version = a.version
  system : final.system = a.system
  repo : final.repo = a.repo
  origin : final.origin = a.origin
  timestamp : final.timestamp = a.timestamp
  publicKey : final.publicKey = a.publicKey.or b.publicKey
  entries : ∀ hash, final.newEntries.lookup hash =
    (b.newEntries.lookup hash).or (a.newEntries.lookup hash)
  increasing : final.activeGcRoots.Pairwise (· < ·)
  roots : ∀ hash, hash ∈ final.activeGcRoots ↔ hash ∈ a.activeGcRoots ∨ hash ∈ b.activeGcRoots
  stats : a.stats.IsSum b.stats final.stats

theorem isMerge_merged (h : a.stats.Fits b.stats) : IsMerge a b (merged a b) where
  version := rfl
  system := rfl
  repo := rfl
  origin := rfl
  timestamp := rfl
  publicKey := rfl
  entries := HashMap.lookup_extend a.newEntries b.newEntries
  increasing := pairwise_extendRoots _ _
  roots := fun _ => mem_extendRoots
  stats := BuildStats.isSum_add h

/-! ## Merging three receipts -/

/-- `a.merge_with(b)?`, as the receipt it yields. -/
def mergeInto (a b : BuildReceipt) : Except CoreError BuildReceipt :=
  match a.mergeWith b with
  | (.ok (), final) => .ok final
  | (.error error, _) => .error error

theorem mergeInto_eq_ok {final : BuildReceipt} :
    mergeInto a b = .ok final ↔ Mergeable a b ∧ final = merged a b := by
  unfold mergeInto
  by_cases h : Mergeable a b
  · rw [mergeWith_of_mergeable h]
    simp [h, eq_comm]
  · obtain ⟨error, herror⟩ := mergeWith_of_not_mergeable h
    rw [herror]
    simp [h]

/-- Both orders ask the same of the three receipts. -/
theorem mergeable_assoc : (Mergeable a b ∧ Mergeable (merged a b) c) ↔
    (Mergeable b c ∧ Mergeable a (merged b c)) := by
  constructor
  · rintro ⟨hab, _, hc, hsystem, horigin⟩
    have hbc : Mergeable b c :=
      ⟨hab.2.1, hc, hab.2.2.1.symm.trans hsystem, hab.2.2.2.symm.trans horigin⟩
    exact ⟨hbc, hab.1, hbc.hasOneOrigin, hab.2.2⟩
  · rintro ⟨hbc, ha, _, hsystem, horigin⟩
    have hab : Mergeable a b := ⟨ha, hbc.1, hsystem, horigin⟩
    exact ⟨hab, hab.hasOneOrigin, hbc.2.1, hsystem.trans hbc.2.2.1, horigin.trans hbc.2.2.2⟩

theorem merged_assoc (a b c : BuildReceipt) :
    (merged (merged a b) c).Same (merged a (merged b c)) where
  version := rfl
  system := rfl
  repo := rfl
  origin := rfl
  timestamp := rfl
  publicKey := Option.or_assoc
  entries := by
    intro hash
    simp only [merged, HashMap.lookup_extend, Option.or_assoc]
  roots := extendRoots_assoc _ _ _
  stats := BuildStats.add_assoc _ _ _

theorem mergeInto_bind_eq_ok {final : BuildReceipt} :
    (mergeInto a b >>= fun ab => mergeInto ab c) = .ok final ↔
      (Mergeable a b ∧ Mergeable (merged a b) c) ∧ final = merged (merged a b) c := by
  simp only [bind_eq_ok, mergeInto_eq_ok]
  constructor
  · rintro ⟨_, ⟨hab, rfl⟩, habc, rfl⟩
    exact ⟨⟨hab, habc⟩, rfl⟩
  · rintro ⟨⟨hab, habc⟩, rfl⟩
    exact ⟨_, ⟨hab, rfl⟩, habc, rfl⟩

theorem bind_mergeInto_eq_ok {final : BuildReceipt} :
    (mergeInto b c >>= mergeInto a) = .ok final ↔
      (Mergeable b c ∧ Mergeable a (merged b c)) ∧ final = merged a (merged b c) := by
  simp only [bind_eq_ok, mergeInto_eq_ok]
  constructor
  · rintro ⟨_, ⟨hbc, rfl⟩, habc, rfl⟩
    exact ⟨⟨hbc, habc⟩, rfl⟩
  · rintro ⟨⟨hbc, habc⟩, rfl⟩
    exact ⟨_, ⟨hbc, rfl⟩, habc, rfl⟩

/-- `merge_with` fails and changes nothing, or adds up the two receipts.  It is associative, and what
a second merge of the same receipt changes is neither an entry nor a root. -/
theorem mergeWith_lossless (a b : BuildReceipt) (hfits : a.stats.Fits b.stats) :
    ((∃ error, a.mergeWith b = (.error error, a)) ∨
      ∃ final, a.mergeWith b = (.ok (), final) ∧ IsMerge a b final) ∧
    (∀ c,
      ((∃ left, (mergeInto a b >>= fun ab => mergeInto ab c) = .ok left) ↔
        ∃ right, (mergeInto b c >>= mergeInto a) = .ok right) ∧
      ∀ left right, (mergeInto a b >>= fun ab => mergeInto ab c) = .ok left →
        (mergeInto b c >>= mergeInto a) = .ok right → left.Same right) ∧
    ∀ once twice, a.mergeWith b = once → once.2.mergeWith b = twice →
      twice.1 = once.1 ∧
      (∀ hash, twice.2.newEntries.lookup hash = once.2.newEntries.lookup hash) ∧
      twice.2.activeGcRoots = once.2.activeGcRoots := by
  refine ⟨?_, fun c => ⟨?_, ?_⟩, ?_⟩
  · by_cases h : Mergeable a b
    · exact Or.inr ⟨_, mergeWith_of_mergeable h, isMerge_merged hfits⟩
    · exact Or.inl (mergeWith_of_not_mergeable h)
  · simp only [mergeInto_bind_eq_ok, bind_mergeInto_eq_ok, exists_and_left, exists_eq,
      and_true, mergeable_assoc]
  · intro left right hleft hright
    rw [(mergeInto_bind_eq_ok.mp hleft).2, (bind_mergeInto_eq_ok.mp hright).2]
    exact merged_assoc a b c
  · rintro once twice rfl rfl
    by_cases h : Mergeable a b
    · have hagain : Mergeable (merged a b) b := ⟨h.hasOneOrigin, h.2⟩
      rw [mergeWith_of_mergeable h, mergeWith_of_mergeable hagain]
      refine ⟨rfl, fun hash => ?_, extendRoots_twice _ _⟩
      simp only [merged, HashMap.lookup_extend]
      cases b.newEntries.lookup hash with
      | none => rfl
      | some entry => rfl
    · obtain ⟨error, herror⟩ := mergeWith_of_not_mergeable h
      rw [herror, herror]
      exact ⟨rfl, fun _ => rfl, rfl⟩

/-- A receipt with the entries and the roots of some sample hashes. -/
def sampleReceipt (hashes : List Char) : BuildReceipt where
  version := receiptVersion
  system := .x86_64Linux
  repo := "owner/repo"
  origin := none
  timestamp := "2024-01-01T00:00:00Z"
  publicKey := none
  newEntries := HashMap.ofList (hashes.map fun c => (sampleHash c, sampleEntry c []))
  activeGcRoots := hashes.map sampleHash
  stats := ⟨1, 1, 0, 1, 100⟩

theorem mergeWith_lossless_sample :
    ∃ final, (sampleReceipt ['1', '2']).mergeWith (sampleReceipt ['2', '3']) = (.ok (), final) ∧
      IsMerge (sampleReceipt ['1', '2']) (sampleReceipt ['2', '3']) final := by
  have hfits : (sampleReceipt ['1', '2']).stats.Fits (sampleReceipt ['2', '3']).stats :=
    ⟨by decide, by decide, by decide, by decide, by decide⟩
  rcases (mergeWith_lossless (sampleReceipt ['1', '2']) (sampleReceipt ['2', '3']) hfits).1 with h | h
  · obtain ⟨error, herror⟩ := h
    have hok : ((sampleReceipt ['1', '2']).mergeWith (sampleReceipt ['2', '3'])).1 = .ok () := by
      rfl
    rw [herror] at hok
    cases hok
  · exact h

end BuildReceipt

end NixCache.Core
