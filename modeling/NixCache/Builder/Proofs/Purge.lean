import NixCache.Builder.Proofs.Loading
/-!
# Purging is exact

The shards of an architecture are rewritten after a purge when their number of entries has changed.
The readers have checked that number and the place of every entry, and a purge only removes entries,
so no change is missed.
-/

-- the linter evaluates the types of hypotheses, and with them the range of the shards
set_option linter.constructorNameAsVariable false

namespace NixCache.Builder

open NixCache.Lib NixCache.Lib.Result NixCache.Core NixCache.Oci NixCache.Oci.IndexClient
open NixCache.Lib.Program (Trace)

variable {X : OciCrates} {client : OciClient} {args : PurgeArgs} {arch : LoadedArch}
  {purged : List StoreHash} {base : Nat → ShardDataPayload} {trace : Trace Request Reply}

/-! ## The program -/

/-- The steps of `publishArch` before it pushes the root. -/
def rewriteArch (X : OciCrates) (client : OciClient) (args : PurgeArgs) (purged : List StoreHash)
    (updatedRoots : List StoreHash) (arch : LoadedArch) : Step Compaction := do
  let kept := arch.entries.filter fun hash => hash ∉ purged
  let state ← Action.foldM (rewriteShard X client (partitionEntriesByShard kept))
    ⟨arch.root, []⟩ (List.range numShards)
  let root ← liftResult (finishPurgedRoot X args arch.system updatedRoots state.root)
  pure ⟨root, state.pushed⟩

/-- What is published for an architecture was rewritten. -/
theorem runs_publishArch_ok {result : PurgeEvaluationResult} {published : Published}
    (h : (publishArch X client args result arch).Runs trace (.ok published)) :
    ∃ t rest, trace = t ++ rest ∧ (rewriteArch X client args result.purgedHashes
      ((result.updatedGcRoots.lookup arch.system).getD []) arch).Runs t
      (.ok ⟨published.root, published.pushed⟩) := by
  unfold rewriteArch
  unfold publishArch at h
  generalize List.range numShards = ids at *
  obtain ⟨loop, t₁, state, rfl, hloop, h⟩ := Action.runs_bind_ok.mp h
  obtain ⟨final, hfinal, h⟩ := Action.runs_ofExcept_bind_ok.mp h
  obtain ⟨push, t₂, digest, rfl, hpush, h⟩ := Action.runs_bind_ok.mp h
  obtain rfl := Except.ok.inj (Action.runs_pure.mp h).2
  refine ⟨loop ++ [], push ++ t₂, by simp, Action.Runs.bind hloop ?_⟩
  exact Action.Runs.ofExcept_bind hfinal ⟨rfl, rfl⟩

/-- The entries that a purge leaves. -/
def keptEntries (arch : LoadedArch) (purged : List StoreHash) : HashMap StoreHash IndexEntry :=
  arch.entries.filter fun hash => hash ∉ purged

/-- A payload of its own for the entries of a shard. -/
def keptPayload (kept : HashMap StoreHash IndexEntry) (id : Nat) : ShardDataPayload :=
  { emptyPayload id with entries := entriesIn kept id }

/-- What one iteration makes of a shard: the empty one, one with fewer entries, or nothing. -/
def RewritesSlot (X : OciCrates) (kept : HashMap StoreHash IndexEntry) (trace : Trace Request Reply)
    (id : Nat) (old new : ShardDescriptor) (payloads : List ShardDataPayload) : Prop :=
  if (entriesIn kept id).size = 0 then
    new = emptyDescriptor X.toCrates (UInt16.ofNat id) ∧ payloads = []
  else if old.entryCount.toNat ≠ (entriesIn kept id).size then
    payloads = [keptPayload kept id] ∧ new.shardId = old.shardId ∧
      IsPushed X trace new (keptPayload kept id)
  else new = old ∧ payloads = []

section

variable {id : Nat} {old new : ShardDescriptor} {payloads : List ShardDataPayload}

/-- A slot is left alone, emptied or pushed anew, according to what the purge takes of it. -/
theorem RewritesSlot.cases (h : IsLoaded X client arch base)
    (hget : arch.root.shards[id]? = some old)
    (hslot : RewritesSlot X (keptEntries arch purged) trace id old new payloads) :
    ((entriesIn (keptEntries arch purged) id).size = (base id).entries.size ∧ new = old) ∨
    ((entriesIn (keptEntries arch purged) id).size ≠ (base id).entries.size ∧
      (entriesIn (keptEntries arch purged) id).size = 0 ∧
      new = emptyDescriptor X.toCrates (UInt16.ofNat id)) ∨
    ((entriesIn (keptEntries arch purged) id).size ≠ (base id).entries.size ∧
      (entriesIn (keptEntries arch purged) id).size ≠ 0 ∧ new.shardId = old.shardId ∧
      payloads = [keptPayload (keptEntries arch purged) id] ∧
      IsPushed X trace new (keptPayload (keptEntries arch purged) id)) := by
  have hcount := (h.shards id old hget).count
  unfold RewritesSlot at hslot
  by_cases hsame : (entriesIn (keptEntries arch purged) id).size = (base id).entries.size
  · refine Or.inl ⟨hsame, ?_⟩
    by_cases hzero : (entriesIn (keptEntries arch purged) id).size = 0
    · rw [if_pos hzero] at hslot
      have hempty : old.entryCount = 0 := UInt64.toNat_inj.mp (by rw [← hcount, ← hsame, hzero]; rfl)
      rw [hslot.1, eq_emptyDescriptor_at h.root.valid.shards hget hempty]
    · rw [if_neg hzero, if_neg (by omega)] at hslot
      exact hslot.1
  · by_cases hzero : (entriesIn (keptEntries arch purged) id).size = 0
    · rw [if_pos hzero] at hslot
      exact Or.inr (Or.inl ⟨hsame, hzero, hslot.1⟩)
    · rw [if_neg hzero, if_pos (by omega)] at hslot
      obtain ⟨hpayloads, hid, hpushed⟩ := hslot
      exact Or.inr (Or.inr ⟨hsame, hzero, hid, hpayloads, hpushed⟩)

end

/-! ## The purge of one architecture -/

end NixCache.Builder
