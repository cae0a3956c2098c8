import NixCache.Core.Proofs.Purge
/-!
# Pruning the roots

`prune_broken_gc_roots` walks the closure of each root over the entries that are not purged.  A root
stays when the walk meets no purged hash and no hash without an entry, and then the walk has seen
all that the root reaches.
-/

namespace NixCache.Core

open NixCache.Lib NixCache.Lib.Result NixCache.Lib.Worklist

variable {entries : HashMap StoreHash IndexEntry} {gcRoots : HashMap SystemArch (List StoreHash)}
  {purged : Finset StoreHash} {updated : HashMap SystemArch (List StoreHash)}

/-! ## Sound roots -/

/-- Everything reachable from `root` is in the index and survives the purge. -/
def SoundAfter (entries : HashMap StoreHash IndexEntry) (purged : Finset StoreHash)
    (root : StoreHash) : Prop :=
  ∀ hash, ReachableFrom entries [root] hash → hash ∈ entries ∧ hash ∉ purged

theorem references_filter_subset {p : StoreHash → Bool} {x y : StoreHash}
    (h : y ∈ references (entries.filter p) x) : y ∈ references entries x := by
  rw [references, HashMap.lookup_filter] at h
  split at h
  · exact h
  · simp at h

theorem references_filter_of {p : StoreHash → Bool} {x : StoreHash} (h : p x = true) :
    references (entries.filter p) x = references entries x := by
  rw [references, HashMap.lookup_filter, if_pos h, references]

theorem rootIsSound_iff {pairs : List (StoreHash × List StoreHash)}
    (h : graphPairs (entries.filter (· ∉ purged)) = .ok pairs) {root : StoreHash}
    (hroot : root ∉ purged) :
    rootIsSound entries (HashMap.ofList pairs) purged root = true ↔
      SoundAfter entries purged root := by
  have hsucc : (fun x => ((HashMap.ofList pairs).lookup x).getD []) =
      references (entries.filter (· ∉ purged)) := neighbours_forward h
  have hnone : ∀ x, x ∉ (HashMap.ofList pairs).keys → (HashMap.ofList pairs).lookup x = none :=
    fun x hx => AList.lookup_eq_none.mpr fun hmem => hx (AList.mem_keys.mp hmem)
  rw [rootIsSound]
  refine (checkClosure_iff hnone [root]).trans ?_
  rw [hsucc]
  constructor
  · intro hclean hash hreach
    -- Along a path from a root that is not purged, the filtered graph has every edge.
    have hpath : Reaches (references (entries.filter (· ∉ purged))) [root] hash ∧
        hash ∈ entries ∧ hash ∉ purged := by
      refine Reaches.mem_of_closed (P := fun x =>
        Reaches (references (entries.filter (· ∉ purged))) [root] x ∧ x ∈ entries ∧ x ∉ purged)
        ?_ ?_ hreach
      · intro s hs
        rw [List.mem_singleton] at hs
        subst hs
        refine ⟨.seed (by simp), ?_, hroot⟩
        by_contra hmissing
        have hnone : (HashMap.ofList pairs).lookup s = none := by
          rw [lookup_forward h, HashMap.lookup_filter, AList.lookup_eq_none.mpr hmissing]
          simp
        have := (clean_of_none hnone).mp (hclean s (.seed (by simp)))
        simp [hmissing] at this
      · rintro x ⟨hx, hmem, hnot⟩ y hy
        obtain ⟨entry, hentry⟩ := HashMap.mem_iff_lookup.mp hmem
        have hedge : y ∈ references (entries.filter (· ∉ purged)) x := by
          rw [references_filter_of (by simpa using hnot)]
          exact hy
        have hsome : (HashMap.ofList pairs).lookup x = some entry.references := by
          rw [lookup_forward h, HashMap.lookup_filter, if_pos (by simpa using hnot), hentry]
          rfl
        have hok := (clean_of_some hsome).mp (hclean x hx)
        have hdep : y ∈ entry.references := by simpa [references, hentry] using hy
        have hy' := List.any_eq_false.mp hok y hdep
        simp only [Bool.or_eq_true, decide_eq_true_eq, not_or, not_not] at hy'
        exact ⟨hx.step hedge, hy'.2, hy'.1⟩
    exact hpath.2
  · intro hsound y hy
    have hreach : ReachableFrom entries [root] y :=
      Reaches.mem_of_closed (P := ReachableFrom entries [root]) (fun s hs => .seed hs)
        (fun x hx z hz => hx.step (references_filter_subset hz)) hy
    obtain ⟨hmem, hnot⟩ := hsound y hreach
    cases hlookup : (HashMap.ofList pairs).lookup y with
    | none =>
        rw [clean_of_none hlookup]
        simpa using hmem
    | some deps =>
        rw [clean_of_some hlookup, List.any_eq_false]
        intro dep hdep
        have hedge : dep ∈ references entries y := by
          apply references_filter_subset (p := (· ∉ purged))
          rw [← neighbours_forward h, neighbours, hlookup]
          exact hdep
        obtain ⟨hdepMem, hdepNot⟩ := hsound dep (hreach.step hedge)
        simp [hdepMem, hdepNot]

/-! ## The kept roots -/

open scoped Classical in
/-- The roots with a complete closure after the purge, in their order. -/
noncomputable def keptRoots (entries : HashMap StoreHash IndexEntry) (purged : Finset StoreHash)
    (roots : List StoreHash) : List StoreHash :=
  roots.filter fun root => decide (SoundAfter entries purged root)

theorem mem_keptRoots {roots : List StoreHash} {root : StoreHash} :
    root ∈ keptRoots entries purged roots ↔ root ∈ roots ∧ SoundAfter entries purged root := by
  simp [keptRoots]

open scoped Classical in
theorem validRoots_eq {pairs : List (StoreHash × List StoreHash)}
    (h : graphPairs (entries.filter (· ∉ purged)) = .ok pairs) (roots : List StoreHash) :
    validRoots entries (HashMap.ofList pairs) purged roots = keptRoots entries purged roots := by
  unfold validRoots keptRoots
  apply List.filter_congr
  intro root _
  rw [Bool.eq_iff_iff, Bool.and_eq_true, decide_eq_true_eq, decide_eq_true_eq]
  constructor
  · rintro ⟨hnot, hsound⟩
    exact (rootIsSound_iff h hnot).mp hsound
  · intro hsound
    have hnot := (hsound root (.seed (by simp))).2
    exact ⟨hnot, (rootIsSound_iff h hnot).mpr hsound⟩

theorem lookup_pruneBrokenGcRoots (h : pruneBrokenGcRoots entries gcRoots purged = .ok updated)
    (system : SystemArch) :
    updated.lookup system = (gcRoots.lookup system).bind fun roots =>
      if keptRoots entries purged roots = [] then none else some (keptRoots entries purged roots) := by
  simp only [pruneBrokenGcRoots, bind_eq_ok, pure_eq_ok] at h
  obtain ⟨pairs, hpairs, rfl⟩ := h
  rw [HashMap.lookup_filter, HashMap.lookup_mapValues]
  cases hroots : gcRoots.lookup system with
  | none => simp
  | some roots =>
      simp only [Option.map_some, Option.any_some, validRoots_eq hpairs roots, Option.bind_some]
      by_cases hempty : keptRoots entries purged roots = []
      · simp [hempty]
      · simp [hempty]

/-- The roots listed for a system, none when the map has no such key. -/
def rootsOf (gcRoots : HashMap SystemArch (List StoreHash)) (system : SystemArch) :
    List StoreHash :=
  (gcRoots.lookup system).getD []

/-- What `prune_broken_gc_roots` is for. -/
structure IsPruned (entries : HashMap StoreHash IndexEntry)
    (gcRoots : HashMap SystemArch (List StoreHash)) (purged : Finset StoreHash)
    (updated : HashMap SystemArch (List StoreHash)) : Prop where
  /-- A root stays exactly when all it reaches is in the index and not purged. -/
  kept : ∀ system root, root ∈ rootsOf updated system ↔ root ∈ rootsOf gcRoots system ∧
    ∀ hash, ReachableFrom entries [root] hash → hash ∈ entries ∧ hash ∉ purged
  /-- The order and the multiplicity of the kept roots are those of the old list. -/
  ordered : ∀ system, rootsOf updated system = keptRoots entries purged (rootsOf gcRoots system)
  /-- The keys are the systems that keep a root. -/
  present : ∀ system, system ∈ updated ↔ ∃ root, root ∈ rootsOf updated system

theorem rootsOf_pruneBrokenGcRoots (h : pruneBrokenGcRoots entries gcRoots purged = .ok updated)
    (system : SystemArch) :
    rootsOf updated system = keptRoots entries purged (rootsOf gcRoots system) := by
  rw [rootsOf, rootsOf, lookup_pruneBrokenGcRoots h]
  cases gcRoots.lookup system with
  | none => simp [keptRoots]
  | some roots =>
      rw [Option.bind_some, Option.getD_some]
      split
      · rename_i hempty
        rw [hempty, Option.getD_none]
      · rw [Option.getD_some]

/-- Pruning is exact, on every graph: with cycles, with purged and with missing hashes, and with
roots that are missing themselves. -/
theorem pruneBrokenGcRoots_exact (h : pruneBrokenGcRoots entries gcRoots purged = .ok updated) :
    IsPruned entries gcRoots purged updated where
  kept system root := by
    rw [rootsOf_pruneBrokenGcRoots h, mem_keptRoots, SoundAfter]
  ordered := rootsOf_pruneBrokenGcRoots h
  present system := by
    rw [HashMap.mem_iff_lookup]
    constructor
    · rintro ⟨kept, hkept⟩
      have hne : kept ≠ [] := by
        rw [lookup_pruneBrokenGcRoots h] at hkept
        obtain ⟨roots, -, hroots⟩ := Option.bind_eq_some_iff.mp hkept
        split at hroots
        · cases hroots
        · rename_i hne
          cases hroots
          exact hne
      rw [rootsOf, hkept, Option.getD_some]
      exact List.exists_mem_of_ne_nil kept hne
    · rintro ⟨root, hroot⟩
      cases hlookup : updated.lookup system with
      | none => simp [rootsOf, hlookup] at hroot
      | some kept => exact ⟨kept, rfl⟩

/-- Two paths on a cycle, and one with a reference that is not in the index. -/
def prunedEntries : HashMap StoreHash IndexEntry :=
  HashMap.ofList
    [(sampleHash '1', sampleEntry '1' [sampleHash '2']),
      (sampleHash '2', sampleEntry '2' [sampleHash '1']),
      (sampleHash '3', sampleEntry '3' [sampleHash '4'])]

def prunedRoots : HashMap SystemArch (List StoreHash) :=
  HashMap.ofList
    [(.x86_64Linux, [sampleHash '1', sampleHash '3', sampleHash '2', sampleHash '1']),
      (.aarch64Linux, [sampleHash '4'])]

theorem pruneBrokenGcRoots_exact_prunedEntries : ∃ updated,
    pruneBrokenGcRoots prunedEntries prunedRoots ∅ = .ok updated ∧
    rootsOf updated .x86_64Linux = [sampleHash '1', sampleHash '2', sampleHash '1'] ∧
    IsPruned prunedEntries prunedRoots ∅ updated :=
  ⟨_, rfl, by decide, pruneBrokenGcRoots_exact rfl⟩

/-- The roots of all systems. -/
def allRoots (gcRoots : HashMap SystemArch (List StoreHash)) : List StoreHash :=
  gcRoots.values.flatten

theorem mem_allRoots {hash : StoreHash} :
    hash ∈ allRoots gcRoots ↔ ∃ sys roots, gcRoots.lookup sys = some roots ∧ hash ∈ roots := by
  simp only [allRoots, List.mem_flatten, HashMap.mem_values_iff]
  constructor
  · rintro ⟨roots, ⟨sys, hroots⟩, hmem⟩
    exact ⟨sys, roots, hroots, hmem⟩
  · rintro ⟨sys, roots, hroots, hmem⟩
    exact ⟨roots, ⟨sys, hroots⟩, hmem⟩

theorem mem_allRoots_pruneBrokenGcRoots
    (h : pruneBrokenGcRoots entries gcRoots purged = .ok updated) {root : StoreHash} :
    root ∈ allRoots updated ↔ root ∈ allRoots gcRoots ∧ SoundAfter entries purged root := by
  rw [mem_allRoots, mem_allRoots]
  simp only [lookup_pruneBrokenGcRoots h]
  constructor
  · rintro ⟨system, kept, hkept, hmem⟩
    obtain ⟨roots, hroots, hkept⟩ := Option.bind_eq_some_iff.mp hkept
    split at hkept
    · cases hkept
    · cases hkept
      exact ⟨⟨system, roots, hroots, (mem_keptRoots.mp hmem).1⟩, (mem_keptRoots.mp hmem).2⟩
  · rintro ⟨⟨system, roots, hroots, hmem⟩, hsound⟩
    have hkept : root ∈ keptRoots entries purged roots := mem_keptRoots.mpr ⟨hmem, hsound⟩
    refine ⟨system, keptRoots entries purged roots, ?_, hkept⟩
    rw [hroots, Option.bind_some, if_neg (List.ne_nil_of_mem hkept)]

end NixCache.Core
