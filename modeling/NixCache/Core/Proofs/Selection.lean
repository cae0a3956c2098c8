import NixCache.Core.Purge
/-!
# What the query engine selects

`evaluate_cache_query` walks two graphs with two queues.  This module says what it computes without
them: an entry is selected when the scope matches it outside the protected closure, or when a
cascade reaches it from a selected hash without entering that closure.
-/

namespace NixCache.Core

open NixCache.Lib NixCache.Lib.Result NixCache.Lib.Worklist

variable {X : Crates} {entries : HashMap StoreHash IndexEntry}
  {gcRoots : HashMap SystemArch (List StoreHash)} {selector : CacheSelector}

/-! ## The reference graph -/

/-- The hashes an entry references; none when one of its references does not parse. -/
def IndexEntry.references (entry : IndexEntry) : List StoreHash :=
  entry.narinfoMeta.referenceHashes.toOption.getD []

/-- The references of the entry stored under `hash`. -/
def references (entries : HashMap StoreHash IndexEntry) (hash : StoreHash) : List StoreHash :=
  ((entries.lookup hash).map IndexEntry.references).getD []

/-- `y` can be reached from `x` by references that the index resolves. -/
def ReachableFrom (entries : HashMap StoreHash IndexEntry) (roots : List StoreHash)
    (y : StoreHash) : Prop :=
  Reaches (references entries) roots y

/-- Every reference of every entry parses. -/
def ReferencesParse (entries : HashMap StoreHash IndexEntry) : Prop :=
  ∀ hash entry, entries.lookup hash = some entry → ∃ deps, entry.narinfoMeta.referenceHashes = .ok deps

theorem entryReferences_eq_ok {entry : StoreHash × IndexEntry} {pair : StoreHash × List StoreHash} :
    entryReferences entry = .ok pair ↔
      pair.1 = entry.1 ∧ entry.2.narinfoMeta.referenceHashes = .ok pair.2 := by
  simp only [entryReferences, liftType, bind_eq_ok, mapErr_eq_ok, pure_eq_ok]
  constructor
  · rintro ⟨deps, hdeps, rfl⟩
    exact ⟨rfl, hdeps⟩
  · rintro ⟨hhash, hdeps⟩
    exact ⟨pair.2, hdeps, by rw [← hhash]⟩

theorem graphPairs_map_fst {pairs : List (StoreHash × List StoreHash)}
    (h : graphPairs entries = .ok pairs) : pairs.map Prod.fst = entries.keys := by
  rw [graphPairs, collect_eq_ok] at h
  rw [← HashMap.map_fst_toList]
  generalize entries.toList = list at h ⊢
  induction h with
  | nil => rfl
  | cons hpair _ ih =>
      rw [List.map_cons, List.map_cons, ih, (entryReferences_eq_ok.mp hpair).1]

theorem mem_graphPairs {pairs : List (StoreHash × List StoreHash)}
    (h : graphPairs entries = .ok pairs) {hash : StoreHash} {deps : List StoreHash} :
    (hash, deps) ∈ pairs ↔ ∃ entry, entries.lookup hash = some entry ∧
      entry.narinfoMeta.referenceHashes = .ok deps := by
  rw [graphPairs, collect_eq_ok] at h
  have hmem : (hash, deps) ∈ pairs ↔ ∃ entry, (hash, entry) ∈ entries.toList ∧
      entry.narinfoMeta.referenceHashes = .ok deps := by
    generalize entries.toList = list at h ⊢
    induction h with
    | nil => simp
    | @cons entry pair _ _ hpair _ ih =>
        obtain ⟨hhash, hdeps⟩ := entryReferences_eq_ok.mp hpair
        rw [List.mem_cons, ih]
        constructor
        · rintro (rfl | ⟨e, he, hd⟩)
          · exact ⟨entry.2, by simp [show hash = entry.1 from hhash], hdeps⟩
          · exact ⟨e, List.mem_cons_of_mem _ he, hd⟩
        · rintro ⟨e, he, hd⟩
          rcases List.mem_cons.mp he with rfl | he
          · left
            rw [hd] at hdeps
            exact Prod.ext hhash.symm (Except.ok.inj hdeps)
          · exact Or.inr ⟨e, he, hd⟩
  rw [hmem]
  simp only [HashMap.mem_toList_iff]

theorem graphPairs_ok_iff :
    (∃ pairs, graphPairs entries = .ok pairs) ↔ ReferencesParse entries := by
  constructor
  · rintro ⟨pairs, h⟩ hash entry hentry
    have hkey : hash ∈ pairs.map Prod.fst := by
      rw [graphPairs_map_fst h]
      exact AList.mem_keys.mp (HashMap.mem_iff_lookup.mpr ⟨entry, hentry⟩)
    obtain ⟨⟨hash', deps⟩, hmem, rfl⟩ := List.mem_map.mp hkey
    obtain ⟨entry', hentry', hdeps⟩ := (mem_graphPairs h).mp hmem
    rw [hentry] at hentry'
    exact ⟨deps, by rw [Option.some.inj hentry']; exact hdeps⟩
  · intro h
    refine ⟨entries.toList.map fun entry => (entry.1, entry.2.references), ?_⟩
    apply collect_of_map
    rintro ⟨hash, entry⟩ hmem
    obtain ⟨deps, hdeps⟩ := h hash entry (HashMap.mem_toList_iff.mp hmem)
    rw [entryReferences_eq_ok]
    exact ⟨rfl, by simp [IndexEntry.references, hdeps, Except.toOption]⟩

theorem lookup_forward {pairs : List (StoreHash × List StoreHash)}
    (h : graphPairs entries = .ok pairs) (hash : StoreHash) :
    (HashMap.ofList pairs).lookup hash = (entries.lookup hash).map IndexEntry.references := by
  have hnodup : (pairs.map Prod.fst).Nodup := by
    rw [graphPairs_map_fst h]
    exact entries.nodupKeys
  apply Option.ext
  intro deps
  rw [HashMap.lookup_ofList hnodup, mem_graphPairs h, Option.map_eq_some_iff]
  constructor
  · rintro ⟨entry, hentry, hdeps⟩
    exact ⟨entry, hentry, by simp [IndexEntry.references, hdeps, Except.toOption]⟩
  · rintro ⟨entry, hentry, rfl⟩
    obtain ⟨deps, hdeps⟩ := graphPairs_ok_iff.mp ⟨pairs, h⟩ hash entry hentry
    exact ⟨entry, hentry, by simp [IndexEntry.references, hdeps, Except.toOption]⟩

theorem neighbours_forward {pairs : List (StoreHash × List StoreHash)}
    (h : graphPairs entries = .ok pairs) :
    neighbours (HashMap.ofList pairs) = references entries := by
  funext hash
  rw [neighbours, lookup_forward h, references]

theorem mem_neighbours_pushDependent (graph : HashMap StoreHash (List StoreHash))
    (hash dep x y : StoreHash) :
    x ∈ neighbours (pushDependent graph hash dep) y ↔
      x ∈ neighbours graph y ∨ (y = dep ∧ x = hash) := by
  rw [neighbours, pushDependent, HashMap.lookup_insert_eq]
  by_cases hy : y = dep
  · subst hy
    simp [neighbours]
  · simp [hy, neighbours]

theorem mem_neighbours_reverseGraph (pairs : List (StoreHash × List StoreHash)) (x y : StoreHash) :
    x ∈ neighbours (reverseGraph pairs) y ↔ ∃ deps, (x, deps) ∈ pairs ∧ y ∈ deps := by
  have hinner : ∀ (hash : StoreHash) (deps : List StoreHash) graph,
      x ∈ neighbours (deps.foldl (fun graph dep => pushDependent graph hash dep) graph) y ↔
        x ∈ neighbours graph y ∨ (x = hash ∧ y ∈ deps) := by
    intro hash deps
    induction deps with
    | nil => simp
    | cons dep deps ih =>
        intro graph
        rw [List.foldl_cons, ih, mem_neighbours_pushDependent, List.mem_cons]
        tauto
  have houter : ∀ (pairs : List (StoreHash × List StoreHash)) graph,
      x ∈ neighbours (pairs.foldl (fun graph pair =>
          pair.2.foldl (fun graph dep => pushDependent graph pair.1 dep) graph) graph) y ↔
        x ∈ neighbours graph y ∨ ∃ deps, (x, deps) ∈ pairs ∧ y ∈ deps := by
    intro pairs
    induction pairs with
    | nil => simp
    | cons pair pairs ih =>
        intro graph
        rw [List.foldl_cons, ih, hinner, or_assoc]
        refine or_congr_right ?_
        constructor
        · rintro (⟨rfl, hy⟩ | ⟨deps, hmem, hy⟩)
          · exact ⟨pair.2, by simp, hy⟩
          · exact ⟨deps, List.mem_cons_of_mem _ hmem, hy⟩
        · rintro ⟨deps, hmem, hy⟩
          rcases List.mem_cons.mp hmem with rfl | hmem
          · exact Or.inl ⟨rfl, hy⟩
          · exact Or.inr ⟨deps, hmem, hy⟩
  rw [reverseGraph, houter]
  simp [neighbours]

/-- The reverse graph is the forward graph read backwards. -/
theorem mem_neighbours_reverse {pairs : List (StoreHash × List StoreHash)}
    (h : graphPairs entries = .ok pairs) {x y : StoreHash} :
    x ∈ neighbours (reverseGraph pairs) y ↔ y ∈ references entries x := by
  rw [mem_neighbours_reverseGraph, references]
  constructor
  · rintro ⟨deps, hmem, hy⟩
    obtain ⟨entry, hentry, hdeps⟩ := (mem_graphPairs h).mp hmem
    simpa [hentry, IndexEntry.references, hdeps, Except.toOption] using hy
  · intro hy
    cases hentry : entries.lookup x with
    | none => simp [hentry] at hy
    | some entry =>
        obtain ⟨deps, hdeps⟩ := graphPairs_ok_iff.mp ⟨pairs, h⟩ x entry hentry
        refine ⟨deps, (mem_graphPairs h).mpr ⟨entry, hentry, hdeps⟩, ?_⟩
        simpa [hentry, IndexEntry.references, hdeps, Except.toOption] using hy

theorem neighbours_of_notMem_keys {graph : HashMap StoreHash (List StoreHash)} {hash : StoreHash}
    (h : hash ∉ graph.keys) : neighbours graph hash = [] := by
  rw [neighbours, AList.lookup_eq_none.mpr (fun hmem => h (AList.mem_keys.mp hmem))]
  rfl

/-! ## Selection -/

/-- The roots whose closure the selector protects. -/
def activeRoots (gcRoots : HashMap SystemArch (List StoreHash)) (selector : CacheSelector) :
    List StoreHash :=
  (selector.activeGcRoots gcRoots).values.flatten

def Protected (entries : HashMap StoreHash IndexEntry)
    (gcRoots : HashMap SystemArch (List StoreHash)) (selector : CacheSelector)
    (hash : StoreHash) : Prop :=
  selector.protectGcRoots = true ∧ ReachableFrom entries (activeRoots gcRoots selector) hash

/-- A cascade of the given mode goes from `x` to `y`. -/
def CascadesTo (entries : HashMap StoreHash IndexEntry) (mode : CascadeMode)
    (x y : StoreHash) : Prop :=
  match mode with
  | .exact => False
  | .dependents => x ∈ references entries y
  | .transitive => y ∈ references entries x
  | .fullTree => x ∈ references entries y ∨ y ∈ references entries x

/-- The hashes a query selects, some of which may be referenced and absent. -/
inductive Selected (X : Crates) (entries : HashMap StoreHash IndexEntry)
    (gcRoots : HashMap SystemArch (List StoreHash)) (selector : CacheSelector) :
    StoreHash → Prop where
  | initial {hash : StoreHash} {entry : IndexEntry} (present : entries.lookup hash = some entry)
      (outside : ¬ Protected entries gcRoots selector hash)
      (inScope : (selector.scopeReason X hash entry).isSome) :
      Selected X entries gcRoots selector hash
  | cascade {x y : StoreHash} (source : Selected X entries gcRoots selector x)
      (edge : CascadesTo entries selector.cascadeMode x y)
      (outside : ¬ Protected entries gcRoots selector y) :
      Selected X entries gcRoots selector y

theorem mem_protectedReachable {pairs : List (StoreHash × List StoreHash)}
    (h : graphPairs entries = .ok pairs) (hash : StoreHash) :
    hash ∈ protectedReachable (HashMap.ofList pairs) gcRoots selector ↔
      Protected entries gcRoots selector hash := by
  unfold protectedReachable Protected
  split
  · rename_i hprotect
    rw [mem_markOnPop (fun x hx => neighbours_of_notMem_keys hx), neighbours_forward h]
    simp [hprotect, ReachableFrom, activeRoots]
  · rename_i hprotect
    simp [hprotect]

theorem mem_initialMatches {protect : List StoreHash} {hash : StoreHash} :
    hash ∈ (initialMatches X entries selector protect).map Prod.fst ↔
      ∃ entry, entries.lookup hash = some entry ∧
        ¬ (selector.protectGcRoots = true ∧ hash ∈ protect) ∧
        (selector.scopeReason X hash entry).isSome := by
  simp only [initialMatches, List.mem_map, List.mem_filterMap]
  constructor
  · rintro ⟨⟨hash', reason⟩, ⟨⟨key, entry⟩, hmem, hsome⟩, rfl⟩
    split at hsome
    · simp at hsome
    · rename_i hout
      obtain ⟨text, htext, heq⟩ := Option.map_eq_some_iff.mp hsome
      cases heq
      exact ⟨entry, HashMap.mem_toList_iff.mp hmem, hout, by simp [htext]⟩
  · rintro ⟨entry, hentry, hout, hscope⟩
    obtain ⟨reason, hreason⟩ := Option.isSome_iff_exists.mp hscope
    exact ⟨(hash, reason), ⟨(hash, entry), HashMap.mem_toList_iff.mpr hentry, by
      rw [if_neg hout, hreason, Option.map_some]⟩, rfl⟩

theorem mem_cascadeEdges {pairs : List (StoreHash × List StoreHash)}
    (h : graphPairs entries = .ok pairs) {mode : CascadeMode} {x y : StoreHash} :
    (∃ label, (label, y) ∈ cascadeEdges (HashMap.ofList pairs) (reverseGraph pairs) mode x) ↔
      CascadesTo entries mode x y := by
  cases mode with
  | exact => simp [cascadeEdges, CascadesTo]
  | dependents => simp [cascadeEdges, CascadesTo, mem_neighbours_reverse h]
  | transitive => simp [cascadeEdges, CascadesTo, neighbours_forward h]
  | fullTree =>
      simp [cascadeEdges, CascadesTo, neighbours_forward h, mem_neighbours_reverse h,
        exists_or]

theorem cascadeEdges_of_notMem {forward reverse : HashMap StoreHash (List StoreHash)}
    (mode : CascadeMode) {x : StoreHash} (hx : x ∉ forward.keys ++ reverse.keys) :
    cascadeEdges forward reverse mode x = [] := by
  rw [List.mem_append, not_or] at hx
  cases mode <;>
    simp [cascadeEdges, neighbours_of_notMem_keys hx.1, neighbours_of_notMem_keys hx.2]

/-- The cascade of the query engine ends with exactly the selected hashes. -/
theorem mem_cascade {pairs : List (StoreHash × List StoreHash)}
    (h : graphPairs entries = .ok pairs) (hash : StoreHash) :
    hash ∈ (cascade (HashMap.ofList pairs) (reverseGraph pairs) selector
        (protectedReachable (HashMap.ofList pairs) gcRoots selector)
        ((initialMatches X entries selector
          (protectedReachable (HashMap.ofList pairs) gcRoots selector)).map Prod.fst)).seen ↔
      Selected X entries gcRoots selector hash := by
  rw [cascade, mem_markOnPush (fun x hx => cascadeEdges_of_notMem _ hx)]
  have hblocked : ∀ y, (selector.protectGcRoots &&
      decide (y ∈ protectedReachable (HashMap.ofList pairs) gcRoots selector)) = false ↔
        ¬ Protected entries gcRoots selector y := by
    intro y
    rw [Bool.and_eq_false_imp, decide_eq_false_iff_not, mem_protectedReachable h]
    constructor
    · intro hy hprot
      exact hy hprot.1 hprot
    · intro hy _
      exact hy
  constructor
  · intro hreach
    refine hreach.mem_of_closed (P := Selected X entries gcRoots selector) ?_ ?_
    · intro s hs
      obtain ⟨entry, hentry, hout, hscope⟩ := mem_initialMatches.mp hs
      refine .initial hentry (fun hprot => hout ⟨hprot.1, ?_⟩) hscope
      exact (mem_protectedReachable h s).mpr hprot
    · intro x hx y hy
      obtain ⟨hedge, hopen⟩ := mem_openSucc.mp hy
      exact .cascade hx ((mem_cascadeEdges h).mp hedge) ((hblocked y).mp hopen)
  · intro hsel
    induction hsel with
    | initial present outside inScope =>
        refine .seed (mem_initialMatches.mpr ⟨_, present, fun hprot => outside ?_, inScope⟩)
        exact (mem_protectedReachable h _).mp hprot.2
    | @cascade x y _ edge outside ih =>
        exact ih.step (mem_openSucc.mpr ⟨(mem_cascadeEdges h).mpr edge, (hblocked y).mpr outside⟩)

/-! ## The result of a query -/

theorem evaluateCacheQuery_ok_iff (X : Crates) (gcRoots : HashMap SystemArch (List StoreHash))
    (selector : CacheSelector) :
    (∃ result, evaluateCacheQuery X entries gcRoots selector = .ok result) ↔
      ReferencesParse entries := by
  rw [← graphPairs_ok_iff]
  simp [evaluateCacheQuery]

theorem lookup_matchedEntries {result : CacheQueryResult}
    (h : evaluateCacheQuery X entries gcRoots selector = .ok result) (hash : StoreHash)
    (entry : IndexEntry) :
    result.matchedEntries.lookup hash = some entry ↔
      entries.lookup hash = some entry ∧ Selected X entries gcRoots selector hash := by
  simp only [evaluateCacheQuery, bind_eq_ok, pure_eq_ok] at h
  obtain ⟨pairs, hpairs, rfl⟩ := h
  rw [HashMap.lookup_filter_eq_some, decide_eq_true_eq, mem_cascade hpairs]

theorem lookup_unmatchedEntries {result : CacheQueryResult}
    (h : evaluateCacheQuery X entries gcRoots selector = .ok result) (hash : StoreHash)
    (entry : IndexEntry) :
    result.unmatchedEntries.lookup hash = some entry ↔
      entries.lookup hash = some entry ∧ ¬ Selected X entries gcRoots selector hash := by
  simp only [evaluateCacheQuery, bind_eq_ok, pure_eq_ok] at h
  obtain ⟨pairs, hpairs, rfl⟩ := h
  rw [HashMap.lookup_filter_eq_some, decide_eq_true_eq, mem_cascade hpairs]

end NixCache.Core
