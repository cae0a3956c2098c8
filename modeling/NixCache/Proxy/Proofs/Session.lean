import NixCache.Proxy.Proofs.Alone
import NixCache.Proxy.Session
/-!
# What one call after another does

A registration puts its entries over what is there; every other call leaves the hot registry alone and
caches no baseline but the one that a refresh has arrived at.
-/

namespace NixCache.Proxy

open NixCache.Lib NixCache.Lib.Result NixCache.Core NixCache.Oci
open Program (Trace)
open NixCache.Lib.Action (Takes takes_bind takes_pure)
open CacheIndex (Refresh)

variable {index : CacheIndex} {before middle after : Shared} {trace more : Trace Operation Answer}

/-- A call that registers nothing. -/
structure Keeps (index : CacheIndex) (trace : Trace Operation Answer) (before after : Shared) :
    Prop where
  hotEntries : after.hotEntries = before.hotEntries
  hotNarLookup : after.hotNarLookup = before.hotNarLookup
  hotCount : after.hotCount = before.hotCount
  baseline : ∀ key entry, after.baselineCache key = some entry →
    before.baselineCache key = some entry ∨
      key = index.cacheKey ∧ ∃ refresh : Refresh, refresh.IsIn index trace ∧
        entry.baseline = refresh.root index

namespace Keeps

theorem refl (trace : Trace Operation Answer) (shared : Shared) : Keeps index trace shared shared where
  hotEntries := rfl
  hotNarLookup := rfl
  hotCount := rfl
  baseline _ _ h := Or.inl h

theorem mono (h : Keeps index trace before after) (hsubset : trace ⊆ more) :
    Keeps index more before after where
  hotEntries := h.hotEntries
  hotNarLookup := h.hotNarLookup
  hotCount := h.hotCount
  baseline key entry hentry := by
    rcases h.baseline key entry hentry with hbefore | ⟨hkey, refresh, hin, hroot⟩
    · exact Or.inl hbefore
    · exact Or.inr ⟨hkey, refresh, hin.mono hsubset, hroot⟩

theorem trans (h : Keeps index trace before middle) (h' : Keeps index trace middle after) :
    Keeps index trace before after where
  hotEntries := h'.hotEntries.trans h.hotEntries
  hotNarLookup := h'.hotNarLookup.trans h.hotNarLookup
  hotCount := h'.hotCount.trans h.hotCount
  baseline key entry hentry := by
    rcases h'.baseline key entry hentry with hmiddle | hnew
    · exact h.baseline key entry hmiddle
    · exact Or.inr hnew

theorem emptied (shared : Shared) : Keeps index trace shared (shared.emptied index) where
  hotEntries := rfl
  hotNarLookup := rfl
  hotCount := rfl
  baseline key entry hentry := by
    unfold Shared.emptied at hentry
    dsimp only at hentry
    by_cases htag : key = index.config.baselineTag
    · rw [htag, Function.update_self] at hentry
      cases hentry
    · rw [Function.update_of_ne htag] at hentry
      by_cases hkey : key = index.cacheKey
      · rw [hkey, Function.update_self] at hentry
        cases hentry
      · rw [Function.update_of_ne hkey] at hentry
        exact Or.inl hentry

theorem refreshed {refresh : Refresh} (h : refresh.IsIn index trace) (shared : Shared) :
    Keeps index trace shared (shared.refreshed index refresh) where
  hotEntries := rfl
  hotNarLookup := rfl
  hotCount := rfl
  baseline key entry hentry := by
    unfold Shared.refreshed at hentry
    dsimp only at hentry
    by_cases hkey : key = index.cacheKey
    · rw [hkey, Function.update_self] at hentry
      cases hentry
      exact Or.inr ⟨hkey, refresh, h, rfl⟩
    · rw [Function.update_of_ne hkey] at hentry
      exact Or.inl hentry

theorem loaded (descriptor : ShardDescriptor) (answer : Except OciError ShardDataPayload)
    (shared : Shared) : Keeps index trace shared (shared.loaded index descriptor answer) where
  hotEntries := rfl
  hotNarLookup := rfl
  hotCount := rfl
  baseline _ _ h := Or.inl h

end Keeps

/-- What a call that registers nothing may do to the state, as its trace tells. -/
inductive Moves (index : CacheIndex) (trace : Trace Operation Answer) : Shared → Shared → Prop where
  | refl (shared : Shared) : Moves index trace shared shared
  | passed (shared : Shared) (duration : Nat) :
      Moves index trace shared { shared with now := shared.now + duration }
  | emptied (shared : Shared) : Moves index trace shared (shared.emptied index)
  | refreshed {refresh : Refresh} (h : refresh.IsIn index trace) (shared : Shared) :
      Moves index trace shared (shared.refreshed index refresh)
  | loaded {descriptor : ShardDescriptor} {answer : Except OciError ShardDataPayload}
      (hblob : Str.isEmpty descriptor.blobDigest = false)
      (hasked : (.getShardData descriptor, .payload answer) ∈ trace)
      (hanswered : ∃ exchange : Trace Request Reply, (IndexClient.getShardData index.crates
        index.client descriptor index.config.targetSystem).Runs exchange answer)
      (shared : Shared) : Moves index trace shared (shared.loaded index descriptor answer)
  | trans {before middle after : Shared} (h : Moves index trace before middle)
      (h' : Moves index trace middle after) : Moves index trace before after

namespace Moves

theorem mono (h : Moves index trace before after) (hsubset : trace ⊆ more) :
    Moves index more before after := by
  induction h with
  | refl shared => exact .refl shared
  | passed shared duration => exact .passed shared duration
  | emptied shared => exact .emptied shared
  | refreshed h shared => exact .refreshed (h.mono hsubset) shared
  | loaded hblob hasked hanswered shared => exact .loaded hblob (hsubset hasked) hanswered shared
  | trans _ _ ih ih' => exact ih.trans ih'

theorem keeps (h : Moves index trace before after) : Keeps index trace before after := by
  induction h with
  | refl shared => exact .refl trace shared
  | passed shared duration => exact ⟨rfl, rfl, rfl, fun _ _ h => Or.inl h⟩
  | emptied shared => exact .emptied shared
  | refreshed h shared => exact .refreshed h shared
  | @loaded descriptor answer _ _ _ shared => exact .loaded descriptor answer shared
  | trans _ _ ih ih' => exact ih.trans ih'

end Moves

namespace CacheIndex

theorem moves_getBaselineData {result : Except Panic ShardedArchCacheIndexData}
    (h : Takes (Step index) index.getBaselineData before trace result after) :
    Moves index trace before after := by
  rcases takes_getBaselineData h with ⟨_, _, _, _, rfl⟩ | ⟨refresh, hin, _, _, rfl⟩
  · exact .refl _
  · exact .refreshed hin before

theorem moves_getShardData {descriptor : ShardDescriptor}
    {result : Except Panic (Option ShardDataPayload)}
    (h : Takes (Step index) (index.getShardData descriptor) before trace result after) :
    Moves index trace before after := by
  rcases takes_getShardData h with
    ⟨_, _, _, _, rfl⟩ | ⟨_, ⟨_, _, rfl⟩ | ⟨hblob, answer, hasked, hanswered, _, rfl⟩⟩
  · exact .refl _
  · exact .refl _
  · exact .loaded hblob hasked hanswered before

theorem moves_lookupFrom {storeHash : String}
    {result : Except Panic (Option ShardedArchCacheIndexData × Option IndexEntry)}
    (h : Takes (Step index) (index.lookupFrom storeHash) before trace result after) :
    Moves index trace before after := by
  rcases takes_lookupFrom h with ⟨_, rfl, _⟩ | ⟨hash, _, ⟨_, _, _, rfl⟩ |
    ⟨_, front, back, root, middle, entry, rfl, hroot, hlookup, _⟩⟩
  · exact .refl _
  · exact .refl _
  · have hfirst : Moves index ((.readHot hash, .hot none) :: (front ++ back)) before middle :=
      (moves_getBaselineData hroot).mono fun event hevent => by simp [hevent]
    refine hfirst.trans ?_
    rcases takes_lookupBaseline hlookup with ⟨_, rfl⟩ | ⟨_, _, _, _, _, hshard, _⟩
    · exact .refl _
    · exact (moves_getShardData hshard).mono fun event hevent => by simp [hevent]

theorem moves_findNarDigest {name : String} {result : Except Panic (Option NarDigest)}
    (h : Takes (Step index) (index.findNarDigest name) before trace result after) :
    Moves index trace before after := by
  rcases takes_findNarDigest h with ⟨_, _, _, rfl⟩ | ⟨_, hseeks⟩
  · exact .refl _
  · cases hseeks with
    | panics _ => exact .refl _
    | byHash _ hsubset hlookup => exact (moves_lookupFrom hlookup).mono hsubset
    | afterHash _ hsubset hlookup _ => exact (moves_lookupFrom hlookup).mono hsubset
    | inShards _ _ => exact .refl _

theorem moves_forceRefresh {result : Except Panic (Except (List OciError) Nat)}
    (h : Takes (Step index) index.forceRefresh before trace result after) :
    Moves index trace before after := by
  obtain ⟨refresh, hin, rfl⟩ := takes_forceRefresh h
  exact (Moves.emptied before).trans (.refreshed hin _)

end CacheIndex

/-- A handler whose result is not used. -/
theorem takes_discard {α : Type} {handler : Handler α} {result : Except Panic Unit}
    (h : Takes (Step index) (handler >>= fun _ => pure ()) before trace result after) :
    ∃ result', Takes (Step index) handler before trace result' after := by
  rcases takes_bind.mp h with ⟨front, _, value, _, rfl, hfirst, hpure⟩ | ⟨error, _, hfirst⟩
  · obtain ⟨rfl, _, rfl⟩ := takes_pure.mp hpure
    rw [List.append_nil]
    exact ⟨_, hfirst⟩
  · exact ⟨_, hfirst⟩

theorem Occurrence.registered_of_fromJson {X : Crates} {body : Json} {payload : RegisterPayload}
    (h : RegisterPayload.fromJson X body = .ok payload) (trace : Trace Operation Answer) :
    (Occurrence.call (.registerSession body) trace).registered X = some payload.entries := by
  simp [Occurrence.registered, h, Except.toOption]

/-- A registration is refused, or puts its entries into the hot registry. -/
theorem takes_handleRegisterSession {body : Json} {result : Except Panic (Option Nat)}
    (h : Takes (Step index) (handleRegisterSession index.crates.toCrates body) before trace result
      after) :
    ((∃ error, RegisterPayload.fromJson index.crates.toCrates body = .error error) ∧
        after = before) ∨
      ∃ payload, RegisterPayload.fromJson index.crates.toCrates body = .ok payload ∧
        after = before.register payload.entries := by
  unfold handleRegisterSession at h
  split at h
  · rename_i error herror
    exact Or.inl ⟨⟨error, herror⟩, (takes_pure.mp h).2.2⟩
  · rename_i payload hpayload
    refine Or.inr ⟨payload, hpayload, ?_⟩
    rcases takes_bind.mp h with ⟨_, _, _, _, rfl, hregister, hpure⟩ | ⟨_, _, hregister⟩
    · obtain ⟨_, rfl⟩ := CacheIndex.takes_registerHotEntries hregister
      exact (takes_pure.mp hpure).2.2
    · exact (CacheIndex.takes_registerHotEntries hregister).2

/-- An occurrence registers entries, or moves the state as its operations tell. -/
theorem occurs_moves {occurrence : Occurrence} (h : Occurs index before occurrence after) :
    (∃ entries, occurrence.registered index.crates.toCrates = some entries ∧
        after = before.register entries) ∨
      (occurrence.registered index.crates.toCrates = none ∧
        Moves index occurrence.events before after) := by
  cases h with
  | pass duration => exact Or.inr ⟨rfl, .passed before duration⟩
  | @call _ call trace result h =>
      cases call with
      | registerSession body =>
          obtain ⟨_, hregister⟩ := takes_discard h
          rcases takes_handleRegisterSession hregister with ⟨⟨error, herror⟩, rfl⟩ |
            ⟨payload, hpayload, rfl⟩
          · exact Or.inr ⟨by simp [Occurrence.registered, herror, Except.toOption], .refl _⟩
          · exact Or.inl ⟨_, Occurrence.registered_of_fromJson hpayload trace, rfl⟩
      | lookup storeHash =>
          obtain ⟨_, hlookup⟩ := takes_discard h
          exact Or.inr ⟨rfl, CacheIndex.moves_lookupFrom hlookup⟩
      | findNarDigest name =>
          obtain ⟨_, hfind⟩ := takes_discard h
          exact Or.inr ⟨rfl, CacheIndex.moves_findNarDigest hfind⟩
      | getBaselineData =>
          obtain ⟨_, hroot⟩ := takes_discard h
          exact Or.inr ⟨rfl, CacheIndex.moves_getBaselineData hroot⟩
      | getShardData descriptor =>
          obtain ⟨_, hshard⟩ := takes_discard h
          exact Or.inr ⟨rfl, CacheIndex.moves_getShardData hshard⟩
      | getEntryCounts =>
          obtain ⟨_, hcounts⟩ := takes_discard h
          obtain ⟨rfl, _⟩ := CacheIndex.takes_getEntryCounts hcounts
          exact Or.inr ⟨rfl, .refl _⟩
      | forceRefresh =>
          obtain ⟨_, hrefresh⟩ := takes_discard h
          exact Or.inr ⟨rfl, CacheIndex.moves_forceRefresh hrefresh⟩

/-- What an occurrence does to the hot registry and to the baselines. -/
theorem occurs_cases {occurrence : Occurrence} (h : Occurs index before occurrence after) :
    (∃ entries, occurrence.registered index.crates.toCrates = some entries ∧
        after = before.register entries) ∨
      (occurrence.registered index.crates.toCrates = none ∧
        Keeps index occurrence.events before after) :=
  (occurs_moves h).imp_right fun hmoves => ⟨hmoves.1, hmoves.2.keeps⟩

/-! ## Calls that can be made -/

theorem exists_takes_registerHotEntries (before : Shared) (entries : HashMap StoreHash IndexEntry) :
    ∃ trace, Takes (Step index) (CacheIndex.registerHotEntries entries) before trace (.ok ())
      (before.register entries) := by
  obtain ⟨middle, hmiddle⟩ : ∃ middle, middle = { before with
      hotEntries := fun hash => (entries.lookup hash).or (before.hotEntries hash) } := ⟨_, rfl⟩
  obtain ⟨last, hlast⟩ : ∃ last, last = { middle with
      hotNarLookup := fun name =>
        ((buildNarLookupMap entries).lookup name).or (middle.hotNarLookup name) } := ⟨_, rfl⟩
  have hhot : ∃ trace, Takes (Step index) (CacheIndex.upsertAll
      (fun pair : StoreHash × IndexEntry => .upsertHot pair.1 pair.2) entries.toList) before trace
        (.ok ()) middle := by
    refine ⟨_, (takes_upsertAll fun _ _ => by rfl).mpr ⟨rfl, rfl, ?_⟩⟩
    rw [hmiddle, foldl_upsertHot, HashMap.foldl_update]
  have hnar : ∃ trace, Takes (Step index) (CacheIndex.upsertAll
      (fun pair : String × NarDigest => .upsertHotNar pair.1 pair.2)
      (buildNarLookupMap entries).toList) middle trace (.ok ()) last := by
    refine ⟨_, (takes_upsertAll fun _ _ => by rfl).mpr ⟨rfl, rfl, ?_⟩⟩
    rw [hlast, foldl_upsertHotNar, HashMap.foldl_update]
  have hcount : Takes (Step index) (perform (.addHotCount entries.size)) last
      [(.addHotCount entries.size, .done)] (.ok ())
        { last with hotCount := last.hotCount + entries.size } :=
    (takes_ask_apply (by rfl) (by rfl)).mpr ⟨rfl, rfl, rfl⟩
  obtain ⟨first, hhot⟩ := hhot
  obtain ⟨second, hnar⟩ := hnar
  have hstate : before.register entries = { last with hotCount := last.hotCount + entries.size } := by
    rw [hlast, hmiddle]
    rfl
  rw [hstate]
  exact ⟨_, hhot.bind (hnar.bind hcount)⟩

/-- A body that decodes can be registered at any time. -/
theorem exists_occurs_registerSession (before : Shared) {body : Json} {payload : RegisterPayload}
    (h : RegisterPayload.fromJson index.crates.toCrates body = .ok payload) :
    ∃ trace, Occurs index before (.call (.registerSession body) trace)
      (before.register payload.entries) := by
  obtain ⟨trace, hregister⟩ : ∃ trace, Takes (Step index)
      (CacheIndex.registerHotEntries payload.entries) before trace (.ok ())
      (before.register payload.entries) := exists_takes_registerHotEntries before payload.entries
  have hhandle : Takes (Step index) (handleRegisterSession index.crates.toCrates body) before
      (trace ++ []) (.ok (some payload.entries.size)) (before.register payload.entries) := by
    unfold handleRegisterSession
    rw [h]
    exact hregister.bind (takes_pure.mpr ⟨rfl, rfl, rfl⟩)
  have hcall : Takes (Step index) (Call.handler index (.registerSession body)) before
      (trace ++ [] ++ []) (.ok ()) (before.register payload.entries) :=
    hhandle.bind (takes_pure.mpr ⟨rfl, rfl, rfl⟩)
  exact ⟨_, .call hcall⟩

/-- The counts can be asked for at any time. -/
theorem exists_takes_getEntryCounts (index : CacheIndex) (before : Shared) :
    ∃ trace counts, Takes (Step index) index.getEntryCounts before trace (.ok counts) before ∧
      counts.tier0HotEntries = before.hotCount := by
  obtain ⟨entry, rest, hentry⟩ : ∃ entry rest, Takes (Step index)
      (orElse (before.baselineCache index.cacheKey)
        (ask (.readBaseline index.config.baselineTag) Answer.asBaseline)) before rest (.ok entry)
        before := by
    cases hcached : before.baselineCache index.cacheKey with
    | some entry => exact ⟨some entry, [], takes_pure.mpr ⟨rfl, rfl, rfl⟩⟩
    | none => exact ⟨_, _, (takes_ask_apply (by rfl) (by rfl)).mpr ⟨rfl, rfl, rfl⟩⟩
  obtain ⟨count, hcount⟩ : ∃ count,
      count = (entry.map fun entry => entry.baseline.totalEntries).getD 0 := ⟨_, rfl⟩
  refine ⟨(.loadHotCount, .count before.hotCount) ::
      (.readBaseline index.cacheKey, .baseline (before.baselineCache index.cacheKey)) :: (rest ++ []),
    ⟨before.hotCount, count, if 0 < count then before.hotCount + count else before.hotCount⟩, ?_,
    rfl⟩
  unfold CacheIndex.getEntryCounts
  refine (takes_ask_bind (by rfl) (by rfl)).mpr ⟨_, rfl, ?_⟩
  refine (takes_ask_bind (by rfl) (by rfl)).mpr ⟨_, rfl, ?_⟩
  apply hentry.bind
  rw [hcount]
  exact takes_pure.mpr ⟨rfl, rfl, rfl⟩

end NixCache.Proxy
