import NixCache.Builder.Proofs.Promote
import NixCache.Proxy.Proofs.Tiers
/-!
# The store path of an answer

A shard holds each entry under the hash of its own store path, and so does a registration in the form
of a list.  A registration in the form of a map is taken as it is, and the registry answers with its
entries before any shard is asked.
-/

namespace NixCache.Proxy

open NixCache.Lib NixCache.Lib.Result NixCache.Core NixCache.Oci
open Program (Trace Follows)
open NixCache.Lib.Action (Runs)

/-- Every entry is under the hash of its own store path. -/
def KeysAgree (entries : HashMap StoreHash IndexEntry) : Prop :=
  ∀ hash entry, entries.lookup hash = some entry → entry.storeHash = some hash

/-- A body that decodes to a map, bare or in an object, has its entries under their own hashes. -/
def IsKeyed (X : Crates) (body : Json) : Prop :=
  match RegisterPayload.fromJson X body with
  | .ok (.map entries) | .ok (.object entries) => KeysAgree entries
  | _ => True

theorem isKeyed_of_fromJson {X : Crates} {body : Json} {entries : HashMap StoreHash IndexEntry}
    (hbody : RegisterPayload.fromJson X body = .ok (.map entries)) (h : KeysAgree entries) :
    IsKeyed X body := by
  unfold IsKeyed
  rw [hbody]
  exact h

namespace RegisterPayload

theorem KeysAgree.insertEntry {entries : HashMap StoreHash IndexEntry} (h : KeysAgree entries)
    (entry : IndexEntry) : KeysAgree (insertEntry entries entry) := by
  unfold RegisterPayload.insertEntry
  split
  · rename_i hash hhash
    intro other found hfound
    rw [HashMap.lookup_insert_eq] at hfound
    split at hfound
    · rename_i hother
      cases hfound
      rw [hother, hhash]
    · exact h other found hfound
  · exact h

/-- The list shape keys each entry by its own hash. -/
theorem keysAgree_list (list : List IndexEntry) : KeysAgree (RegisterPayload.list list).entries := by
  suffices hgen : ∀ entries, KeysAgree entries → KeysAgree (list.foldl insertEntry entries) by
    apply hgen ∅
    intro hash entry h
    simp at h
  induction list with
  | nil => exact fun _ h => h
  | cons entry list ih => exact fun entries h => ih _ (KeysAgree.insertEntry h entry)

end RegisterPayload

theorem registersOnly_of_isKeyed {X : Crates} {body : Json} (h : IsKeyed X body) :
    RegistersOnly X (fun hash entry => entry.storeHash = some hash) body := by
  intro payload hpayload
  unfold IsKeyed at h
  rw [hpayload] at h
  cases payload with
  | map entries => exact h
  | list entries => exact RegisterPayload.keysAgree_list entries
  | object entries => exact h

variable {index : CacheIndex}

theorem CacheIndex.runs_lookup_ok {storeHash : String} {trace : Trace Operation Answer}
    {entry : Option IndexEntry} :
    (index.lookup storeHash).Runs trace (.ok entry) ↔
      ∃ root, (index.lookupFrom storeHash).Runs trace (.ok (root, entry)) := by
  unfold lookup
  rw [Action.runs_bind_ok]
  constructor
  · rintro ⟨first, rest, ⟨root, found⟩, rfl, hfrom, hpure⟩
    obtain ⟨rfl, hfound⟩ := Action.runs_pure.mp hpure
    cases hfound
    rw [List.append_nil]
    exact ⟨root, hfrom⟩
  · rintro ⟨root, hfrom⟩
    exact ⟨trace, [], (root, entry), (List.append_nil trace).symm, hfrom, rfl, rfl⟩

/-- When the maps that are registered have their entries under their own hashes, every lookup of every
execution answers with an entry for a store path with the hash that was looked up. -/
theorem lookup_storeHash {τ : Type} [DecidableEq τ] {calls : τ → Call} {now : Nat}
    {events : List (Option τ × (Operation × Answer))} {last : Shared}
    (h : Serves index calls (.start now) events last)
    (hcalls : ∀ task body, calls task = .registerSession body → IsKeyed index.crates.toCrates body)
    {task : τ} {storeHash : String} {entry : IndexEntry}
    (hruns : (index.lookup storeHash).Runs (eventsOf task events) (.ok (some entry))) :
    ∃ hash, StoreHash.parse storeHash = .ok hash ∧ entry.storeHash = some hash := by
  have htrue := isTrue_of_serves h fun task body hbody =>
    registersOnly_of_isKeyed (hcalls task body hbody)
  obtain ⟨root, hfrom⟩ := CacheIndex.runs_lookup_ok.mp hruns
  obtain ⟨hash, hparse, hcases⟩ := CacheIndex.lookupFrom_cases hfrom (serves_of_mem htrue)
  refine ⟨hash, hparse, ?_⟩
  rcases hcases with ⟨_, hhot⟩ | ⟨_, _, _, payload, _, hverified, hlookup⟩
  · exact hhot
  · exact (hverified.valid.entries hash entry hlookup).2.2.2

/-! ## A registration and a lookup -/

/-- One call that registers the body, and one that looks up. -/
def registerThenLookup (body : Json) (storeHash : String) : Bool → Call
  | false => .registerSession body
  | true => .lookup storeHash

def registerTrace (key : StoreHash) (entry : IndexEntry) : Trace Operation Answer :=
  [(.upsertHot key entry, .done), (.upsertHotNar entry.narBasename entry.narDigest, .done),
    (.addHotCount 1, .done)]

def lookupTrace (key : StoreHash) (entry : IndexEntry) : Trace Operation Answer :=
  [(.readHot key, .hot (some entry))]

theorem runs_perform (operation : Operation) :
    (perform operation).Runs [(operation, .done)] (.ok ()) :=
  Action.runs_ask_ok.mpr ⟨.done, rfl, rfl⟩

section

variable {key : StoreHash} {entry : IndexEntry} {body : Json} {storeHash : String}

theorem runs_registerHotEntries (hname : Str.isEmpty entry.narBasename = false) :
    (CacheIndex.registerHotEntries (HashMap.ofList [(key, entry)])).Runs (registerTrace key entry)
      (.ok ()) := by
  have hnames : (buildNarLookupMap (HashMap.ofList [(key, entry)])).toList =
      [(entry.narBasename, entry.narDigest)] := by
    change (insertNar ∅ entry).toList = _
    rw [insertNar, hname]
    rfl
  unfold CacheIndex.registerHotEntries
  rw [hnames]
  have hentries : (CacheIndex.upsertAll
      (fun pair : StoreHash × IndexEntry => .upsertHot pair.1 pair.2) [(key, entry)]).Runs
      ([(.upsertHot key entry, .done)] ++ []) (.ok ()) :=
    Action.Runs.bind (runs_perform _) ⟨rfl, rfl⟩
  have hnar : (CacheIndex.upsertAll
      (fun pair : String × NarDigest => .upsertHotNar pair.1 pair.2)
      [(entry.narBasename, entry.narDigest)]).Runs
      ([(.upsertHotNar entry.narBasename entry.narDigest, .done)] ++ []) (.ok ()) :=
    Action.Runs.bind (runs_perform _) ⟨rfl, rfl⟩
  exact Action.Runs.bind hentries (Action.Runs.bind hnar (runs_perform _))

theorem runs_registerSession (hname : Str.isEmpty entry.narBasename = false)
    (hbody : RegisterPayload.fromJson index.crates.toCrates body =
      .ok (.map (HashMap.ofList [(key, entry)]))) :
    ((registerThenLookup body storeHash false).handler index).Runs (registerTrace key entry) (.ok ()) := by
  have hhandle : (handleRegisterSession index.crates.toCrates body).Runs
      (registerTrace key entry ++ []) (.ok (some 1)) := by
    unfold handleRegisterSession
    rw [hbody]
    exact Action.Runs.bind (runs_registerHotEntries hname) ⟨rfl, rfl⟩
  exact Action.Runs.bind hhandle ⟨rfl, rfl⟩

theorem runs_lookupFrom (hparse : StoreHash.parse storeHash = .ok key) :
    (index.lookupFrom storeHash).Runs (lookupTrace key entry) (.ok (none, some entry)) := by
  unfold CacheIndex.lookupFrom
  rw [hparse]
  have hread : (ask (.readHot key) Answer.asHot).Runs (lookupTrace key entry) (.ok (some entry)) :=
    Action.runs_ask_ok.mpr ⟨.hot (some entry), rfl, rfl⟩
  exact Action.Runs.bind hread ⟨rfl, rfl⟩

/-- The proxy after the registration. -/
def registered (key : StoreHash) (entry : IndexEntry) : Shared :=
  { Shared.start 0 with
    hotEntries := Function.update (fun _ => none) key (some entry)
    hotNarLookup := Function.update (fun _ => none) entry.narBasename (some entry.narDigest)
    hotCount := 0 + 1 }

theorem follows_registerTrace :
    Follows (Step index) (.start 0) (registerTrace key entry) (registered key entry) :=
  ⟨_, .apply rfl, _, .apply rfl, _, .apply rfl, rfl⟩

theorem follows_lookupTrace :
    Follows (Step index) (registered key entry) (lookupTrace key entry) (registered key entry) := by
  have hhot : (registered key entry).hotEntries key = some entry := by
    simp [registered]
  exact ⟨_, .apply (by rw [Shared.apply, hhot]), rfl⟩

/-- Two calls, one after the other. -/
theorem serves_both {calls : Bool → Call} {before after : Trace Operation Answer}
    {result result' : Except Panic Unit} {first middle last : Shared}
    (hbefore : ((calls false).handler index).Runs before result)
    (hafter : ((calls true).handler index).Runs after result')
    (hfirst : Follows (Step index) first before middle)
    (hlast : Follows (Step index) middle after last) :
    ∃ events, Serves index calls first events last ∧ eventsOf true events = after := by
  have htasks : ∀ task, ∃ trace result, ((calls task).handler index).Runs trace result := by
    intro task
    cases task with
    | false => exact ⟨before, result, hbefore⟩
    | true => exact ⟨after, result', hafter⟩
  have hnil : Serves index calls first [] first := Executes.nil htasks
  have hone := hnil.complete rfl hbefore hfirst
  have hnew : eventsOf true (before.map fun event => (some false, event)) = [] :=
    eventsOf_map_of_ne (by decide) before
  refine ⟨_, Executes.complete hone hnew hafter hlast, ?_⟩
  rw [eventsOf_append, eventsOf_map, List.nil_append, hnew, List.nil_append]

/-- The registered entry is served under the key. -/
theorem serves_registered (hname : Str.isEmpty entry.narBasename = false)
    (hbody : RegisterPayload.fromJson index.crates.toCrates body =
      .ok (.map (HashMap.ofList [(key, entry)])))
    (hparse : StoreHash.parse storeHash = .ok key) :
    ∃ calls : Bool → Call, ∃ events last, Serves index calls (.start 0) events last ∧
      (∀ task other, calls task = .registerSession other → other = body) ∧
      (index.lookup storeHash).Runs (eventsOf true events) (.ok (some entry)) := by
  have hfrom := @runs_lookupFrom index key entry storeHash hparse
  have hlookup : ((registerThenLookup body storeHash true).handler index).Runs (lookupTrace key entry)
      (.ok ()) :=
    Action.Runs.bind hfrom ⟨rfl, rfl⟩
  obtain ⟨events, hserves, hevents⟩ := serves_both (runs_registerSession hname hbody) hlookup
    follows_registerTrace follows_lookupTrace
  refine ⟨registerThenLookup body storeHash, events, _, hserves, ?_, ?_⟩
  · intro task other htask
    cases task with
    | false =>
        cases htask
        rfl
    | true => cases htask
  · rw [hevents]
    exact CacheIndex.runs_lookup_ok.mpr ⟨none, hfrom⟩

end

def sampleIndex : CacheIndex where
  crates := Builder.storedCrates
  client := sampleClient
  config := ⟨"owner/repo", "cache.azurecr.io", "cache-index", 300, .x86_64Linux⟩

/-- A map with one entry under the key. -/
def singleBody (key : StoreHash) (entry : IndexEntry) : Json :=
  entriesToJson (HashMap.ofList [(key, entry)])

theorem fromJson_singleBody {key : StoreHash} {entry : IndexEntry} {X : Crates}
    (hparse : StoreHash.parse key.val = .ok key) (hentry : entry.validateStructure X = .ok ())
    (hdigest : NarDigest.parse entry.narDigest.val = .ok entry.narDigest) :
    RegisterPayload.fromJson X (singleBody key entry) =
      .ok (.map (HashMap.ofList [(key, entry)])) := by
  have hmap : entriesFromJson X (singleBody key entry) = .ok (HashMap.ofList [(key, entry)]) := by
    apply Json.map_ofMap
    intro hash found hfound
    have hpair := (HashMap.lookup_ofList (by simp)).mp hfound
    obtain ⟨rfl, rfl⟩ : hash = key ∧ found = entry := by simpa using hpair
    exact ⟨by simp [StoreHash.ofText, hparse], IndexEntry.fromJson_toJson hentry hdigest⟩
  unfold RegisterPayload.fromJson
  rw [hmap]

def registeredEntry : IndexEntry := sampleEntry '1' [sampleHash '2']

theorem lookup_publishedPayload :
    publishedPayload.entries.lookup (sampleHash '1') = some registeredEntry :=
  (HashMap.lookup_ofList (by decide)).mpr (by simp [registeredEntry])

/-- The entry in a map, under any key. -/
theorem fromJson_registeredEntry {key : StoreHash} (hparse : StoreHash.parse key.val = .ok key) :
    RegisterPayload.fromJson sampleIndex.crates.toCrates (singleBody key registeredEntry) =
      .ok (.map (HashMap.ofList [(key, registeredEntry)])) := by
  have hvalid := validateFor_publishedPayload.1.entries _ _ lookup_publishedPayload
  obtain ⟨hash, hmerkle⟩ := exists_merkleHash_publishedPayload
  exact fromJson_singleBody hparse hvalid.1
    (ShardDataPayload.isCanonical_of_computeMerkleHash hmerkle _ _ lookup_publishedPayload)

theorem storeHash_registeredEntry : registeredEntry.storeHash = some (sampleHash '1') :=
  (validateFor_publishedPayload.1.entries _ _ lookup_publishedPayload).2.2.2

theorem narBasename_registeredEntry : Str.isEmpty registeredEntry.narBasename = false := by decide

/-- A map with one entry under its own hash is registered as a keyed one, and its entry is served. -/
theorem serves_keyed {index : CacheIndex} {key : StoreHash} {entry : IndexEntry} {body : Json}
    (hname : Str.isEmpty entry.narBasename = false) (hentry : entry.storeHash = some key)
    (hbody : RegisterPayload.fromJson index.crates.toCrates body =
      .ok (.map (HashMap.ofList [(key, entry)])))
    (hparse : StoreHash.parse key.val = .ok key) :
    ∃ calls : Bool → Call, ∃ events last, Serves index calls (.start 0) events last ∧
      (∀ task other, calls task = .registerSession other → IsKeyed index.crates.toCrates other) ∧
      (index.lookup key.val).Runs (eventsOf true events) (.ok (some entry)) := by
  have hkeys : KeysAgree (HashMap.ofList [(key, entry)]) := by
    intro hash found hfound
    have hpair := (HashMap.lookup_ofList (by simp)).mp hfound
    obtain ⟨rfl, rfl⟩ : hash = key ∧ found = entry := by simpa using hpair
    exact hentry
  have hkeyed := isKeyed_of_fromJson hbody hkeys
  obtain ⟨calls, events, last, hserves, honly, hruns⟩ := serves_registered hname hbody hparse
  have hcalls : ∀ task other, calls task = .registerSession other →
      IsKeyed index.crates.toCrates other := by
    intro task other htask
    rw [honly task other htask]
    exact hkeyed
  exact ⟨calls, events, last, hserves, hcalls, hruns⟩

/-- The theorem on a registration of an entry under its own hash, and a lookup. -/
theorem lookup_storeHash_registered :
    ∃ calls : Bool → Call, ∃ events last text entry, Serves sampleIndex calls (.start 0) events last ∧
      (sampleIndex.lookup text).Runs (eventsOf true events) (.ok (some entry)) ∧
      ∃ hash, StoreHash.parse text = .ok hash ∧ entry.storeHash = some hash := by
  have hparse : StoreHash.parse (sampleHash '1').val = .ok (sampleHash '1') := by decide
  obtain ⟨calls, events, last, hserves, hcalls, hruns⟩ := serves_keyed narBasename_registeredEntry
    storeHash_registeredEntry (fromJson_registeredEntry hparse) hparse
  exact ⟨calls, events, last, _, _, hserves, hruns, lookup_storeHash hserves hcalls hruns⟩

/-- An entry for one store path, registered in a map under the hash of another, is served under that
hash. -/
theorem lookup_foreign_entry :
    ∃ calls : Bool → Call, ∃ events last text hash entry,
      Serves sampleIndex calls (.start 0) events last ∧
      (sampleIndex.lookup text).Runs (eventsOf true events) (.ok (some entry)) ∧
      StoreHash.parse text = .ok hash ∧ entry.storeHash ≠ some hash := by
  have hparse : StoreHash.parse (sampleHash '2').val = .ok (sampleHash '2') := by decide
  have hforeign : registeredEntry.storeHash ≠ some (sampleHash '2') := by
    rw [storeHash_registeredEntry]
    decide
  obtain ⟨text, htext⟩ : ∃ text, StoreHash.parse text = .ok (sampleHash '2') := ⟨_, hparse⟩
  obtain ⟨calls, events, last, hserves, _, hruns⟩ :=
    serves_registered narBasename_registeredEntry (fromJson_registeredEntry hparse) htext
  exact ⟨calls, events, last, text, _, _, hserves, hruns, htext, hforeign⟩

end NixCache.Proxy
