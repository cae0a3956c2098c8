import NixCache.Oci.Proofs.Flight
/-!
# Generations of tokens

However the calls of one token manager interleave, a call does not return a token that was requested
before an invalidation that the call came after, and the cache does not hold one.
-/

namespace NixCache.Oci.Tokens

open NixCache.Lib NixCache.Lib.Transition

/-- The events of a run, with the calls that they belong to. -/
abbrev History := List (CallId × Event)

/-- How often a key has been invalidated. -/
def invalidations (key : ChallengeKey) (history : History) : Nat :=
  history.countP fun event => event.2 = .invalidates key

/-- The numbers of the fetches, in the order in which they began. -/
def fetchIds (history : History) : List Nat :=
  history.filterMap fun event => match event.2 with
    | .fetches fetch => some fetch
    | _ => none

section History

variable {history before after : History} {key : ChallengeKey} {call : CallId} {event : Event}

@[simp] theorem invalidations_append :
    invalidations key (before ++ after) = invalidations key before + invalidations key after :=
  List.countP_append

theorem invalidations_singleton_of_ne (h : event ≠ .invalidates key) :
    invalidations key [(call, event)] = 0 := by
  simp [invalidations, h]

@[simp] theorem invalidations_singleton : invalidations key [(call, .invalidates key)] = 1 := by
  simp [invalidations]

@[simp] theorem fetchIds_append : fetchIds (before ++ after) = fetchIds before ++ fetchIds after :=
  List.filterMap_append

theorem mem_fetchIds {fetch : Nat} :
    fetch ∈ fetchIds history ↔ ∃ call, (call, Event.fetches fetch) ∈ history := by
  unfold fetchIds
  rw [List.mem_filterMap]
  constructor
  · rintro ⟨⟨call, event⟩, hmem, hevent⟩
    cases event <;> simp at hevent
    subst hevent
    exact ⟨call, hmem⟩
  · rintro ⟨call, hmem⟩
    exact ⟨_, hmem, rfl⟩

/-- A fetch begins once. -/
theorem eq_of_fetches {before' after' : History} {other : CallId} {fetch : Nat}
    (hnodup : (fetchIds (before ++ (call, .fetches fetch) :: after)).Nodup)
    (h : before ++ (call, .fetches fetch) :: after = before' ++ (other, .fetches fetch) :: after') :
    before = before' := by
  have hnot : ∀ {left right : History} {caller : CallId},
      (fetchIds (left ++ (caller, .fetches fetch) :: right)).Nodup → fetch ∉ fetchIds left := by
    intro left right caller hnodup hmem
    rw [fetchIds_append] at hnodup
    exact (List.nodup_append.mp hnodup).2.2 fetch hmem fetch (by simp [fetchIds]) rfl
  have hleft := hnot hnodup
  have hright := hnot (h ▸ hnodup)
  rcases List.append_eq_append_iff.mp h with ⟨middle, rfl, hmiddle⟩ | ⟨middle, rfl, hmiddle⟩
  · cases middle with
    | nil => simp
    | cons event middle =>
        obtain ⟨rfl, -⟩ := List.cons_eq_cons.mp hmiddle
        exact absurd (by simp [fetchIds]) hright
  · cases middle with
    | nil => simp
    | cons event middle =>
        obtain ⟨rfl, -⟩ := List.cons_eq_cons.mp hmiddle
        exact absurd (by simp [fetchIds]) hleft

end History

variable {manager : TokenManager}

/-- The fetch began for the key when the key had been invalidated `count` times. -/
def Began (manager : TokenManager) (history : History) (fetch : Nat) (key : ChallengeKey)
    (count : Nat) : Prop :=
  ∃ before after call method challenge, history = before ++ (call, .fetches fetch) :: after ∧
    (call, .starts method challenge) ∈ before ∧ manager.challengeKey challenge = key ∧
    invalidations key before = count

/-- The call started, or began to look for a token, when the key had been invalidated `count`
times. -/
def Entered (history : History) (call : CallId) (key : ChallengeKey) (count : Nat) : Prop :=
  ∃ before after event, history = before ++ (call, event) :: after ∧
    (event = .enters ∨ ∃ method challenge, event = .starts method challenge) ∧
    invalidations key before = count

section

variable {history : History} {key : ChallengeKey} {call other : CallId} {event : Event}
  {fetch count : Nat}

theorem Began.append (h : Began manager history fetch key count) :
    Began manager (history ++ [(other, event)]) fetch key count := by
  obtain ⟨before, after, call, method, challenge, rfl, hrest⟩ := h
  exact ⟨before, after ++ [(other, event)], call, method, challenge, by simp, hrest⟩

/-- A fetch that began after more invalidations than a part of the history has is not in that
part. -/
theorem Began.notMem {before after : History}
    (h : Began manager (before ++ after) fetch key count)
    (hnodup : (fetchIds (before ++ after)).Nodup) (hcount : invalidations key before < count) :
    fetch ∉ fetchIds before ∧ fetch ∈ fetchIds after := by
  obtain ⟨left, right, caller, method, challenge, heq, -, -, rfl⟩ := h
  have hbefore : fetch ∉ fetchIds before := by
    intro hmem
    obtain ⟨other, hother⟩ := mem_fetchIds.mp hmem
    obtain ⟨front, back, rfl⟩ := List.append_of_mem hother
    rw [List.append_assoc, List.cons_append] at heq hnodup
    obtain rfl := eq_of_fetches hnodup heq
    rw [invalidations_append] at hcount
    omega
  have hmem : fetch ∈ fetchIds (before ++ after) := by
    rw [heq]
    exact mem_fetchIds.mpr ⟨caller, by simp⟩
  rw [fetchIds_append, List.mem_append] at hmem
  exact ⟨hbefore, hmem.resolve_left hbefore⟩

theorem Entered.le (h : Entered history call key count) : count ≤ invalidations key history := by
  obtain ⟨before, after, event, rfl, -, rfl⟩ := h
  rw [invalidations_append]
  omega

/-- A call enters by its own events only. -/
theorem Entered.of_append (h : Entered (history ++ [(other, event)]) call key count)
    (hother : other ≠ call ∨ (event ≠ .enters ∧ ∀ method challenge,
      event ≠ .starts method challenge)) : Entered history call key count := by
  obtain ⟨before, after, entry, heq, hentry, hcount⟩ := h
  rcases List.eq_nil_or_concat after with rfl | ⟨rest, last, rfl⟩
  · obtain ⟨-, hlast⟩ := List.append_inj' heq rfl
    obtain ⟨rfl, rfl⟩ := Prod.mk.inj (List.singleton_inj.mp hlast)
    rcases hother with hne | ⟨henters, hstarts⟩
    · exact absurd rfl hne
    · rcases hentry with rfl | ⟨method, challenge, rfl⟩
      · exact absurd rfl henters
      · exact absurd rfl (hstarts method challenge)
  · rw [List.concat_eq_append, ← List.cons_append, ← List.append_assoc] at heq
    obtain ⟨rfl, -⟩ := List.append_inj' heq rfl
    exact ⟨before, rest, entry, rfl, hentry, hcount⟩

end

/-! ## What the critical sections do to tokens and generations -/

namespace RegistryState

variable {state : RegistryState} {key other : ChallengeKey} {now : Nat}

theorem valid_eq_some {entry : CachedToken} : state.valid key now = some entry ↔
    state.cache.lookup key = some entry ∧ entry.generation = state.generation key ∧
      now < entry.expiresAt := by
  simp [valid, Option.filter_eq_some_iff]

theorem cache_load {entry : CachedToken}
    (h : (state.load key now).2.cache.lookup other = some entry) :
    state.cache.lookup other = some entry := by
  unfold load at h
  split at h
  · exact h
  · rw [HashMap.lookup_erase_eq] at h
    split at h
    · cases h
    · exact h

theorem load_eq_some {token : Token} (h : (state.load key now).1 = some token) :
    ∃ entry, state.cache.lookup key = some entry ∧ entry.generation = state.generation key ∧
      entry.token = token := by
  unfold load at h
  split at h
  · rename_i entry hvalid
    obtain ⟨hlookup, hgeneration, -⟩ := valid_eq_some.mp hvalid
    exact ⟨entry, hlookup, hgeneration, Option.some.inj h⟩
  · cases h

theorem cache_loadLast {entry : CachedToken}
    (h : (state.loadLast now).2.cache.lookup other = some entry) :
    state.cache.lookup other = some entry := by
  unfold loadLast at h
  split at h
  · exact h
  · exact cache_load h

theorem cache_finish {generation : UInt64} {flight : FlightId} :
    (state.finish key generation flight).2.cache = state.cache := by
  unfold finish
  split <;> rfl

end RegistryState

theorem toNat_saturatingSucc {n : UInt64} (h : n.toNat < 18446744073709551615) :
    (saturatingSucc n).toNat = n.toNat + 1 := by
  have hne : n ≠ 18446744073709551615 := by
    rintro rfl
    exact absurd h (by decide)
  rw [saturatingSucc, if_neg hne, UInt64.toNat_add]
  simp only [UInt64.reduceToNat]
  omega

/-- An operation that neither stores a token nor changes a generation. -/
def Operation.isQuiet : Operation → Bool
  | .store _ _ _ _ _ | .invalidate _ _ => false
  | _ => true

namespace Shared

variable {shared next : Shared} {operation : Operation}

theorem quiet_step (h : Step shared operation next) (hquiet : operation.isQuiet = true) :
    (∀ key entry, next.registry.cache.lookup key = some entry →
      shared.registry.cache.lookup key = some entry) ∧
    ∀ key, next.registry.generation key = shared.registry.generation key := by
  cases h with
  | load => exact ⟨fun _ _ => RegistryState.cache_load, by simp⟩
  | loadLast => exact ⟨fun _ _ => RegistryState.cache_loadLast, by simp⟩
  | acquire =>
      unfold acquire
      split
      · exact ⟨fun _ _ h => h, by simp [await]⟩
      · exact ⟨fun _ _ h => h, by simp [lead]⟩
  | store => cases hquiet
  | invalidate => cases hquiet
  | finish =>
      refine ⟨fun key entry hlookup => ?_, fun key => ?_⟩
      · simpa only [finish, setFlight, RegistryState.cache_finish] using hlookup
      · simp only [finish, setFlight, RegistryState.generation_finish]
  | _ => exact ⟨fun _ _ h => h, fun _ => rfl⟩

/-- A flight keeps the generation that its guard was created with. -/
theorem generation_step {id : FlightId} (h : Step shared operation next)
    (hid : id < shared.flightCount) :
    id < next.flightCount ∧ (next.flights id).generation = (shared.flights id).generation := by
  have hset : ∀ (base : Shared) (changed : FlightId) (flight : Flight),
      base.flights = shared.flights → base.flightCount = shared.flightCount →
      flight.generation = (shared.flights changed).generation →
      id < (base.setFlight changed flight).flightCount ∧
        ((base.setFlight changed flight).flights id).generation =
          (shared.flights id).generation := by
    intro base changed flight hflights hcount hgeneration
    refine ⟨hcount ▸ hid, ?_⟩
    by_cases heq : id = changed
    · subst heq
      simp only [setFlight, Function.update_self]
      exact hgeneration
    · simp only [setFlight, Function.update_of_ne heq, hflights]
  cases h with
  | acquire =>
      unfold acquire
      split
      · exact ⟨hid, rfl⟩
      · simp only [lead, Function.update_of_ne (Nat.ne_of_lt hid)]
        exact ⟨Nat.lt_succ_of_lt hid, trivial⟩
  | @invalidate key =>
      unfold invalidate
      cases hremoved : (shared.registry.invalidate key).1 with
      | none =>
          simp only [hremoved]
          exact ⟨hid, trivial⟩
      | some removed =>
          simp only [hremoved]
          exact hset _ _ _ rfl rfl rfl
  | finish => exact hset _ _ _ rfl rfl rfl
  | settle => exact hset _ _ _ rfl rfl rfl
  | @complete flight role outcome =>
      apply hset _ _ _ rfl rfl
      unfold Flight.complete
      split <;> rfl
  | notify => exact hset _ _ _ rfl rfl rfl
  | _ => exact ⟨hid, rfl⟩

end Shared

/-! ## The registry along a history -/

/-- The generations count the invalidations, and what is cached was requested in its generation. -/
structure Tracks (manager : TokenManager) (history : History) (registry : RegistryState) : Prop where
  generation : ∀ key, (registry.generation key).toNat = invalidations key history
  cache : ∀ key entry, registry.cache.lookup key = some entry →
    entry.generation = registry.generation key ∧
      ∃ count, Began manager history entry.token.fetch key count ∧ entry.generation.toNat ≤ count

namespace Tracks

variable {history : History} {registry next : RegistryState} {call : CallId} {event : Event}
  {key : ChallengeKey}

theorem quiet (h : Tracks manager history registry)
    (hcache : ∀ key entry, next.cache.lookup key = some entry →
      registry.cache.lookup key = some entry)
    (hgeneration : ∀ key, next.generation key = registry.generation key)
    (hevent : ∀ key, event ≠ .invalidates key) :
    Tracks manager (history ++ [(call, event)]) next where
  generation key := by
    rw [hgeneration, h.generation, invalidations_append, invalidations_singleton_of_ne (hevent key),
      Nat.add_zero]
  cache key entry hlookup := by
    obtain ⟨hcurrent, count, hbegan, hle⟩ := h.cache key entry (hcache key entry hlookup)
    rw [hgeneration]
    exact ⟨hcurrent, count, hbegan.append, hle⟩

theorem store {generation : UInt64} {token : Token} {expiresAt count : Nat}
    (h : Tracks manager history registry)
    (hbegan : Began manager history token.fetch key count) (hle : generation.toNat ≤ count)
    (hevent : ∀ key, event ≠ .invalidates key) :
    Tracks manager (history ++ [(call, event)])
      (registry.storeIfCurrent key generation token expiresAt).2 := by
  unfold RegistryState.storeIfCurrent
  split
  · rename_i hcurrent
    have hquiet : Tracks manager (history ++ [(call, event)]) registry :=
      h.quiet (fun _ _ h => h) (fun _ => rfl) hevent
    refine ⟨hquiet.generation, ?_⟩
    intro other entry hlookup
    rw [HashMap.lookup_insert_eq] at hlookup
    split at hlookup
    · rename_i heq
      obtain rfl := Option.some.inj hlookup
      subst heq
      exact ⟨hcurrent.symm, count, hbegan.append, hle⟩
    · exact hquiet.cache other entry hlookup
  · exact h.quiet (fun _ _ h => h) (fun _ => rfl) hevent

theorem invalidate (h : Tracks manager history registry)
    (hbound : invalidations key history < 18446744073709551615) :
    Tracks manager (history ++ [(call, .invalidates key)]) (registry.invalidate key).2 where
  generation other := by
    rw [RegistryState.generation_invalidate, invalidations_append]
    split
    · rename_i heq
      subst heq
      rw [invalidations_singleton, toNat_saturatingSucc (by rw [h.generation]; exact hbound),
        h.generation]
    · rename_i hne
      have hother : Event.invalidates key ≠ .invalidates other := by
        intro heq
        exact hne (Event.invalidates.inj heq).symm
      rw [h.generation, invalidations_singleton_of_ne hother, Nat.add_zero]
  cache other entry hlookup := by
    simp only [RegistryState.invalidate, HashMap.lookup_erase_eq] at hlookup
    split at hlookup
    · cases hlookup
    · rename_i hne
      obtain ⟨hcurrent, count, hbegan, hle⟩ := h.cache other entry hlookup
      rw [RegistryState.generation_invalidate, if_neg hne]
      exact ⟨hcurrent, count, hbegan.append, hle⟩

/-- A cached token of the current generation was requested after every invalidation. -/
theorem load {now : Nat} {token : Token} (h : Tracks manager history registry)
    (hload : (registry.load key now).1 = some token) :
    ∃ count, Began manager history token.fetch key count ∧ invalidations key history ≤ count := by
  obtain ⟨entry, hlookup, hcurrent, rfl⟩ := RegistryState.load_eq_some hload
  obtain ⟨-, count, hbegan, hle⟩ := h.cache key entry hlookup
  rw [hcurrent, h.generation] at hle
  exact ⟨count, hbegan, hle⟩

end Tracks

/-! ## The calls along a history -/

/-- The guard that a call holds is no older than the call. -/
def Holds (history : History) (shared : Shared) (call : CallId) (key : ChallengeKey)
    (flight : FlightId) : Prop :=
  flight < shared.flightCount ∧
    (shared.flights flight).generation.toNat ≤ invalidations key history ∧
    ∀ count, Entered history call key count → count ≤ (shared.flights flight).generation.toNat

/-- The fetch of a call began in the generation of its guard or later. -/
def Requested (manager : TokenManager) (history : History) (shared : Shared) (key : ChallengeKey)
    (flight : FlightId) (fetch : Nat) : Prop :=
  ∃ count, Began manager history fetch key count ∧
    (shared.flights flight).generation.toNat ≤ count

/-- The token was requested after every invalidation that the call came after. -/
def Fresh (manager : TokenManager) (history : History) (call : CallId) (key : ChallengeKey)
    (token : Token) : Prop :=
  ∃ count, Began manager history token.fetch key count ∧
    ∀ entered, Entered history call key entered → entered ≤ count

/-- What is known of a call by the place where it is. -/
def Sound (manager : TokenManager) (history : History) (shared : Shared) (call : CallId)
    (key : ChallengeKey) : Place → Prop
  | .rechecking flight | .requesting flight => Holds history shared call key flight
  | .fetching flight fetch | .storing flight ⟨_, fetch⟩ _ =>
      Holds history shared call key flight ∧ Requested manager history shared key flight fetch
  | .finishing _ _ (.returns token) | .ending _ (.returns token) | .returned (.ok token) =>
      Fresh manager history call key token
  | _ => True

section

variable {history : History} {shared next : Shared} {call other : CallId} {event : Event}
  {key : ChallengeKey} {flight : FlightId} {fetch : Nat} {token : Token} {operation : Operation}

/-- The memory changed by one critical section or not at all. -/
def Shared.Steps (shared next : Shared) : Prop :=
  next = shared ∨ ∃ operation, Shared.Step shared operation next

theorem Shared.Steps.generation (h : Shared.Steps shared next)
    (hflight : flight < shared.flightCount) :
    flight < next.flightCount ∧
      (next.flights flight).generation = (shared.flights flight).generation := by
  rcases h with rfl | ⟨operation, hstep⟩
  · exact ⟨hflight, rfl⟩
  · exact Shared.generation_step hstep hflight

/-- An event by which the call does not enter. -/
def Passes (call other : CallId) (event : Event) : Prop :=
  other ≠ call ∨ (event ≠ .enters ∧ ∀ method challenge, event ≠ .starts method challenge)

theorem Holds.append (h : Holds history shared call key flight) (hsteps : Shared.Steps shared next)
    (hpasses : Passes call other event) :
    Holds (history ++ [(other, event)]) next call key flight := by
  obtain ⟨hflight, hle, hentered⟩ := h
  obtain ⟨hflight', hgeneration⟩ := hsteps.generation hflight
  refine ⟨hflight', ?_, ?_⟩
  · rw [hgeneration, invalidations_append]
    omega
  · intro count hcount
    rw [hgeneration]
    exact hentered count (hcount.of_append hpasses)

theorem Requested.append (h : Requested manager history shared key flight fetch)
    (hflight : flight < shared.flightCount) (hsteps : Shared.Steps shared next) :
    Requested manager (history ++ [(other, event)]) next key flight fetch := by
  obtain ⟨count, hbegan, hle⟩ := h
  rw [← (hsteps.generation hflight).2] at hle
  exact ⟨count, hbegan.append, hle⟩

theorem Fresh.append (h : Fresh manager history call key token)
    (hpasses : Passes call other event) :
    Fresh manager (history ++ [(other, event)]) call key token := by
  obtain ⟨count, hbegan, hentered⟩ := h
  exact ⟨count, hbegan.append, fun entered h => hentered entered (h.of_append hpasses)⟩

theorem Sound.append {place : Place} (h : Sound manager history shared call key place)
    (hsteps : Shared.Steps shared next) (hpasses : Passes call other event) :
    Sound manager (history ++ [(other, event)]) next call key place := by
  match place, h with
  | .rechecking _, h => exact Holds.append h hsteps hpasses
  | .requesting _, h => exact Holds.append h hsteps hpasses
  | .fetching _ _, h => exact ⟨Holds.append h.1 hsteps hpasses, h.2.append h.1.1 hsteps⟩
  | .storing _ ⟨_, _⟩ _, h => exact ⟨Holds.append h.1 hsteps hpasses, h.2.append h.1.1 hsteps⟩
  | .finishing _ _ (.returns _), h => exact Fresh.append h hpasses
  | .ending _ (.returns _), h => exact Fresh.append h hpasses
  | .returned (.ok _), h => exact Fresh.append h hpasses
  | .finishing _ _ (.fails _), _ => trivial
  | .finishing _ _ .loops, _ => trivial
  | .finishing _ _ .aborts, _ => trivial
  | .ending _ (.fails _), _ => trivial
  | .ending _ .loops, _ => trivial
  | .ending _ .aborts, _ => trivial
  | .returned (.error _), _ => trivial
  | .idle, _ => trivial
  | .invalidating _, _ => trivial
  | .cancelling _ _, _ => trivial
  | .entering, _ => trivial
  | .loading, _ => trivial
  | .acquiring, _ => trivial
  | .waiting _, _ => trivial
  | .stopped, _ => trivial

/-- A cached token is fresh for every call that looks for it now. -/
theorem Tracks.fresh {now : Nat} (h : Tracks manager history shared.registry)
    (hload : (shared.registry.load key now).1 = some token) (call : CallId) :
    Fresh manager history call key token := by
  obtain ⟨count, hbegan, hle⟩ := h.load hload
  exact ⟨count, hbegan, fun entered hentered => hentered.le.trans hle⟩

end

/-! ## The system along a history -/

namespace System

variable {history : History} {system next : System} {call : CallId} {event : Event}

structure Inv (manager : TokenManager) (history : History) (system : System) : Prop where
  tracks : Tracks manager history system.shared.registry
  sound : ∀ call, Sound manager history system.shared call
    (manager.challengeKey (system.calls call).challenge) (system.calls call).place
  started : ∀ call method challenge, (call, Event.starts method challenge) ∈ history →
    (system.calls call).place ≠ .idle ∧ (system.calls call).challenge = challenge
  starts : ∀ call, (system.calls call).place ≠ .idle →
    ∃ method, (call, Event.starts method (system.calls call).challenge) ∈ history
  nodup : (fetchIds history).Nodup
  fetches : ∀ fetch ∈ fetchIds history, fetch < system.fetchCount

theorem inv_new : Inv manager [] new where
  tracks := ⟨fun _ => rfl, by simp [new, Shared.new, RegistryState.new]⟩
  sound _ := trivial
  started := by simp
  starts := by simp [new]
  nodup := by simp [fetchIds]
  fetches := by simp [fetchIds]

/-- The events that neither start a call nor begin a fetch. -/
def isPlain : Event → Bool
  | .starts _ _ | .fetches _ => false
  | _ => true

/-- A step of one call that neither starts it nor begins a fetch. -/
theorem Inv.moves {shared : Shared} {place : Place} (h : Inv manager history system)
    (hsteps : Shared.Steps system.shared shared)
    (htracks : Tracks manager (history ++ [(call, event)]) shared.registry)
    (hplace : (system.calls call).place ≠ .idle) (hnext : place ≠ .idle)
    (hplain : isPlain event = true)
    (hsound : Sound manager (history ++ [(call, event)]) shared call
      (manager.challengeKey (system.calls call).challenge) place) :
    Inv manager (history ++ [(call, event)]) (system.moves shared call place) := by
  have hcall : (system.moves shared call place).calls call =
      { system.calls call with place } := Function.update_self ..
  have hother : ∀ other, other ≠ call →
      (system.moves shared call place).calls other = system.calls other :=
    fun other hne => Function.update_of_ne hne ..
  have hids : fetchIds (history ++ [(call, event)]) = fetchIds history := by
    cases event with
    | fetches fetch => cases hplain
    | _ => simp [fetchIds]
  refine ⟨htracks, ?_, ?_, ?_, ?_, ?_⟩
  · intro other
    by_cases heq : other = call
    · subst heq
      rw [hcall]
      exact hsound
    · rw [hother other heq]
      exact (h.sound other).append hsteps (Or.inl (Ne.symm heq))
  · intro other method challenge hmem
    have hbefore : (other, Event.starts method challenge) ∈ history := by
      rcases List.mem_append.mp hmem with hmem | hmem
      · exact hmem
      · obtain ⟨-, rfl⟩ := Prod.mk.inj (List.mem_singleton.mp hmem)
        cases hplain
    by_cases heq : other = call
    · subst heq
      rw [hcall]
      exact ⟨hnext, (h.started other method challenge hbefore).2⟩
    · rw [hother other heq]
      exact h.started other method challenge hbefore
  · intro other hidle
    by_cases heq : other = call
    · subst heq
      obtain ⟨method, hmem⟩ := h.starts other hplace
      rw [hcall]
      exact ⟨method, List.mem_append_left _ hmem⟩
    · rw [hother other heq] at hidle ⊢
      obtain ⟨method, hmem⟩ := h.starts other hidle
      exact ⟨method, List.mem_append_left _ hmem⟩
  · rw [hids]
    exact h.nodup
  · intro fetch hfetch
    rw [hids] at hfetch
    exact h.fetches fetch hfetch

/-- A step with a quiet critical section, or with none. -/
theorem Inv.quiet {shared : Shared} {place : Place} (h : Inv manager history system)
    (hsteps : shared = system.shared ∨
      ∃ operation, operation.isQuiet = true ∧ Shared.Step system.shared operation shared)
    (hplace : (system.calls call).place ≠ .idle) (hnext : place ≠ .idle)
    (hplain : isPlain event = true) (hevent : ∀ key, event ≠ .invalidates key)
    (hsound : Sound manager (history ++ [(call, event)]) shared call
      (manager.challengeKey (system.calls call).challenge) place) :
    Inv manager (history ++ [(call, event)]) (system.moves shared call place) := by
  rcases hsteps with rfl | ⟨operation, hquiet, hstep⟩
  · exact h.moves (Or.inl rfl) (h.tracks.quiet (fun _ _ h => h) (fun _ => rfl) hevent) hplace hnext
      hplain hsound
  · obtain ⟨hcache, hgeneration⟩ := Shared.quiet_step hstep hquiet
    exact h.moves (Or.inr ⟨operation, hstep⟩) (h.tracks.quiet hcache hgeneration hevent) hplace
      hnext hplain hsound

theorem Inv.start {challenge : BearerChallenge} {method : Method} {place : Place}
    (h : Inv manager history system) (hidle : (system.calls call).place = .idle)
    (hnext : place ≠ .idle)
    (hsound : ∀ history shared key, Sound manager history shared call key place) :
    Inv manager (history ++ [(call, .starts method challenge)])
      { system with calls := Function.update system.calls call ⟨challenge, place⟩ } := by
  have hids : fetchIds (history ++ [(call, .starts method challenge)]) = fetchIds history := by
    simp [fetchIds]
  refine ⟨h.tracks.quiet (fun _ _ h => h) (fun _ => rfl) (by simp), ?_, ?_, ?_, ?_, ?_⟩
  · intro other
    by_cases heq : other = call
    · subst heq
      simp only [Function.update_self]
      exact hsound ..
    · simp only [Function.update_of_ne heq]
      exact (h.sound other).append (Or.inl rfl) (Or.inl (Ne.symm heq))
  · intro other method' challenge' hmem
    rcases List.mem_append.mp hmem with hmem | hmem
    · have hstarted := h.started other method' challenge' hmem
      have hne : other ≠ call := by
        rintro rfl
        exact hstarted.1 hidle
      simp only [Function.update_of_ne hne]
      exact hstarted
    · obtain ⟨rfl, hstarts⟩ := Prod.mk.inj (List.mem_singleton.mp hmem)
      obtain ⟨-, rfl⟩ := Event.starts.inj hstarts
      simp only [Function.update_self]
      exact ⟨hnext, trivial⟩
  · intro other hother
    by_cases heq : other = call
    · subst heq
      simp only [Function.update_self]
      exact ⟨method, by simp⟩
    · simp only [Function.update_of_ne heq] at hother ⊢
      obtain ⟨method', hmem⟩ := h.starts other hother
      exact ⟨method', List.mem_append_left _ hmem⟩
  · rw [hids]
    exact h.nodup
  · intro fetch hfetch
    rw [hids] at hfetch
    exact h.fetches fetch hfetch

/-- A fetch that begins is of the generation that the guard has seen, or of a later one. -/
theorem Inv.fetch {flight : FlightId} (h : Inv manager history system)
    (hplace : (system.calls call).place = .requesting flight) :
    Inv manager (history ++ [(call, .fetches system.fetchCount)])
      { system.goto call (.fetching flight system.fetchCount) with
        fetchCount := system.fetchCount + 1 } := by
  have hids : fetchIds (history ++ [(call, .fetches system.fetchCount)]) =
      fetchIds history ++ [system.fetchCount] := by simp [fetchIds]
  have hnew : system.fetchCount ∉ fetchIds history := by
    intro hmem
    exact Nat.lt_irrefl _ (h.fetches _ hmem)
  have hholds := h.sound call
  rw [hplace] at hholds
  obtain ⟨hflight, hle, hentered⟩ := hholds
  obtain ⟨method, hstart⟩ := h.starts call (by rw [hplace]; simp)
  refine ⟨h.tracks.quiet (fun _ _ h => h) (fun _ => rfl) (by simp), ?_, ?_, ?_, ?_, ?_⟩
  · intro other
    by_cases heq : other = call
    · subst heq
      simp only [goto, Function.update_self]
      refine ⟨Holds.append ⟨hflight, hle, hentered⟩ (Or.inl rfl) (Or.inr ⟨by simp, by simp⟩), ?_⟩
      exact ⟨_, ⟨history, [], other, method, _, rfl, hstart, rfl, rfl⟩, hle⟩
    · simp only [goto, Function.update_of_ne heq]
      exact (h.sound other).append (Or.inl rfl) (Or.inl (Ne.symm heq))
  · intro other method' challenge hmem
    have hbefore : (other, Event.starts method' challenge) ∈ history := by
      rcases List.mem_append.mp hmem with hmem | hmem
      · exact hmem
      · simp at hmem
    by_cases heq : other = call
    · subst heq
      simp only [goto, Function.update_self]
      exact ⟨by simp, (h.started other method' challenge hbefore).2⟩
    · simp only [goto, Function.update_of_ne heq]
      exact h.started other method' challenge hbefore
  · intro other hother
    by_cases heq : other = call
    · subst heq
      simp only [goto, Function.update_self]
      exact ⟨method, List.mem_append_left _ hstart⟩
    · simp only [goto, Function.update_of_ne heq] at hother ⊢
      obtain ⟨method', hmem⟩ := h.starts other hother
      exact ⟨method', List.mem_append_left _ hmem⟩
  · rw [hids]
    exact List.nodup_append.mpr ⟨h.nodup, by simp, fun fetch hfetch other hother => by
      rw [List.mem_singleton.mp hother]
      rintro rfl
      exact hnew hfetch⟩
  · intro fetch hfetch
    rw [hids, List.mem_append, List.mem_singleton] at hfetch
    change fetch < system.fetchCount + 1
    rcases hfetch with hfetch | rfl
    · exact Nat.lt_succ_of_lt (h.fetches fetch hfetch)
    · exact Nat.lt_succ_self _

theorem isQuiet_of_ends {flight : FlightId} {role : Role} {operation : Operation}
    (h : Ends flight role operation) : operation.isQuiet = true := by
  cases operation <;> first | rfl | cases h

theorem isQuiet_of_waits {waiter : WaiterId} {operation : Operation}
    (h : Waits waiter operation) : operation.isQuiet = true := by
  cases operation <;> first | rfl | cases h

theorem sound_start (manager : TokenManager) (method : Method) (challenge : BearerChallenge)
    (call : CallId) :
    startPlace manager method challenge ≠ .idle ∧ ∀ history shared key,
      Sound manager history shared call key (startPlace manager method challenge) := by
  unfold startPlace
  cases method <;> cases manager.validateChallenge challenge <;> simp [Sound]

theorem locked_load {shared next : Shared} {key : ChallengeKey} {now : Nat} {found : Option Token}
    (h : Shared.Step shared (.load key now found) next) : (shared.registry.load key now).1 = found := by
  cases h
  rfl

theorem locked_lead {shared next : Shared} {key : ChallengeKey} {flight : FlightId}
    (h : Shared.Step shared (.acquire key (.leader flight)) next) :
    flight < next.flightCount ∧
      (next.flights flight).generation = shared.registry.generation key := by
  generalize hacquired : Shared.Acquire.leader flight = acquired at h
  cases h
  unfold Shared.acquire at hacquired ⊢
  split at hacquired
  · cases hacquired
  · obtain rfl := Shared.Acquire.leader.inj hacquired
    simp only [Shared.lead, Function.update_self]
    exact ⟨Nat.lt_succ_self _, rfl⟩

theorem locked_store {shared next : Shared} {key : ChallengeKey} {generation : UInt64}
    {token : Token} {expiresAt : Nat} {stored : Bool}
    (h : Shared.Step shared (.store key generation token expiresAt stored) next) :
    next.registry = (shared.registry.storeIfCurrent key generation token expiresAt).2 := by
  cases h
  rfl

theorem locked_invalidate {shared next : Shared} {key : ChallengeKey} {removed : Option FlightId}
    (h : Shared.Step shared (.invalidate key removed) next) :
    next.registry = (shared.registry.invalidate key).2 := by
  cases h
  unfold Shared.invalidate
  cases hremoved : (shared.registry.invalidate key).1 <;> simp [hremoved, Shared.setFlight]

theorem passes {call : CallId} {event : Event} (h : isPlain event = true) (henters : event ≠ .enters) :
    Passes call call event := by
  refine Or.inr ⟨henters, ?_⟩
  rintro method challenge rfl
  cases h

/-- `cached_token` drops a token that has expired, and no call moves. -/
theorem Inv.cachedToken {shared : Shared} {now : Nat} {found : Option Token}
    (h : Inv manager history system)
    (locked : Shared.Step system.shared (.loadLast now found) shared) :
    Inv manager (history ++ [(call, .proceeds)]) { system with shared } := by
  obtain ⟨hcache, hgeneration⟩ := Shared.quiet_step locked rfl
  have hids : fetchIds (history ++ [(call, .proceeds)]) = fetchIds history := by simp [fetchIds]
  refine ⟨h.tracks.quiet hcache hgeneration (by simp), ?_, ?_, ?_, ?_, ?_⟩
  · intro other
    exact (h.sound other).append (Or.inr ⟨_, locked⟩) (Or.inr ⟨by simp, by simp⟩)
  · intro other method challenge hmem
    exact h.started other method challenge (by simpa using hmem)
  · intro other hother
    obtain ⟨method, hmem⟩ := h.starts other hother
    exact ⟨method, List.mem_append_left _ hmem⟩
  · rw [hids]
    exact h.nodup
  · intro fetch hfetch
    rw [hids] at hfetch
    exact h.fetches fetch hfetch

/-- Every step keeps the invariant, as long as no generation overflows. -/
theorem Inv.step (h : Inv manager history system) (hstep : Step manager system (call, event) next)
    (hbound : ∀ key, invalidations key (history ++ [(call, event)]) < 18446744073709551615) :
    Inv manager (history ++ [(call, event)]) next := by
  have hsound := h.sound call
  cases hstep with
  | @start _ method challenge hidle =>
      obtain ⟨hnext, hplace⟩ := sound_start manager method challenge call
      exact h.start hidle hnext hplace
  | @invalidate _ refresh removed shared here locked =>
      have hkey := hbound (manager.challengeKey (system.calls call).challenge)
      rw [invalidations_append] at hkey
      apply h.moves (Or.inr ⟨_, locked⟩)
      · rw [locked_invalidate locked]
        exact h.tracks.invalidate (by omega)
      · simp [here]
      · cases removed <;> cases refresh <;> simp [afterInvalidate]
      · rfl
      · cases removed <;> cases refresh <;> simp [afterInvalidate, Sound]
  | cancel here ends locked =>
      exact h.quiet (Or.inr ⟨_, isQuiet_of_ends ends, locked⟩) (by simp [here]) (by simp) rfl
        (by simp) trivial
  | @cancelled _ flight refresh here ended =>
      apply h.quiet (Or.inl rfl) (by simp [here]) _ rfl (by simp) _
      · cases refresh <;> simp [afterInvalidate]
      · cases refresh <;> simp [afterInvalidate, Sound]
  | enter here => exact h.quiet (Or.inl rfl) (by simp [here]) (by simp) rfl (by simp) trivial
  | hit here locked =>
      exact h.quiet (Or.inr ⟨_, rfl, locked⟩) (by simp [here]) (by simp) rfl (by simp)
        ((h.tracks.fresh (locked_load locked) call).append (passes rfl (by simp)))
  | miss here locked =>
      exact h.quiet (Or.inr ⟨_, rfl, locked⟩) (by simp [here]) (by simp) rfl (by simp) trivial
  | @lead _ flight shared here locked =>
      apply h.quiet (Or.inr ⟨_, rfl, locked⟩) (by simp [here]) (by simp) rfl (by simp)
      obtain ⟨hflight, hgeneration⟩ := locked_lead locked
      refine ⟨hflight, ?_, ?_⟩
      · rw [hgeneration, h.tracks.generation, invalidations_append]
        omega
      · intro count hcount
        rw [hgeneration, h.tracks.generation]
        exact (hcount.of_append (passes rfl (by simp))).le
  | await here locked =>
      exact h.quiet (Or.inr ⟨_, rfl, locked⟩) (by simp [here]) (by simp) rfl (by simp) trivial
  | recheckHit here locked =>
      exact h.quiet (Or.inr ⟨_, rfl, locked⟩) (by simp [here]) (by simp) rfl (by simp)
        ((h.tracks.fresh (locked_load locked) call).append (passes rfl (by simp)))
  | recheckMiss here locked =>
      rw [here] at hsound
      exact h.quiet (Or.inr ⟨_, rfl, locked⟩) (by simp [here]) (by simp) rfl (by simp)
        (Holds.append hsound (Or.inr ⟨_, locked⟩) (passes rfl (by simp)))
  | fetch here => exact h.fetch here
  | fetched here =>
      rw [here] at hsound
      exact h.quiet (Or.inl rfl) (by simp [here]) (by simp) rfl (by simp)
        ⟨Holds.append hsound.1 (Or.inl rfl) (passes rfl (by simp)),
          hsound.2.append hsound.1.1 (Or.inl rfl)⟩
  | fetchFailed here =>
      exact h.quiet (Or.inl rfl) (by simp [here]) (by simp) rfl (by simp) trivial
  | store here locked =>
      rw [here] at hsound
      obtain ⟨⟨-, -, hentered⟩, count, hbegan, hle⟩ := hsound
      apply h.moves (Or.inr ⟨_, locked⟩)
      · rw [locked_store locked]
        exact h.tracks.store hbegan hle (by simp)
      · simp [here]
      · simp
      · rfl
      · refine ⟨count, hbegan.append, fun entered h => ?_⟩
        exact (hentered entered (h.of_append (passes rfl (by simp)))).trans hle
  | stale here locked =>
      rw [here] at hsound
      obtain ⟨-, count, hbegan, hle⟩ := hsound
      apply h.moves (Or.inr ⟨_, locked⟩)
      · rw [locked_store locked]
        exact h.tracks.store hbegan hle (by simp)
      · simp [here]
      · simp
      · rfl
      · trivial
  | @finish _ flight outcome after shared here locked =>
      rw [here] at hsound
      apply h.quiet (Or.inr ⟨_, rfl, locked⟩) (by simp [here]) (by simp) rfl (by simp)
      cases after with
      | returns token => exact Fresh.append hsound (passes rfl (by simp))
      | _ => trivial
  | @end_ _ flight after operation shared here ends locked =>
      rw [here] at hsound
      apply h.quiet (Or.inr ⟨_, isQuiet_of_ends ends, locked⟩) (by simp [here]) (by simp) rfl
        (by simp)
      exact hsound.append (Or.inr ⟨_, locked⟩) (passes rfl (by simp))
  | @ended _ flight after here ended =>
      rw [here] at hsound
      cases after with
      | returns token =>
          exact h.quiet (Or.inl rfl) (by simp [here]) (by simp [afterEnd]) rfl
            (by simp [afterEndEvent]) (Fresh.append hsound (passes rfl (by simp [afterEndEvent])))
      | fails error =>
          exact h.quiet (Or.inl rfl) (by simp [here]) (by simp [afterEnd]) rfl
            (by simp [afterEndEvent]) trivial
      | loops =>
          exact h.quiet (Or.inl rfl) (by simp [here]) (by simp [afterEnd]) rfl
            (by simp [afterEndEvent]) trivial
      | aborts =>
          exact h.quiet (Or.inl rfl) (by simp [here]) (by simp [afterEnd]) rfl
            (by simp [afterEndEvent]) trivial
  | wait here waits locked =>
      exact h.quiet (Or.inr ⟨_, isQuiet_of_waits waits, locked⟩) (by simp [here]) (by simp) rfl
        (by simp) trivial
  | @woken _ waiter outcome here woken =>
      by_cases hfailed : outcome = .failed
      · simp only [if_pos hfailed]
        exact h.quiet (Or.inl rfl) (by simp [here]) (by simp) rfl (by simp) trivial
      · simp only [if_neg hfailed]
        exact h.quiet (Or.inl rfl) (by simp [here]) (by simp) rfl (by simp) trivial
  | @abortLeader _ flight holds =>
      have hplace : (system.calls call).place ≠ .idle := by
        intro hidle
        rw [hidle] at holds
        cases holds
      exact h.quiet (Or.inl rfl) hplace (by simp) rfl (by simp) trivial
  | abortWaiter here locked =>
      exact h.quiet (Or.inr ⟨_, rfl, locked⟩) (by simp [here]) (by simp) rfl (by simp) trivial
  | abort here =>
      have hplace : (system.calls call).place ≠ .idle := by
        rcases here with here | here | here <;> simp [here]
      exact h.quiet (Or.inl rfl) hplace (by simp) rfl (by simp) trivial
  | @cachedToken _ now found shared locked =>
      exact h.cachedToken locked

theorem inv_of_run (h : Run (Step manager) new history system)
    (hbound : ∀ key, invalidations key history < 18446744073709551615) :
    Inv manager history system := by
  refine h.invariant
    (I := fun history system => (∀ key, invalidations key history < 18446744073709551615) →
      Inv manager history system) (fun _ => inv_new) ?_ hbound
  rintro history system ⟨call, event⟩ next - ih hstep hbound
  refine (ih fun key => ?_).step hstep hbound
  have hkey := hbound key
  rw [invalidations_append] at hkey
  omega

/-- The state when a call has returned a token. -/
theorem Step.returned {token : Token} (h : Step manager system (call, .returns token) next) :
    (next.calls call).place = .returned (.ok token) := by
  generalize hlabel : (call, Event.returns token) = label at h
  cases h with
  | hit =>
      obtain ⟨rfl, hevent⟩ := Prod.mk.inj hlabel
      obtain rfl := Event.returns.inj hevent
      simp [moves, goto]
  | @ended _ flight after =>
      obtain ⟨rfl, hevent⟩ := Prod.mk.inj hlabel
      cases after with
      | returns found =>
          obtain rfl := Event.returns.inj hevent
          simp [goto, afterEnd]
      | _ => cases hevent
  | @woken _ _ outcome =>
      obtain ⟨rfl, hevent⟩ := Prod.mk.inj hlabel
      split at hevent <;> cases hevent
  | _ => cases (Prod.mk.inj hlabel).2

/-- What a call returns is fresh for it, at the time when it returns. -/
theorem fresh_of_returns {before after : History} {token : Token} {method : Method}
    {challenge : BearerChallenge} (h : Run (Step manager) new history system)
    (hbound : ∀ key, invalidations key history < 18446744073709551615)
    (hhistory : history = before ++ [(call, .returns token)] ++ after)
    (hstarts : (call, Event.starts method challenge) ∈ history) :
    (fetchIds (before ++ [(call, .returns token)])).Nodup ∧
      Fresh manager (before ++ [(call, .returns token)]) call (manager.challengeKey challenge)
        token := by
  have hfinal := inv_of_run h hbound
  rw [hhistory] at h hbound
  obtain ⟨middle, hmiddle, -⟩ := h.split
  obtain ⟨_, -, hstep⟩ := hmiddle.last
  have hplace := hstep.returned
  have hinv := inv_of_run hmiddle fun key => by
    have hkey := hbound key
    rw [invalidations_append] at hkey
    omega
  obtain ⟨method', hstarted⟩ := hinv.starts call (by rw [hplace]; simp)
  have hsame : (middle.calls call).challenge = challenge := by
    have hmem := List.mem_append_left after hstarted
    rw [← hhistory] at hmem
    rw [← (hfinal.started _ _ _ hmem).2, (hfinal.started _ _ _ hstarts).2]
  have hsound := hinv.sound call
  rw [hplace, hsame] at hsound
  exact ⟨hinv.nodup, hsound⟩

/-- After a key was invalidated, the cache holds no token of that key that was requested before, and
a call for that key that starts, or begins to look for a token, afterwards does not return one.  A
token is only returned for the key that it was requested for. -/
theorem tokens_fresh (h : Run (Step manager) new history system)
    (hbound : ∀ key, invalidations key history < 18446744073709551615) :
    (∀ before after caller key, history = before ++ (caller, .invalidates key) :: after →
      (∀ entry, system.shared.registry.cache.lookup key = some entry →
        entry.token.fetch ∉ fetchIds before ∧ entry.token.fetch ∈ fetchIds after) ∧
      ∀ call method challenge token event early late,
        (call, Event.starts method challenge) ∈ history → manager.challengeKey challenge = key →
        event = .enters ∨ event = .starts method challenge →
        after = early ++ (call, event) :: late → (call, .returns token) ∈ late →
        token.fetch ∉ fetchIds before ∧ token.fetch ∈ fetchIds after) ∧
    ∀ call method challenge token, (call, Event.starts method challenge) ∈ history →
      (call, .returns token) ∈ history →
      ∃ caller method' challenge', (caller, Event.starts method' challenge') ∈ history ∧
        (caller, .fetches token.fetch) ∈ history ∧
        manager.challengeKey challenge' = manager.challengeKey challenge := by
  have hinv := inv_of_run h hbound
  refine ⟨?_, ?_⟩
  · intro before after caller key hhistory
    have hone : invalidations key [(caller, Event.invalidates key)] = 1 := invalidations_singleton
    refine ⟨?_, ?_⟩
    · intro entry hlookup
      obtain ⟨hcurrent, count, hbegan, hle⟩ := hinv.tracks.cache key entry hlookup
      have hnodup := hinv.nodup
      rw [hcurrent, hinv.tracks.generation, hhistory, ← List.singleton_append,
        invalidations_append, invalidations_append, hone] at hle
      rw [hhistory] at hbegan hnodup
      obtain ⟨hbefore, hafter⟩ := hbegan.notMem hnodup (by omega)
      exact ⟨hbefore, by simpa [fetchIds] using hafter⟩
    · intro call method challenge token event early late hstarts hkey hevent hafter hreturns
      obtain ⟨front, back, rfl⟩ := List.append_of_mem hreturns
      have hsplit : history = (before ++ ([(caller, .invalidates key)] ++ early ++
          (call, event) :: front)) ++ [(call, .returns token)] ++ back := by
        rw [hhistory, hafter]
        simp
      obtain ⟨hnodup, count, hbegan, hentered⟩ := fresh_of_returns h hbound hsplit hstarts
      have hcount := hentered (invalidations key (before ++ ([(caller, .invalidates key)] ++ early)))
        ⟨before ++ ([(caller, .invalidates key)] ++ early), front ++ [(call, .returns token)], event,
          by simp, by
          rcases hevent with rfl | rfl
          · exact Or.inl rfl
          · exact Or.inr ⟨method, challenge, rfl⟩, by rw [hkey]⟩
      rw [hkey] at hbegan
      rw [invalidations_append, invalidations_append, hone] at hcount
      rw [List.append_assoc] at hbegan hnodup
      obtain ⟨hbefore, hmem⟩ := hbegan.notMem hnodup (by omega)
      refine ⟨hbefore, ?_⟩
      rw [hafter]
      obtain ⟨other, hother⟩ := mem_fetchIds.mp hmem
      refine mem_fetchIds.mpr ⟨other, ?_⟩
      simp only [List.mem_append, List.mem_cons, List.not_mem_nil, Prod.mk.injEq, reduceCtorEq,
        and_false, or_false, false_or] at hother ⊢
      tauto
  · intro call method challenge token hstarts hreturns
    obtain ⟨before, after, hsplit⟩ := List.append_of_mem hreturns
    obtain ⟨-, count, hbegan, -⟩ := fresh_of_returns h hbound (by simpa using hsplit) hstarts
    obtain ⟨left, right, caller, method', challenge', heq, hstarted, hkey, -⟩ := hbegan
    have hsub : ∀ event ∈ before ++ [(call, Event.returns token)], event ∈ history := by
      intro event hevent
      rw [hsplit]
      simp only [List.mem_append, List.mem_cons] at hevent ⊢
      tauto
    refine ⟨caller, method', challenge', hsub _ ?_, hsub _ ?_, hkey⟩
    · rw [heq]
      exact List.mem_append_left _ hstarted
    · rw [heq]
      simp

/-- The calls use the registry as anyone may. -/
theorem run_shared (h : Run (Step manager) new history system) :
    ∃ operations, Run Shared.Step .new operations system.shared := by
  refine h.simulate System.shared fun system label next hstep => ?_
  cases hstep with
  | start | cancelled | enter | fetch | fetched | fetchFailed | ended | woken | abortLeader
  | abort => exact Or.inl rfl
  | invalidate _ locked | hit _ locked | miss _ locked | lead _ locked | await _ locked
  | recheckHit _ locked | recheckMiss _ locked | store _ locked | stale _ locked
  | finish _ locked | abortWaiter _ locked | cachedToken locked => exact Or.inr ⟨_, locked⟩
  | cancel _ _ locked | end_ _ _ locked | wait _ _ locked => exact Or.inr ⟨_, locked⟩

/-! ### A token that is requested after an invalidation -/

def sampleManager : TokenManager where
  endpoint := ⟨.https, "registry.example.test", none, "registry.example.test", ""⟩
  repo := "test/repo"
  writeAccess := false
  driver := .genericOci
  toLowercase := id
  validateChallenge _ := .ok ()

def sampleChallenge : BearerChallenge :=
  ⟨"https://auth.example.test/token", some "registry.example.test", some "pull"⟩

/-- One call invalidates the key, then another one fetches a token for it. -/
def sampleHistory : History :=
  [(0, .starts .invalidateChallenge sampleChallenge), (0, .invalidates Shared.sampleKey),
    (1, .starts .getTokenForChallenge sampleChallenge), (1, .enters), (1, .proceeds), (1, .proceeds),
    (1, .proceeds), (1, .fetches 0), (1, .proceeds), (1, .proceeds), (1, .proceeds), (1, .proceeds),
    (1, .proceeds), (1, .proceeds), (1, .returns ⟨"token", 0⟩)]

/-- The first call has returned, the second is at the place. -/
def sampleSystem (shared : Shared) (fetchCount : Nat) (place : Place) : System where
  shared := shared
  calls call :=
    if call = 0 then ⟨sampleChallenge, .stopped⟩
    else if call = 1 then ⟨sampleChallenge, place⟩ else new.calls call
  fetchCount := fetchCount

theorem moves_sampleSystem (shared next : Shared) (fetchCount : Nat) (place place' : Place) :
    (sampleSystem shared fetchCount place).moves next 1 place' =
      sampleSystem next fetchCount place' := by
  simp only [moves, goto, sampleSystem, System.mk.injEq, true_and, and_true]
  funext call
  by_cases h : call = 1
  · subst h
    rfl
  · simp [h]

section

open Shared (sampleKey)

/-! The memory after the invalidation, with the guard, with the token, and when the guard is gone. -/

def sampleCleared : Shared := (Shared.new.invalidate sampleKey).2

def sampleMissed : Shared :=
  { sampleCleared with registry := (sampleCleared.registry.load sampleKey 0).2 }

def sampleLed : Shared := (sampleMissed.acquire sampleKey).2

def sampleRechecked : Shared :=
  { sampleLed with registry := (sampleLed.registry.load sampleKey 0).2 }

def sampleStored : Shared :=
  { sampleRechecked with
    registry := (sampleRechecked.registry.storeIfCurrent sampleKey 1 ⟨"token", 0⟩ 300).2 }

def sampleSettling : Shared := sampleStored.finish 0 .succeeded

def sampleCompleting : Shared := sampleSettling.settle 0 true .succeeded

def sampleNotifying : Shared := sampleCompleting.complete 0 .guard .succeeded

def sampleEnded : Shared := sampleNotifying.notify 0 .guard

/-- A step of the second call. -/
theorem step_sampleSystem {shared next : Shared} {count : Nat} {place place' : Place} {event : Event}
    (h : Step sampleManager (sampleSystem shared count place) (1, event)
      ((sampleSystem shared count place).moves next 1 place')) :
    Step sampleManager (sampleSystem shared count place) (1, event)
      (sampleSystem next count place') := by
  rwa [moves_sampleSystem] at h

theorem end_sampleSystem {shared next : Shared} {operation : Operation} {after : After}
    (hstep : Shared.Step shared operation next) (hends : Ends 0 .guard operation) :
    Step sampleManager (sampleSystem shared 1 (.ending 0 after)) (1, .proceeds)
      (sampleSystem next 1 (.ending 0 after)) :=
  step_sampleSystem (.end_ rfl hends hstep)

/-- The first call has validated its challenge. -/
def sampleInvalidating : System :=
  { new with calls := Function.update new.calls 0 ⟨sampleChallenge, .invalidating false⟩ }

theorem run_sampleCleared :
    Run (Step sampleManager) new
      [(0, .starts .invalidateChallenge sampleChallenge), (0, .invalidates sampleKey),
        (1, .starts .getTokenForChallenge sampleChallenge)]
      (sampleSystem sampleCleared 0 .entering) := by
  have hstart : Step sampleManager new (0, .starts .invalidateChallenge sampleChallenge)
      sampleInvalidating := .start rfl
  have hinvalidate : Step sampleManager sampleInvalidating (0, .invalidates sampleKey)
      (sampleInvalidating.moves sampleCleared 0 .stopped) :=
    @Step.invalidate sampleManager sampleInvalidating 0 false none sampleCleared rfl .invalidate
  have hnext : Step sampleManager (sampleInvalidating.moves sampleCleared 0 .stopped)
      (1, .starts .getTokenForChallenge sampleChallenge)
      (sampleSystem sampleCleared 0 .entering) := by
    have hsystem : sampleSystem sampleCleared 0 .entering =
        { sampleInvalidating.moves sampleCleared 0 .stopped with
          calls := Function.update (sampleInvalidating.moves sampleCleared 0 .stopped).calls 1
            ⟨sampleChallenge, .entering⟩ } := by
      simp only [sampleSystem, sampleInvalidating, moves, goto, new, System.mk.injEq, true_and,
        and_true]
      funext call
      match call with
      | 0 => rfl
      | 1 => rfl
      | call + 2 => rfl
    rw [hsystem]
    exact .start rfl
  exact ((Run.single hstart).snoc hinvalidate).snoc hnext

theorem run_sampleStored :
    Run (Step sampleManager) (sampleSystem sampleCleared 0 .entering)
      [(1, .enters), (1, .proceeds), (1, .proceeds), (1, .proceeds), (1, .fetches 0),
        (1, .proceeds), (1, .proceeds)]
      (sampleSystem sampleStored 1 (.finishing 0 .succeeded (.returns ⟨"token", 0⟩))) := by
  have henter : Step sampleManager (sampleSystem sampleCleared 0 .entering) (1, .enters)
      (sampleSystem sampleCleared 0 .loading) := step_sampleSystem (.enter rfl)
  have hmiss : Step sampleManager (sampleSystem sampleCleared 0 .loading) (1, .proceeds)
      (sampleSystem sampleMissed 0 .acquiring) := step_sampleSystem (.miss rfl .load)
  have hlead : Step sampleManager (sampleSystem sampleMissed 0 .acquiring) (1, .proceeds)
      (sampleSystem sampleLed 0 (.rechecking 0)) := step_sampleSystem (.lead rfl .acquire)
  have hrecheck : Step sampleManager (sampleSystem sampleLed 0 (.rechecking 0)) (1, .proceeds)
      (sampleSystem sampleRechecked 0 (.requesting 0)) :=
    step_sampleSystem (.recheckMiss rfl .load)
  have hfetch : Step sampleManager (sampleSystem sampleRechecked 0 (.requesting 0))
      (1, .fetches 0) (sampleSystem sampleRechecked 1 (.fetching 0 0)) := by
    have hsystem : sampleSystem sampleRechecked 1 (.fetching 0 0) =
        { (sampleSystem sampleRechecked 0 (.requesting 0)).moves sampleRechecked 1 (.fetching 0 0) with
          fetchCount := 1 } := by
      rw [moves_sampleSystem]
      rfl
    rw [hsystem]
    exact .fetch rfl
  have hfetched : Step sampleManager (sampleSystem sampleRechecked 1 (.fetching 0 0)) (1, .proceeds)
      (sampleSystem sampleRechecked 1 (.storing 0 ⟨"token", 0⟩ 300)) :=
    step_sampleSystem (.fetched rfl)
  have hstore : Step sampleManager (sampleSystem sampleRechecked 1 (.storing 0 ⟨"token", 0⟩ 300))
      (1, .proceeds)
      (sampleSystem sampleStored 1 (.finishing 0 .succeeded (.returns ⟨"token", 0⟩))) :=
    step_sampleSystem (.store rfl .store)
  exact ((((((Run.single henter).snoc hmiss).snoc hlead).snoc hrecheck).snoc hfetch).snoc
    hfetched).snoc hstore

theorem run_sampleHistory :
    Run (Step sampleManager) new sampleHistory
      (sampleSystem sampleEnded 1 (.returned (.ok ⟨"token", 0⟩))) := by
  have hfinish : Step sampleManager
      (sampleSystem sampleStored 1 (.finishing 0 .succeeded (.returns ⟨"token", 0⟩)))
      (1, .proceeds) (sampleSystem sampleSettling 1 (.ending 0 (.returns ⟨"token", 0⟩))) :=
    step_sampleSystem (.finish rfl (.finish (by decide) rfl))
  have hsettle : Shared.Step sampleSettling (.settle 0) sampleCompleting := .settle (by decide) rfl
  have hcomplete : Shared.Step sampleCompleting (.complete 0 .guard) sampleNotifying :=
    .complete (by decide) rfl
  have hnotify : Shared.Step sampleNotifying (.notify 0 .guard) sampleEnded :=
    .notify (by decide) rfl
  have hended : Step sampleManager
      (sampleSystem sampleEnded 1 (.ending 0 (.returns ⟨"token", 0⟩))) (1, .returns ⟨"token", 0⟩)
      (sampleSystem sampleEnded 1 (.returned (.ok ⟨"token", 0⟩))) :=
    step_sampleSystem (@Step.ended sampleManager _ 1 0 (.returns ⟨"token", 0⟩) rfl rfl)
  exact run_sampleCleared.append (run_sampleStored.append
    (((((Run.single hfinish).snoc (end_sampleSystem hsettle ⟨rfl, rfl⟩)).snoc
      (end_sampleSystem hcomplete ⟨rfl, rfl⟩)).snoc
        (end_sampleSystem hnotify ⟨rfl, rfl⟩)).snoc hended))

/-- The cached token and the returned one were requested after the invalidation. -/
theorem tokens_fresh_sampleHistory :
    Run (Step sampleManager) new sampleHistory
      (sampleSystem sampleEnded 1 (.returned (.ok ⟨"token", 0⟩))) ∧
    sampleEnded.registry.cache.lookup sampleKey = some ⟨⟨"token", 0⟩, 1, 300⟩ ∧
    0 ∈ fetchIds (sampleHistory.drop 2) := by
  have hbound : ∀ key, invalidations key sampleHistory < 18446744073709551615 := by
    intro key
    have hle : invalidations key sampleHistory ≤ sampleHistory.length := List.countP_le_length
    exact Nat.lt_of_le_of_lt hle (by decide)
  have hcache : sampleEnded.registry.cache.lookup sampleKey = some ⟨⟨"token", 0⟩, 1, 300⟩ := rfl
  have hfresh := (tokens_fresh run_sampleHistory hbound).1
    [(0, .starts .invalidateChallenge sampleChallenge)] (sampleHistory.drop 2) 0 sampleKey rfl
  exact ⟨run_sampleHistory, hcache, (hfresh.2 1 .getTokenForChallenge sampleChallenge ⟨"token", 0⟩
    .enters [(1, .starts .getTokenForChallenge sampleChallenge)] (sampleHistory.drop 4)
    (by decide) rfl (Or.inl rfl) rfl (by decide)).2⟩

end

end System

end NixCache.Oci.Tokens
