import NixCache.Oci.Token
/-!
# Single flight

Whatever is done with the registry, and in whatever order: a registered flight belongs to a guard of
the current generation that has not been finished, a flight without an outcome has a guard that will
give it one, and a waiter sleeps only while its flight has such a guard or its notification is under
way.
-/

namespace NixCache.Oci.Tokens

open NixCache.Lib NixCache.Lib.Transition

/-! ## What one critical section does to the registry -/

namespace RegistryState

variable {state : RegistryState} {key other : ChallengeKey} {flight : FlightId} {now : Nat}

@[simp] theorem flights_load : (state.load key now).2.flights = state.flights := by
  unfold load
  split <;> rfl

@[simp] theorem generation_load : (state.load key now).2.generation other = state.generation other := by
  unfold load
  split <;> rfl

@[simp] theorem flights_loadLast : (state.loadLast now).2.flights = state.flights := by
  unfold loadLast
  split <;> simp

@[simp] theorem generation_loadLast :
    (state.loadLast now).2.generation other = state.generation other := by
  unfold loadLast
  split <;> simp

@[simp] theorem flights_touch : (state.touch key).flights = state.flights := rfl

@[simp] theorem generation_touch : (state.touch key).generation other = state.generation other := by
  simp only [touch, generation, HashMap.lookup_insert_eq]
  split
  · rename_i h
    subst h
    rfl
  · rfl

@[simp] theorem lookup_flights_register : (state.register key flight).flights.lookup other =
    if other = key then some flight else state.flights.lookup other :=
  HashMap.lookup_insert_eq _ _ _ _

@[simp] theorem generation_register :
    (state.register key flight).generation other = state.generation other := rfl

section Store

variable {generation : UInt64} {token : Token} {expiresAt : Nat}

@[simp] theorem flights_storeIfCurrent :
    (state.storeIfCurrent key generation token expiresAt).2.flights = state.flights := by
  unfold storeIfCurrent
  split <;> rfl

@[simp] theorem generation_storeIfCurrent :
    (state.storeIfCurrent key generation token expiresAt).2.generation other =
      state.generation other := by
  unfold storeIfCurrent
  split <;> rfl

end Store

@[simp] theorem lookup_flights_invalidate : (state.invalidate key).2.flights.lookup other =
    if other = key then none else state.flights.lookup other :=
  HashMap.lookup_erase_eq _ _ _

@[simp] theorem generation_invalidate : (state.invalidate key).2.generation other =
    if other = key then saturatingSucc (state.generation key) else state.generation other := by
  simp only [invalidate, generation, HashMap.lookup_insert_eq]
  split <;> rfl

@[simp] theorem generation_finish {generation : UInt64} :
    (state.finish key generation flight).2.generation other = state.generation other := by
  unfold finish
  split <;> rfl

/-- `finish` takes out its own flight and no other. -/
theorem lookup_flights_finish {generation : UInt64} {id : FlightId}
    (h : (state.finish key generation flight).2.flights.lookup other = some id) :
    state.flights.lookup other = some id ∧
      (id = flight → other = key → state.generation key ≠ generation) := by
  unfold finish at h
  split at h
  · rename_i hsame
    simp only [HashMap.lookup_erase_eq] at h
    split at h
    · cases h
    · rename_i hne
      exact ⟨h, fun _ heq => absurd heq hne⟩
  · rename_i hdiffer
    refine ⟨h, ?_⟩
    rintro rfl rfl hgeneration
    exact hdiffer ⟨h, hgeneration⟩

theorem lookup_flights_finish_of_ne {generation : UInt64} {id : FlightId}
    (h : state.flights.lookup other = some id) (hne : id ≠ flight) :
    (state.finish key generation flight).2.flights.lookup other = some id := by
  unfold finish
  split
  · rename_i hsame
    rw [HashMap.lookup_erase_eq, if_neg]
    · exact h
    · rintro rfl
      rw [h, Option.some.injEq] at hsame
      exact hne hsame.1
  · exact h

end RegistryState

/-! ## The invariant -/

/-- A guard in this phase has yet to see to it that the outcome is set. -/
def Phase.isLive : Phase → Bool
  | .pending | .settling _ _ | .completing _ => true
  | .notifying | .ended => false

theorem Flight.phase_enter_of_ne {flight : Flight} {role other : Role} {phase : Phase}
    (h : other ≠ role) : (flight.enter role phase).phase other = flight.phase other :=
  Function.update_of_ne h _ _

theorem Flight.notifying_enter {flight : Flight} {role other : Role} {phase : Phase}
    (hother : flight.phase other = .notifying) (hrole : flight.phase role ≠ .notifying) :
    (flight.enter role phase).phase other = .notifying := by
  have hne : other ≠ role := by
    rintro rfl
    exact hrole hother
  rw [Flight.phase_enter_of_ne hne]
  exact hother

namespace Shared

variable {shared next : Shared} {operation : Operation}

structure Valid (shared : Shared) : Prop where
  /-- A registered flight belongs to a guard of the current generation that nobody has finished. -/
  registered : ∀ key id, shared.registry.flights.lookup key = some id →
    id < shared.flightCount ∧ (shared.flights id).key = key ∧
      (shared.flights id).generation = shared.registry.generation key ∧
      ∀ role, (shared.flights id).phase role = .pending
  guarded : ∀ id < shared.flightCount, (shared.flights id).outcome = none →
    ((shared.flights id).phase .guard).isLive = true
  waits : ∀ id < shared.waiterCount, (shared.waiters id).flight < shared.flightCount
  /-- A sleeping waiter has been notified, or waits for an outcome, or will be notified. -/
  parked : ∀ id < shared.waiterCount, (shared.waiters id).phase = .parked →
    (shared.waiters id).notified = false →
    (shared.flights (shared.waiters id).flight).outcome = none ∨
      ∃ role, (shared.flights (shared.waiters id).flight).phase role = .notifying

theorem valid_new : Valid new where
  registered := by
    intro key id h
    simp [new, RegistryState.new] at h
  guarded := by
    intro id h
    simp [new] at h
  waits := by
    intro id h
    simp [new] at h
  parked := by
    intro id h
    simp [new] at h

/-! ### Steps that keep the invariant -/

theorem Valid.of_registry {registry : RegistryState} (h : Valid shared)
    (hflights : registry.flights = shared.registry.flights)
    (hgenerations : ∀ key, registry.generation key = shared.registry.generation key) :
    Valid { shared with registry } where
  registered := by
    intro key id hlookup
    change registry.flights.lookup key = some id at hlookup
    rw [hflights] at hlookup
    change _ ∧ _ ∧ _ = registry.generation key ∧ _
    rw [hgenerations]
    exact h.registered key id hlookup
  guarded := h.guarded
  waits := h.waits
  parked := h.parked

/-- A flight that is not registered may change, as long as its guard and its sleepers are seen to. -/
theorem Valid.setFlight {id : FlightId} {flight : Flight} (h : Valid shared)
    (hunregistered : ∀ key, shared.registry.flights.lookup key ≠ some id)
    (hguarded : flight.outcome = none → (flight.phase .guard).isLive = true)
    (hparked : (shared.flights id).outcome = none ∨
      (∃ role, (shared.flights id).phase role = .notifying) →
      flight.outcome = none ∨ ∃ role, flight.phase role = .notifying) :
    Valid (shared.setFlight id flight) where
  registered := by
    intro key other hlookup
    have hne : other ≠ id := by
      rintro rfl
      exact hunregistered key hlookup
    simp only [Shared.setFlight, Function.update_of_ne hne]
    exact h.registered key other hlookup
  guarded := by
    intro other hother houtcome
    by_cases heq : other = id
    · subst heq
      simp only [Shared.setFlight, Function.update_self] at houtcome ⊢
      exact hguarded houtcome
    · simp only [Shared.setFlight, Function.update_of_ne heq] at houtcome ⊢
      exact h.guarded other hother houtcome
  waits := h.waits
  parked := by
    intro waiter hwaiter hphase hnotified
    have hsleeps := h.parked waiter hwaiter hphase hnotified
    simp only [Shared.setFlight]
    by_cases heq : (shared.waiters waiter).flight = id
    · rw [heq] at hsleeps ⊢
      rw [Function.update_self]
      exact hparked hsleeps
    · rw [Function.update_of_ne heq]
      exact hsleeps

theorem Valid.setWaiter {id : WaiterId} {phase : WaiterPhase} (h : Valid shared)
    (hparked : phase = .parked → (shared.flights (shared.waiters id).flight).outcome = none) :
    Valid (shared.setWaiter id { shared.waiters id with phase }) where
  registered := h.registered
  guarded := h.guarded
  waits := by
    intro other hother
    by_cases heq : other = id
    · subst heq
      simp only [Shared.setWaiter, Function.update_self]
      exact h.waits other hother
    · simp only [Shared.setWaiter, Function.update_of_ne heq]
      exact h.waits other hother
  parked := by
    intro other hother hphase hnotified
    by_cases heq : other = id
    · subst heq
      simp only [Shared.setWaiter, Function.update_self] at hphase ⊢
      exact Or.inl (hparked hphase)
    · simp only [Shared.setWaiter, Function.update_of_ne heq] at hphase hnotified ⊢
      exact h.parked other hother hphase hnotified

theorem Valid.not_registered {id : FlightId} (h : Valid shared) (role : Role)
    (hphase : (shared.flights id).phase role ≠ .pending) (key : ChallengeKey) :
    shared.registry.flights.lookup key ≠ some id := by
  intro hlookup
  exact hphase ((h.registered key id hlookup).2.2.2 role)

theorem Valid.lead {key : ChallengeKey} (h : Valid shared) : Valid (shared.lead key) where
  registered := by
    intro other id hlookup
    simp only [Shared.lead, RegistryState.lookup_flights_register, RegistryState.flights_touch,
      RegistryState.generation_register, RegistryState.generation_touch] at hlookup ⊢
    split at hlookup
    · rename_i heq
      obtain rfl := Option.some.inj hlookup
      rw [heq, Function.update_self]
      exact ⟨Nat.lt_succ_self _, rfl, rfl, fun _ => rfl⟩
    · obtain ⟨hid, hrest⟩ := h.registered other id hlookup
      rw [Function.update_of_ne (Nat.ne_of_lt hid)]
      exact ⟨Nat.lt_succ_of_lt hid, hrest⟩
  guarded := by
    intro id hid houtcome
    simp only [Shared.lead] at hid houtcome ⊢
    by_cases heq : id = shared.flightCount
    · rw [heq, Function.update_self]
      rfl
    · rw [Function.update_of_ne heq] at houtcome ⊢
      exact h.guarded id (by omega) houtcome
  waits := by
    intro waiter hwaiter
    exact Nat.lt_succ_of_lt (h.waits waiter hwaiter)
  parked := by
    intro waiter hwaiter hphase hnotified
    have hflight := h.waits waiter hwaiter
    simp only [Shared.lead]
    rw [Function.update_of_ne (Nat.ne_of_lt hflight)]
    exact h.parked waiter hwaiter hphase hnotified

theorem Valid.await {key : ChallengeKey} {flight : FlightId} (h : Valid shared)
    (hflight : flight < shared.flightCount) : Valid (shared.await key flight) where
  registered := by
    intro other id hlookup
    simp only [Shared.await, RegistryState.flights_touch, RegistryState.generation_touch]
      at hlookup ⊢
    exact h.registered other id hlookup
  guarded := h.guarded
  waits := by
    intro waiter hwaiter
    simp only [Shared.await] at hwaiter ⊢
    by_cases heq : waiter = shared.waiterCount
    · rw [heq, Function.update_self]
      exact hflight
    · rw [Function.update_of_ne heq]
      exact h.waits waiter (by omega)
  parked := by
    intro waiter hwaiter hphase hnotified
    simp only [Shared.await] at hwaiter hphase hnotified ⊢
    by_cases heq : waiter = shared.waiterCount
    · rw [heq, Function.update_self] at hphase
      cases hphase
    · rw [Function.update_of_ne heq] at hphase hnotified ⊢
      exact h.parked waiter (by omega) hphase hnotified

theorem Valid.acquire {key : ChallengeKey} (h : Valid shared) : Valid (shared.acquire key).2 := by
  unfold Shared.acquire
  split
  · rename_i flight hlookup
    exact h.await (h.registered key flight hlookup).1
  · exact h.lead

/-- Without the flight of one key, the registry may move that key to any generation. -/
theorem Valid.unregister (key : ChallengeKey) {registry : RegistryState} (h : Valid shared)
    (hflights : ∀ other id, registry.flights.lookup other = some id →
      other ≠ key ∧ shared.registry.flights.lookup other = some id)
    (hgenerations : ∀ other, other ≠ key →
      registry.generation other = shared.registry.generation other) :
    Valid { shared with registry } where
  registered := by
    intro other id hlookup
    obtain ⟨hne, hbefore⟩ := hflights other id hlookup
    change _ ∧ _ ∧ _ = registry.generation other ∧ _
    rw [hgenerations other hne]
    exact h.registered other id hbefore
  guarded := h.guarded
  waits := h.waits
  parked := h.parked

theorem Valid.invalidate {key : ChallengeKey} (h : Valid shared) :
    Valid (shared.invalidate key).2 := by
  have hregistry : Valid { shared with registry := (shared.registry.invalidate key).2 } := by
    apply h.unregister key
    · intro other id hlookup
      rw [RegistryState.lookup_flights_invalidate] at hlookup
      split at hlookup
      · cases hlookup
      · rename_i hne
        exact ⟨hne, hlookup⟩
    · intro other hne
      rw [RegistryState.generation_invalidate, if_neg hne]
  unfold Shared.invalidate
  cases hremoved : (shared.registry.invalidate key).1 with
  | none =>
      simp only [hremoved]
      exact hregistry
  | some id =>
      have hlookup : shared.registry.flights.lookup key = some id := hremoved
      obtain ⟨hid, hkey, -, hpending⟩ := h.registered key id hlookup
      simp only [hremoved]
      apply hregistry.setFlight
      · -- the flight was registered under its own key only
        intro other hother
        change (shared.registry.invalidate key).2.flights.lookup other = some id at hother
        rw [RegistryState.lookup_flights_invalidate] at hother
        split at hother
        · cases hother
        · rename_i hne
          exact hne ((h.registered other id hother).2.1.symm.trans hkey)
      · intro _
        simp [Flight.enter, hpending, Phase.isLive]
      · rintro (houtcome | ⟨role, hrole⟩)
        · exact Or.inl houtcome
        · change (shared.flights id).phase role = _ at hrole
          rw [hpending] at hrole
          cases hrole

theorem Valid.finish {id : FlightId} {outcome : FlightOutcome} (h : Valid shared)
    (hpending : (shared.flights id).phase .guard = .pending) : Valid (shared.finish id outcome) := by
  -- the flight is gone afterwards: while registered it is of the current generation
  have hgone : ∀ other, (shared.registry.finish (shared.flights id).key
      (shared.flights id).generation id).2.flights.lookup other ≠ some id := by
    intro other hlookup
    obtain ⟨hbefore, hstale⟩ := RegistryState.lookup_flights_finish hlookup
    obtain ⟨-, hkey, hgeneration, -⟩ := h.registered other id hbefore
    apply hstale rfl hkey.symm
    rw [hgeneration, hkey]
  have hregistry : Valid { shared with registry := (shared.registry.finish (shared.flights id).key
      (shared.flights id).generation id).2 } :=
    { registered := by
        intro other found hlookup
        rw [RegistryState.generation_finish]
        exact h.registered other found (RegistryState.lookup_flights_finish hlookup).1
      guarded := h.guarded
      waits := h.waits
      parked := h.parked }
  apply hregistry.setFlight hgone
  · intro _
    simp [Flight.enter, Phase.isLive]
  · rintro (houtcome | ⟨role, hrole⟩)
    · exact Or.inl houtcome
    · exact Or.inr ⟨role, Flight.notifying_enter hrole (by rw [hpending]; simp)⟩

theorem Valid.settle {id : FlightId} {removed : Bool} {outcome : FlightOutcome} (h : Valid shared)
    (hsettling : (shared.flights id).phase .guard = .settling removed outcome) :
    Valid (shared.settle id removed outcome) := by
  apply h.setFlight (h.not_registered .guard (by rw [hsettling]; simp))
  · intro houtcome
    have hnone : (shared.flights id).outcome = none := houtcome
    simp [Flight.enter, hnone, Phase.isLive]
  · rintro (houtcome | ⟨role, hrole⟩)
    · exact Or.inl houtcome
    · exact Or.inr ⟨role, Flight.notifying_enter hrole (by rw [hsettling]; simp)⟩

theorem Valid.complete {id : FlightId} {role : Role} {outcome : FlightOutcome} (h : Valid shared)
    (hcompleting : (shared.flights id).phase role = .completing outcome) :
    Valid (shared.complete id role outcome) := by
  apply h.setFlight (h.not_registered role (by rw [hcompleting]; simp))
  · intro houtcome
    unfold Flight.complete at houtcome
    split at houtcome
    · cases houtcome
    · rename_i hsome
      exact absurd (hsome.symm.trans houtcome) (by simp)
  · intro hsleeps
    unfold Flight.complete
    split
    · exact Or.inr ⟨role, by simp [Flight.enter]⟩
    · rename_i found hsome
      rw [hsome] at hsleeps
      obtain hnone | ⟨other, hother⟩ := hsleeps
      · cases hnone
      · exact Or.inr ⟨other, Flight.notifying_enter hother (by rw [hcompleting]; simp)⟩

theorem Valid.notify {id : FlightId} {role : Role} (h : Valid shared)
    (hid : id < shared.flightCount)
    (hnotifying : (shared.flights id).phase role = .notifying) : Valid (shared.notify id role) where
  registered := by
    intro key other hlookup
    have hne : other ≠ id := by
      rintro rfl
      exact h.not_registered role (by rw [hnotifying]; simp) key hlookup
    simp only [Shared.notify, Shared.setFlight, Function.update_of_ne hne]
    exact h.registered key other hlookup
  guarded := by
    intro other hother houtcome
    simp only [Shared.notify, Shared.setFlight] at houtcome ⊢
    by_cases heq : other = id
    · subst heq
      rw [Function.update_self] at houtcome ⊢
      have hlive := h.guarded other hother houtcome
      have hne : Role.guard ≠ role := by
        rintro rfl
        rw [hnotifying] at hlive
        cases hlive
      rw [Flight.phase_enter_of_ne hne]
      exact hlive
    · rw [Function.update_of_ne heq] at houtcome ⊢
      exact h.guarded other hother houtcome
  waits := by
    intro waiter hwaiter
    simp only [Shared.notify, Waiter.notify]
    split <;> exact h.waits waiter hwaiter
  parked := by
    intro waiter hwaiter hphase hnotified
    simp only [Shared.notify, Shared.setFlight, Waiter.notify] at hphase hnotified ⊢
    split at hphase
    · -- a waiter of this flight has just been notified
      rename_i hreached
      rw [if_pos hreached] at hnotified
      cases hnotified
    · rename_i hreached
      rw [if_neg hreached] at hnotified ⊢
      have hne : (shared.waiters waiter).flight ≠ id := by
        intro heq
        exact hreached ⟨heq, Or.inr hphase⟩
      rw [Function.update_of_ne hne]
      exact h.parked waiter hwaiter hphase hnotified

/-- Every critical section keeps the invariant. -/
theorem Valid.step (h : Valid shared) (hstep : Step shared operation next) : Valid next := by
  cases hstep with
  | load => exact h.of_registry (by simp) (by simp)
  | loadLast => exact h.of_registry (by simp) (by simp)
  | acquire => exact h.acquire
  | store => exact h.of_registry (by simp) (by simp)
  | invalidate => exact h.invalidate
  | finish _ hpending => exact h.finish hpending
  | settle _ hsettling => exact h.settle hsettling
  | complete _ hcompleting => exact h.complete hcompleting
  | notify hid hnotifying => exact h.notify hid hnotifying
  | enable => exact h.setWaiter (by simp)
  | @look id _ _ =>
      apply h.setWaiter
      intro hparked
      cases houtcome : (shared.flights (shared.waiters id).flight).outcome with
      | none => rfl
      | some outcome => simp [houtcome] at hparked
  | wake => exact h.setWaiter (by simp)
  | drop => exact h.setWaiter (by simp)

theorem valid_of_run {operations : List Operation} (h : Run Step new operations shared) :
    Valid shared :=
  h.stable (fun _ _ _ hvalid hstep => hvalid.step hstep) valid_new

/-! ### Outcomes, and the flights of others -/

theorem outcome_setFlight {id other : FlightId} {flight : Flight} {outcome : FlightOutcome}
    (hkeeps : (shared.flights id).outcome = some outcome → flight.outcome = some outcome)
    (h : (shared.flights other).outcome = some outcome) :
    ((shared.setFlight id flight).flights other).outcome = some outcome := by
  by_cases heq : other = id
  · subst heq
    simp only [setFlight, Function.update_self]
    exact hkeeps h
  · simp only [setFlight, Function.update_of_ne heq]
    exact h

/-- An outcome that is set stays as it is. -/
theorem outcome_step {id : FlightId} {outcome : FlightOutcome} (hstep : Step shared operation next)
    (hid : id < shared.flightCount) (h : (shared.flights id).outcome = some outcome) :
    id < next.flightCount ∧ (next.flights id).outcome = some outcome := by
  cases hstep with
  | load => exact ⟨hid, h⟩
  | loadLast => exact ⟨hid, h⟩
  | @acquire key =>
      unfold acquire
      split
      · exact ⟨hid, h⟩
      · simp only [lead, Function.update_of_ne (Nat.ne_of_lt hid)]
        exact ⟨Nat.lt_succ_of_lt hid, h⟩
  | store => exact ⟨hid, h⟩
  | @invalidate key =>
      unfold invalidate
      cases hremoved : (shared.registry.invalidate key).1 with
      | none =>
          simp only [hremoved]
          exact ⟨hid, h⟩
      | some removed =>
          simp only [hremoved]
          exact ⟨hid, outcome_setFlight (fun h => h) h⟩
  | finish => exact ⟨hid, outcome_setFlight (fun h => h) h⟩
  | settle => exact ⟨hid, outcome_setFlight (fun h => h) h⟩
  | complete =>
      refine ⟨hid, outcome_setFlight (fun hset => ?_) h⟩
      simp only [Flight.complete, hset]
      exact hset
  | notify => exact ⟨hid, outcome_setFlight (fun h => h) h⟩
  | enable => exact ⟨hid, h⟩
  | look => exact ⟨hid, h⟩
  | wake => exact ⟨hid, h⟩
  | drop => exact ⟨hid, h⟩

/-- At no time is more than one flight registered for a key, and the registered one belongs to a
guard of the current generation that nobody has finished.  A flight without an outcome has a guard
that has yet to complete it, so a waiter that sleeps on it without having been notified waits for
that guard, or for the notification of an outcome that has just been set.  Outcomes are set at most
once, and the end of a guard leaves the flights of all others registered. -/
theorem singleFlight {operations more : List Operation} {later : Shared}
    (h : Run Step new operations shared) (hmore : Run Step shared more later) :
    (∀ key id, shared.registry.flights.lookup key = some id →
      id < shared.flightCount ∧ (shared.flights id).key = key ∧
        (shared.flights id).generation = shared.registry.generation key ∧
        (shared.flights id).phase .guard = .pending) ∧
    (∀ key key' id, shared.registry.flights.lookup key = some id →
      shared.registry.flights.lookup key' = some id → key = key') ∧
    (∀ id < shared.flightCount, (shared.flights id).outcome = none →
      ((shared.flights id).phase .guard).isLive = true) ∧
    (∀ waiter < shared.waiterCount, (shared.waiters waiter).phase = .parked →
      (shared.waiters waiter).notified = false →
      ((shared.flights (shared.waiters waiter).flight).outcome = none ∧
        ((shared.flights (shared.waiters waiter).flight).phase .guard).isLive = true) ∨
      ∃ role, (shared.flights (shared.waiters waiter).flight).phase role = .notifying) ∧
    (∀ id < shared.flightCount, ∀ outcome, (shared.flights id).outcome = some outcome →
      (later.flights id).outcome = some outcome) ∧
    (∀ id outcome key other, other ≠ id → shared.registry.flights.lookup key = some other →
      (shared.finish id outcome).registry.flights.lookup key = some other) := by
  have hvalid := valid_of_run h
  refine ⟨?_, ?_, hvalid.guarded, ?_, ?_, ?_⟩
  · intro key id hlookup
    obtain ⟨hid, hkey, hgeneration, hpending⟩ := hvalid.registered key id hlookup
    exact ⟨hid, hkey, hgeneration, hpending .guard⟩
  · intro key key' id hlookup hlookup'
    exact (hvalid.registered key id hlookup).2.1.symm.trans
      (hvalid.registered key' id hlookup').2.1
  · intro waiter hwaiter hphase hnotified
    obtain houtcome | hrole := hvalid.parked waiter hwaiter hphase hnotified
    · exact Or.inl ⟨houtcome, hvalid.guarded _ (hvalid.waits waiter hwaiter) houtcome⟩
    · exact Or.inr hrole
  · intro id hid outcome houtcome
    have hkept := hmore.stable (P := fun s => id < s.flightCount ∧
      (s.flights id).outcome = some outcome)
      (fun s operation t hs hstep => outcome_step hstep hs.1 hs.2) ⟨hid, houtcome⟩
    exact hkept.2
  · intro id outcome key other hne hlookup
    exact RegistryState.lookup_flights_finish_of_ne hlookup hne

def sampleKey : ChallengeKey := ⟨"https://auth.example.test/token", "registry.example.test", "pull"⟩

/-- A leader and a waiter for its flight. -/
def sampleAcquired : Shared := ((new.acquire sampleKey).2.acquire sampleKey).2

/-- The waiter sleeps. -/
def sampleParked : Shared :=
  (sampleAcquired.setWaiter 0 ⟨0, .enabled, false⟩).setWaiter 0 ⟨0, .parked, false⟩

/-- The key is invalidated under both of them. -/
def sampleShared : Shared := (sampleParked.invalidate sampleKey).2

theorem run_sampleShared : ∃ operations, Run Step new operations sampleShared := by
  have hfirst : Step new _ (new.acquire sampleKey).2 := .acquire
  have hsecond : Step (new.acquire sampleKey).2 _ sampleAcquired := .acquire
  have henable : Step sampleAcquired (.enable 0) (sampleAcquired.setWaiter 0 ⟨0, .enabled, false⟩) :=
    .enable (by decide) rfl
  have hlook : Step (sampleAcquired.setWaiter 0 ⟨0, .enabled, false⟩) (.look 0) sampleParked :=
    .look (by decide) rfl
  have hinvalidate : Step sampleParked _ sampleShared := .invalidate
  exact ⟨_, ((((Run.single hfirst).snoc hsecond).snoc henable).snoc hlook).snoc hinvalidate⟩

/-- The waiter of an invalidated flight still has a guard to wait for. -/
theorem singleFlight_sampleShared :
    ∃ operations, Run Step new operations sampleShared ∧
      (sampleShared.waiters 0).phase = .parked ∧ (sampleShared.waiters 0).notified = false ∧
      sampleShared.registry.flights.lookup sampleKey = none ∧
      ((sampleShared.flights 0).phase .guard).isLive = true := by
  obtain ⟨operations, hrun⟩ := run_sampleShared
  have hlive := (singleFlight hrun .nil).2.2.1 0 (by decide) rfl
  exact ⟨operations, hrun, rfl, rfl, rfl, hlive⟩

end Shared

end NixCache.Oci.Tokens
