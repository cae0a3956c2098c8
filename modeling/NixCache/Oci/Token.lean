import NixCache.Lib.Transition
import NixCache.Oci.Backend
import Mathlib.Logic.Function.Basic
/-!
# Tokens

The registry of token fetches and the calls that share it.  Every critical section is one function on
the shared memory; what a call does between two of them is a place in its program.  `Instant` is a
number, the clock may show anything, and a fetch may return anything.  A token carries the number of
the fetch that returned it.
-/

namespace NixCache.Oci.Tokens

open NixCache.Lib NixCache.Core

structure ChallengeKey where
  realm : String
  service : String
  scope : String
deriving DecidableEq, Repr

structure BearerChallenge where
  realm : String
  service : Option String
  scope : Option String
deriving DecidableEq, Repr

def BearerChallenge.cacheKey (challenge : BearerChallenge) (defaultService defaultScope : String) :
    ChallengeKey :=
  ⟨challenge.realm, challenge.service.getD defaultService, challenge.scope.getD defaultScope⟩

inductive FlightOutcome where
  | succeeded
  | failed
  | cancelled
deriving DecidableEq, Repr

abbrev FlightId := Nat

abbrev WaiterId := Nat

/-- The text of a token and the number of its fetch. -/
structure Token where
  text : String
  fetch : Nat
deriving DecidableEq, Repr

structure CachedToken where
  token : Token
  generation : UInt64
  expiresAt : Nat
deriving DecidableEq, Repr

/-! ## The registry behind its lock -/

structure RegistryState where
  cache : HashMap ChallengeKey CachedToken
  flights : HashMap ChallengeKey FlightId
  generations : HashMap ChallengeKey UInt64
  lastKey : Option ChallengeKey

/-- `saturating_add(1)`. -/
def saturatingSucc (n : UInt64) : UInt64 := if n = 18446744073709551615 then n else n + 1

namespace RegistryState

def new : RegistryState := ⟨∅, ∅, ∅, none⟩

/-- `generations.get(key).copied().unwrap_or_default()`. -/
def generation (state : RegistryState) (key : ChallengeKey) : UInt64 :=
  (state.generations.lookup key).getD 0

/-- The cached token of a key, when it belongs to the current generation and has not expired. -/
def valid (state : RegistryState) (key : ChallengeKey) (now : Nat) : Option CachedToken :=
  (state.cache.lookup key).filter fun entry =>
    entry.generation = state.generation key ∧ now < entry.expiresAt

def load (state : RegistryState) (key : ChallengeKey) (now : Nat) : Option Token × RegistryState :=
  match state.valid key now with
  | some entry => (some entry.token, state)
  | none => (none, { state with cache := state.cache.erase key })

def loadLast (state : RegistryState) (now : Nat) : Option Token × RegistryState :=
  match state.lastKey with
  | none => (none, state)
  | some key => state.load key now

/-- `generations.entry(key).or_default()`. -/
def touch (state : RegistryState) (key : ChallengeKey) : RegistryState :=
  { state with generations := state.generations.insert key (state.generation key) }

def register (state : RegistryState) (key : ChallengeKey) (flight : FlightId) : RegistryState :=
  { state with flights := state.flights.insert key flight }

def storeIfCurrent (state : RegistryState) (key : ChallengeKey) (generation : UInt64)
    (token : Token) (expiresAt : Nat) : Bool × RegistryState :=
  if state.generation key = generation then
    (true, { state with
      cache := state.cache.insert key ⟨token, generation, expiresAt⟩
      lastKey := some key })
  else (false, state)

/-- The locked part of `invalidate`, with the flight that it takes out. -/
def invalidate (state : RegistryState) (key : ChallengeKey) : Option FlightId × RegistryState :=
  (state.flights.lookup key,
    { state with
      generations := state.generations.insert key (saturatingSucc (state.generation key))
      cache := state.cache.erase key
      flights := state.flights.erase key })

/-- The locked part of `finish`: whether it took the flight out. -/
def finish (state : RegistryState) (key : ChallengeKey) (generation : UInt64) (flight : FlightId) :
    Bool × RegistryState :=
  if state.flights.lookup key = some flight ∧ state.generation key = generation then
    (true, { state with flights := state.flights.erase key })
  else (false, state)

end RegistryState

/-! ## Flights and waiters -/

/-- Who ends a flight: its guard, by `finish` or by being dropped, or an `invalidate` that took it
out of the registry. -/
inductive Role where
  | guard
  | invalidation
deriving DecidableEq, Repr

/-- How far the end of a flight has come in the hands of one role. -/
inductive Phase where
  | pending
  /-- The lock of `finish` is released, the outcome is to be looked at. -/
  | settling (removed : Bool) (outcome : FlightOutcome)
  /-- `complete` is to set the outcome. -/
  | completing (outcome : FlightOutcome)
  /-- `notify_waiters` is to be called. -/
  | notifying
  | ended
deriving DecidableEq, Repr

/-- A flight and what its guard was created with. -/
structure Flight where
  key : ChallengeKey
  generation : UInt64
  outcome : Option FlightOutcome
  phase : Role → Phase

/-- A fresh flight, held by a guard. -/
def Flight.new (key : ChallengeKey) (generation : UInt64) : Flight :=
  ⟨key, generation, none, fun _ => .pending⟩

def Flight.enter (flight : Flight) (role : Role) (phase : Phase) : Flight :=
  { flight with phase := Function.update flight.phase role phase }

/-- The locked part of `complete`: it sets an outcome only once, and notifies only then. -/
def Flight.complete (flight : Flight) (role : Role) (outcome : FlightOutcome) : Flight :=
  match flight.outcome with
  | none => { flight.enter role .notifying with outcome := some outcome }
  | some _ => flight.enter role .ended

inductive WaiterPhase where
  | created
  /-- `enable` has been called. -/
  | enabled
  /-- The outcome was not set, and the waiter sleeps. -/
  | parked
  | woken (outcome : FlightOutcome)
  | dropped
deriving DecidableEq, Repr

structure Waiter where
  flight : FlightId
  phase : WaiterPhase
  notified : Bool
deriving DecidableEq, Repr

/-- Notification reaches the waiters that have been enabled. -/
def Waiter.notify (flight : FlightId) (waiter : Waiter) : Waiter :=
  if waiter.flight = flight ∧ (waiter.phase = .enabled ∨ waiter.phase = .parked) then
    { waiter with notified := true }
  else waiter

/-- The memory that the calls share.  Flights and waiters are numbered as they are created. -/
structure Shared where
  registry : RegistryState
  flights : FlightId → Flight
  flightCount : Nat
  waiters : WaiterId → Waiter
  waiterCount : Nat

namespace Shared

def new : Shared where
  registry := .new
  flights := fun _ => .new ⟨"", "", ""⟩ 0
  flightCount := 0
  waiters := fun _ => ⟨0, .dropped, false⟩
  waiterCount := 0

def setFlight (shared : Shared) (id : FlightId) (flight : Flight) : Shared :=
  { shared with flights := Function.update shared.flights id flight }

def setWaiter (shared : Shared) (id : WaiterId) (waiter : Waiter) : Shared :=
  { shared with waiters := Function.update shared.waiters id waiter }

/-- `acquire` when no flight is registered: a new flight and its guard. -/
def lead (shared : Shared) (key : ChallengeKey) : Shared :=
  { shared with
    registry := (shared.registry.touch key).register key shared.flightCount
    flights := Function.update shared.flights shared.flightCount
      (.new key (shared.registry.generation key))
    flightCount := shared.flightCount + 1 }

/-- `acquire` when a flight is registered: a new waiter. -/
def await (shared : Shared) (key : ChallengeKey) (flight : FlightId) : Shared :=
  { shared with
    registry := shared.registry.touch key
    waiters := Function.update shared.waiters shared.waiterCount ⟨flight, .created, false⟩
    waiterCount := shared.waiterCount + 1 }

inductive Acquire where
  | leader (flight : FlightId)
  | waiter (waiter : WaiterId)
deriving DecidableEq, Repr

def acquire (shared : Shared) (key : ChallengeKey) : Acquire × Shared :=
  match shared.registry.flights.lookup key with
  | some flight => (.waiter shared.waiterCount, shared.await key flight)
  | none => (.leader shared.flightCount, shared.lead key)

/-- The locked part of `invalidate`; the flight that was taken out is then completed. -/
def invalidate (shared : Shared) (key : ChallengeKey) : Option FlightId × Shared :=
  let (removed, registry) := shared.registry.invalidate key
  match removed with
  | none => (none, { shared with registry })
  | some id =>
      (some id, { shared with registry }.setFlight id
        ((shared.flights id).enter .invalidation (.completing .cancelled)))

/-- The locked part of `finish`, for the guard of a flight. -/
def finish (shared : Shared) (id : FlightId) (outcome : FlightOutcome) : Shared :=
  let flight := shared.flights id
  let (removed, registry) := shared.registry.finish flight.key flight.generation id
  { shared with registry }.setFlight id (flight.enter .guard (.settling removed outcome))

/-- `remove || flight.outcome().is_none()`. -/
def settle (shared : Shared) (id : FlightId) (removed : Bool) (outcome : FlightOutcome) : Shared :=
  let flight := shared.flights id
  shared.setFlight id
    (flight.enter .guard
      (if removed ∨ flight.outcome = none then .completing outcome else .ended))

def complete (shared : Shared) (id : FlightId) (role : Role) (outcome : FlightOutcome) : Shared :=
  shared.setFlight id ((shared.flights id).complete role outcome)

def notify (shared : Shared) (id : FlightId) (role : Role) : Shared :=
  { shared.setFlight id ((shared.flights id).enter role .ended) with
    waiters := fun waiter => (shared.waiters waiter).notify id }

end Shared

/-! ## Any use of the registry -/

/-- An operation on the registry, a flight or a waiter, with what it returned. -/
inductive Operation where
  | load (key : ChallengeKey) (now : Nat) (found : Option Token)
  | loadLast (now : Nat) (found : Option Token)
  | acquire (key : ChallengeKey) (acquired : Shared.Acquire)
  | store (key : ChallengeKey) (generation : UInt64) (token : Token) (expiresAt : Nat)
      (stored : Bool)
  | invalidate (key : ChallengeKey) (removed : Option FlightId)
  | finish (flight : FlightId) (outcome : FlightOutcome)
  | settle (flight : FlightId)
  | complete (flight : FlightId) (role : Role)
  | notify (flight : FlightId) (role : Role)
  | enable (waiter : WaiterId)
  | look (waiter : WaiterId)
  | wake (waiter : WaiterId)
  | drop (waiter : WaiterId)
deriving DecidableEq, Repr

/-- One critical section.  Dropping a guard is `finish` with the outcome `cancelled`; a guard is
finished at most once, since `finish` takes it. -/
inductive Shared.Step : Shared → Operation → Shared → Prop where
  | load {shared : Shared} {key : ChallengeKey} {now : Nat} :
      Step shared (.load key now (shared.registry.load key now).1)
        { shared with registry := (shared.registry.load key now).2 }
  | loadLast {shared : Shared} {now : Nat} :
      Step shared (.loadLast now (shared.registry.loadLast now).1)
        { shared with registry := (shared.registry.loadLast now).2 }
  | acquire {shared : Shared} {key : ChallengeKey} :
      Step shared (.acquire key (shared.acquire key).1) (shared.acquire key).2
  | store {shared : Shared} {key : ChallengeKey} {generation : UInt64} {token : Token}
      {expiresAt : Nat} :
      Step shared
        (.store key generation token expiresAt
          (shared.registry.storeIfCurrent key generation token expiresAt).1)
        { shared with
          registry := (shared.registry.storeIfCurrent key generation token expiresAt).2 }
  | invalidate {shared : Shared} {key : ChallengeKey} :
      Step shared (.invalidate key (shared.invalidate key).1) (shared.invalidate key).2
  | finish {shared : Shared} {id : FlightId} {outcome : FlightOutcome}
      (exists_ : id < shared.flightCount) (pending : (shared.flights id).phase .guard = .pending) :
      Step shared (.finish id outcome) (shared.finish id outcome)
  | settle {shared : Shared} {id : FlightId} {removed : Bool} {outcome : FlightOutcome}
      (exists_ : id < shared.flightCount)
      (settling : (shared.flights id).phase .guard = .settling removed outcome) :
      Step shared (.settle id) (shared.settle id removed outcome)
  | complete {shared : Shared} {id : FlightId} {role : Role} {outcome : FlightOutcome}
      (exists_ : id < shared.flightCount)
      (completing : (shared.flights id).phase role = .completing outcome) :
      Step shared (.complete id role) (shared.complete id role outcome)
  | notify {shared : Shared} {id : FlightId} {role : Role} (exists_ : id < shared.flightCount)
      (notifying : (shared.flights id).phase role = .notifying) :
      Step shared (.notify id role) (shared.notify id role)
  | enable {shared : Shared} {id : WaiterId} (exists_ : id < shared.waiterCount)
      (created : (shared.waiters id).phase = .created) :
      Step shared (.enable id)
        (shared.setWaiter id { shared.waiters id with phase := .enabled })
  -- a set outcome is returned at once, otherwise the waiter sleeps
  | look {shared : Shared} {id : WaiterId} (exists_ : id < shared.waiterCount)
      (enabled : (shared.waiters id).phase = .enabled) :
      Step shared (.look id)
        (shared.setWaiter id { shared.waiters id with
          phase := ((shared.flights (shared.waiters id).flight).outcome.map .woken).getD .parked })
  | wake {shared : Shared} {id : WaiterId} (exists_ : id < shared.waiterCount)
      (parked : (shared.waiters id).phase = .parked)
      (notified : (shared.waiters id).notified = true) :
      Step shared (.wake id)
        (shared.setWaiter id { shared.waiters id with
          phase := .woken ((shared.flights (shared.waiters id).flight).outcome.getD .cancelled) })
  | drop {shared : Shared} {id : WaiterId} (exists_ : id < shared.waiterCount) :
      Step shared (.drop id) (shared.setWaiter id { shared.waiters id with phase := .dropped })

/-! ## The token manager -/

/-- `format_auth_scope`, the same for every driver. -/
def formatAuthScope (toLowercase : String → String) (driver : RegistryKind) (repo : String)
    (write : Bool) : String :=
  let canonicalRepo := driver.canonicalizeRepository toLowercase repo
  let targetRepo :=
    if Str.endsWith canonicalRepo "/nix-cache" then canonicalRepo else canonicalRepo ++ "/nix-cache"
  "repository:" ++ targetRepo ++ ":" ++ (if write then "pull,push" else "pull")

structure TokenManager where
  endpoint : RegistryEndpoint
  repo : String
  writeAccess : Bool
  driver : RegistryKind
  /-- `str::to_lowercase`. -/
  toLowercase : String → String
  /-- `validate_challenge`, which depends on `http::Uri` and on whether there is a secret. -/
  validateChallenge : BearerChallenge → Except OciError Unit

namespace TokenManager

def defaultScope (manager : TokenManager) : String :=
  formatAuthScope manager.toLowercase manager.driver manager.repo manager.writeAccess

def defaultService (manager : TokenManager) : String := manager.endpoint.authority

def challengeKey (manager : TokenManager) (challenge : BearerChallenge) : ChallengeKey :=
  challenge.cacheKey manager.defaultService manager.defaultScope

end TokenManager

abbrev CallId := Nat

/-- The public functions that a call runs. -/
inductive Method where
  | getTokenForChallenge
  | refreshToken
  | invalidateChallenge
deriving DecidableEq, Repr

/-- How a call goes on when a flight has ended. -/
inductive After where
  | returns (token : Token)
  | fails (error : OciError)
  /-- The `loop` of `get_token_for_key` begins again. -/
  | loops
  /-- The task was cancelled or panicked, and the guard dropped. -/
  | aborts
deriving DecidableEq, Repr

/-- Where a call is. -/
inductive Place where
  | idle
  | invalidating (refresh : Bool)
  /-- `invalidate` completes the flight that it took out. -/
  | cancelling (flight : FlightId) (refresh : Bool)
  /-- Before the `loop` of `get_token_for_key`. -/
  | entering
  | loading
  | acquiring
  | rechecking (flight : FlightId)
  | requesting (flight : FlightId)
  | fetching (flight : FlightId) (fetch : Nat)
  | storing (flight : FlightId) (token : Token) (expiresAt : Nat)
  | finishing (flight : FlightId) (outcome : FlightOutcome) (after : After)
  /-- The guard is being finished. -/
  | ending (flight : FlightId) (after : After)
  | waiting (waiter : WaiterId)
  | returned (result : Except OciError Token)
  /-- `invalidate_challenge` returned, or the task is gone. -/
  | stopped
deriving DecidableEq, Repr

namespace Place

/-- The flight whose guard the call holds and has not begun to finish. -/
def holds : Place → Option FlightId
  | rechecking flight | requesting flight | fetching flight _ | storing flight _ _ => some flight
  | _ => none

end Place

structure Call where
  challenge : BearerChallenge
  place : Place

/-- What an observer sees of a step. -/
inductive Event where
  | starts (method : Method) (challenge : BearerChallenge)
  | invalidates (key : ChallengeKey)
  /-- The call begins to look for a token. -/
  | enters
  | fetches (fetch : Nat)
  | returns (token : Token)
  | fails (error : OciError)
  | proceeds
deriving DecidableEq, Repr

structure System where
  shared : Shared
  calls : CallId → Call
  fetchCount : Nat

namespace System

def new : System := ⟨.new, fun _ => ⟨⟨"", none, none⟩, .idle⟩, 0⟩

/-- The call moves on. -/
def goto (system : System) (call : CallId) (place : Place) : System :=
  { system with
    calls := Function.update system.calls call { system.calls call with place } }

/-- Where a call that has the memory `shared` moves on to. -/
def moves (system : System) (shared : Shared) (call : CallId) (place : Place) : System :=
  { system with shared }.goto call place

/-- The operations by which a role ends a flight. -/
def Ends (flight : FlightId) (role : Role) : Operation → Prop
  | .settle id => id = flight ∧ role = .guard
  | .complete id by_ | .notify id by_ => id = flight ∧ by_ = role
  | _ => False

/-- The operations of `FlightWaiter::wait`. -/
def Waits (waiter : WaiterId) : Operation → Prop
  | .enable id | .look id | .wake id => id = waiter
  | _ => False

def afterInvalidate (refresh : Bool) : Place := if refresh then .entering else .stopped

def afterEnd : After → Place
  | .returns token => .returned (.ok token)
  | .fails error => .returned (.error error)
  | .loops => .loading
  | .aborts => .stopped

def afterEndEvent : After → Event
  | .returns token => .returns token
  | .fails error => .fails error
  | _ => .proceeds

variable (manager : TokenManager)

/-- Where a call is when its challenge has been validated. -/
def startPlace (method : Method) (challenge : BearerChallenge) : Place :=
  match method, manager.validateChallenge challenge with
  | .invalidateChallenge, _ => .invalidating false
  | .refreshToken, .ok _ => .invalidating true
  | .getTokenForChallenge, .ok _ => .entering
  | _, .error error => .returned (.error error)

/-- One step of one call: a critical section, the begin or the end of a network request, or nothing
but the way to the next of them. -/
inductive Step : System → CallId × Event → System → Prop where
  | start {system : System} {call : CallId} {method : Method} {challenge : BearerChallenge}
      (idle : (system.calls call).place = .idle) :
      Step system (call, .starts method challenge)
        { system with
          calls := Function.update system.calls call
            ⟨challenge, startPlace manager method challenge⟩ }
  | invalidate {system : System} {call : CallId} {refresh : Bool} {removed : Option FlightId}
      {shared : Shared} (here : (system.calls call).place = .invalidating refresh)
      (locked : Shared.Step system.shared
        (.invalidate (manager.challengeKey (system.calls call).challenge) removed) shared) :
      Step system
        (call, .invalidates (manager.challengeKey (system.calls call).challenge))
        (system.moves shared call
          ((removed.map (Place.cancelling · refresh)).getD (afterInvalidate refresh)))
  | cancel {system : System} {call : CallId} {flight : FlightId} {refresh : Bool}
      {operation : Operation} {shared : Shared}
      (here : (system.calls call).place = .cancelling flight refresh)
      (ends : Ends flight .invalidation operation)
      (locked : Shared.Step system.shared operation shared) :
      Step system (call, .proceeds) (system.moves shared call (.cancelling flight refresh))
  | cancelled {system : System} {call : CallId} {flight : FlightId} {refresh : Bool}
      (here : (system.calls call).place = .cancelling flight refresh)
      (ended : (system.shared.flights flight).phase .invalidation = .ended) :
      Step system (call, .proceeds) (system.goto call (afterInvalidate refresh))
  | enter {system : System} {call : CallId} (here : (system.calls call).place = .entering) :
      Step system (call, .enters) (system.goto call .loading)
  | hit {system : System} {call : CallId} {now : Nat} {token : Token} {shared : Shared}
      (here : (system.calls call).place = .loading)
      (locked : Shared.Step system.shared
        (.load (manager.challengeKey (system.calls call).challenge) now (some token)) shared) :
      Step system (call, .returns token) (system.moves shared call (.returned (.ok token)))
  | miss {system : System} {call : CallId} {now : Nat} {shared : Shared}
      (here : (system.calls call).place = .loading)
      (locked : Shared.Step system.shared
        (.load (manager.challengeKey (system.calls call).challenge) now none) shared) :
      Step system (call, .proceeds) (system.moves shared call .acquiring)
  | lead {system : System} {call : CallId} {flight : FlightId} {shared : Shared}
      (here : (system.calls call).place = .acquiring)
      (locked : Shared.Step system.shared
        (.acquire (manager.challengeKey (system.calls call).challenge) (.leader flight)) shared) :
      Step system (call, .proceeds) (system.moves shared call (.rechecking flight))
  | await {system : System} {call : CallId} {waiter : WaiterId} {shared : Shared}
      (here : (system.calls call).place = .acquiring)
      (locked : Shared.Step system.shared
        (.acquire (manager.challengeKey (system.calls call).challenge) (.waiter waiter)) shared) :
      Step system (call, .proceeds) (system.moves shared call (.waiting waiter))
  | recheckHit {system : System} {call : CallId} {flight : FlightId} {now : Nat} {token : Token}
      {shared : Shared} (here : (system.calls call).place = .rechecking flight)
      (locked : Shared.Step system.shared
        (.load (manager.challengeKey (system.calls call).challenge) now (some token)) shared) :
      Step system (call, .proceeds)
        (system.moves shared call (.finishing flight .succeeded (.returns token)))
  | recheckMiss {system : System} {call : CallId} {flight : FlightId} {now : Nat} {shared : Shared}
      (here : (system.calls call).place = .rechecking flight)
      (locked : Shared.Step system.shared
        (.load (manager.challengeKey (system.calls call).challenge) now none) shared) :
      Step system (call, .proceeds) (system.moves shared call (.requesting flight))
  | fetch {system : System} {call : CallId} {flight : FlightId}
      (here : (system.calls call).place = .requesting flight) :
      Step system (call, .fetches system.fetchCount)
        { system.goto call (.fetching flight system.fetchCount) with
          fetchCount := system.fetchCount + 1 }
  -- the fetch returns any text, and a lifetime that the clock turns into any instant
  | fetched {system : System} {call : CallId} {flight : FlightId} {fetch expiresAt : Nat}
      {text : String} (here : (system.calls call).place = .fetching flight fetch) :
      Step system (call, .proceeds) (system.goto call (.storing flight ⟨text, fetch⟩ expiresAt))
  | fetchFailed {system : System} {call : CallId} {flight : FlightId} {fetch : Nat}
      {error : OciError} (here : (system.calls call).place = .fetching flight fetch) :
      Step system (call, .proceeds)
        (system.goto call (.finishing flight .failed (.fails error)))
  | store {system : System} {call : CallId} {flight : FlightId} {token : Token} {expiresAt : Nat}
      {shared : Shared} (here : (system.calls call).place = .storing flight token expiresAt)
      (locked : Shared.Step system.shared
        (.store (manager.challengeKey (system.calls call).challenge)
          (system.shared.flights flight).generation token expiresAt true) shared) :
      Step system (call, .proceeds)
        (system.moves shared call (.finishing flight .succeeded (.returns token)))
  | stale {system : System} {call : CallId} {flight : FlightId} {token : Token} {expiresAt : Nat}
      {shared : Shared} (here : (system.calls call).place = .storing flight token expiresAt)
      (locked : Shared.Step system.shared
        (.store (manager.challengeKey (system.calls call).challenge)
          (system.shared.flights flight).generation token expiresAt false) shared) :
      Step system (call, .proceeds)
        (system.moves shared call (.finishing flight .cancelled .loops))
  | finish {system : System} {call : CallId} {flight : FlightId} {outcome : FlightOutcome}
      {after : After} {shared : Shared}
      (here : (system.calls call).place = .finishing flight outcome after)
      (locked : Shared.Step system.shared (.finish flight outcome) shared) :
      Step system (call, .proceeds) (system.moves shared call (.ending flight after))
  | end_ {system : System} {call : CallId} {flight : FlightId} {after : After}
      {operation : Operation} {shared : Shared}
      (here : (system.calls call).place = .ending flight after)
      (ends : Ends flight .guard operation)
      (locked : Shared.Step system.shared operation shared) :
      Step system (call, .proceeds) (system.moves shared call (.ending flight after))
  | ended {system : System} {call : CallId} {flight : FlightId} {after : After}
      (here : (system.calls call).place = .ending flight after)
      (ended : (system.shared.flights flight).phase .guard = .ended) :
      Step system (call, afterEndEvent after) (system.goto call (afterEnd after))
  | wait {system : System} {call : CallId} {waiter : WaiterId} {operation : Operation}
      {shared : Shared} (here : (system.calls call).place = .waiting waiter)
      (waits : Waits waiter operation)
      (locked : Shared.Step system.shared operation shared) :
      Step system (call, .proceeds) (system.moves shared call (.waiting waiter))
  | woken {system : System} {call : CallId} {waiter : WaiterId} {outcome : FlightOutcome}
      (here : (system.calls call).place = .waiting waiter)
      (woken : (system.shared.waiters waiter).phase = .woken outcome) :
      Step system
        (call, if outcome = .failed then .fails (.token .flightFailed) else .proceeds)
        (system.goto call
          (if outcome = .failed then .returned (.error (.token .flightFailed)) else .loading))
  -- a task that holds a guard and is cancelled or panics drops the guard
  | abortLeader {system : System} {call : CallId} {flight : FlightId}
      (holds : (system.calls call).place.holds = some flight) :
      Step system (call, .proceeds) (system.goto call (.finishing flight .cancelled .aborts))
  | abortWaiter {system : System} {call : CallId} {waiter : WaiterId} {shared : Shared}
      (here : (system.calls call).place = .waiting waiter)
      (locked : Shared.Step system.shared (.drop waiter) shared) :
      Step system (call, .proceeds) (system.moves shared call .stopped)
  | abort {system : System} {call : CallId}
      (here : (system.calls call).place = .entering ∨ (system.calls call).place = .loading ∨
        (system.calls call).place = .acquiring) :
      Step system (call, .proceeds) (system.goto call .stopped)
  | cachedToken {system : System} {call : CallId} {now : Nat} {found : Option Token}
      {shared : Shared} (locked : Shared.Step system.shared (.loadLast now found) shared) :
      Step system (call, .proceeds) { system with shared }

end System

end NixCache.Oci.Tokens
