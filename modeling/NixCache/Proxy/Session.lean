import NixCache.Lib.Alone
import NixCache.Lib.Transition
import NixCache.Proxy.Server
/-!
# Calls one after another

The runs of a proxy in which each call comes to its end before the next one begins, and time passes
in between.
-/

namespace NixCache.Proxy

open NixCache.Lib NixCache.Core
open Program (Trace)
open NixCache.Lib.Action (Takes)

/-- A call with its operations, or some time without one. -/
inductive Occurrence where
  | call (call : Call) (trace : Trace Operation Answer)
  | pass (duration : Nat)

inductive Occurs (index : CacheIndex) : Shared → Occurrence → Shared → Prop where
  | call {before after : Shared} {call : Call} {trace : Trace Operation Answer}
      {result : Except Panic Unit}
      (h : Takes (Step index) (call.handler index) before trace result after) :
      Occurs index before (.call call trace) after
  | pass (shared : Shared) (duration : Nat) :
      Occurs index shared (.pass duration) { shared with now := shared.now + duration }

/-- The runs of a proxy that was started at `now`. -/
abbrev Session (index : CacheIndex) (now : Nat) (occurrences : List Occurrence) (last : Shared) :
    Prop :=
  Transition.Run (Occurs index) (.start now) occurrences last

/-- The entries that are registered, by a call with a body that decodes. -/
def Occurrence.registered (X : Crates) : Occurrence → Option (HashMap StoreHash IndexEntry)
  | .call (.registerSession body) _ =>
      (RegisterPayload.fromJson X body).toOption.map RegisterPayload.entries
  | _ => none

/-- The operations of the calls. -/
def Occurrence.events : Occurrence → Trace Operation Answer
  | .call _ trace => trace
  | .pass _ => []

/-- The registrations of a run. -/
def registrations (X : Crates) (occurrences : List Occurrence) : List (HashMap StoreHash IndexEntry) :=
  occurrences.filterMap (Occurrence.registered X)

end NixCache.Proxy
