import Replica.Branch

/-!
# Intakes

An intake is the root of a tree of branches that is filled by hand: a store, and a feed to which the
events of its changes are offered.  It is ready when it is told so.
-/

namespace Replica

open Network

/-- The store, feed and readiness of an intake. -/
structure Intake where
  keeper : Nat
  feed : FeedId
  ready : ScopeId
  deriving DecidableEq, Inhabited

namespace Intake

/-- Starts an intake in a scope: its store has a filter, its feed has room for `queue` events, and each
subscription to its branch for `capacity`. -/
def start (filter : Filter) (queue capacity : Nat) (parent : ScopeId) : Net (Intake × Branch) := do
  let keeper ← startKeeper parent filter
  let ready ← newRoot
  let feed ← newFeed queue
  let root ← addSubscription feed ready keeper parent none
  return (⟨keeper, feed, ready⟩, ← Branch.ofSource (.subscription root) capacity)

/-- Makes the intake ready. -/
def makeReady (i : Intake) : Net Unit := fire i.ready

/-- Ends the feed. -/
def finish (i : Intake) : Net Unit := closeFeed i.feed

/-- Whether the feed has been ended. -/
def isFinished (i : Intake) : Net Bool :=
  return ((← get).feeds[i.feed]?.map Feed.isSealed).getD true

/-- Offers events to the feed; with each, whether somebody reads it. -/
def offer (i : Intake) (events : List Event) : Net (List (Event × Bool)) :=
  events.mapM fun e => return (e, (← Network.offer i.feed e) != .refused)

/-- Changes the store and offers the events of that. -/
def change (i : Intake) (r : Request) : Op (List (Event × Bool)) := do
  i.offer (← Network.change i.keeper r)

end Intake

end Replica
