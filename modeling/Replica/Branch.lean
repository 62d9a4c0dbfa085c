import Replica.Network.Access

/-!
# Branches

A branch passes the changes of a store on to whoever subscribes.  Other branches grow from it, so all
that is derived from one pipeline forms a tree.

* A subscription reads the events of its branch.
* A filtered subscription is a view, with a store of its own; a deferred one is not ready before it
  is given its first filter.
* A branch that has grown from a view can be given another filter.
* An observer calls a handler for each event.

Closing a branch closes what has grown from it, and nothing else.
-/

namespace Replica

open Network

/-- A branch: its hub, the view whose filter can be replaced, and whether it is the pipeline itself. -/
structure Branch where
  hub : Nat
  view : Option Nat
  isPipeline : Bool
  deriving DecidableEq, Inhabited

namespace Branch

/-- The parts that all branches have. -/
def hub? (b : Branch) (n : Network) : Option HubTask := n.hubs[b.hub]?

/-- The number of the keeper of a branch's store. -/
def keeper (b : Branch) : Net Nat := return ((b.hub? (← get)).map HubTask.keeper).getD 0

/-- Whether the store holds its contents. -/
def isReady (b : Branch) : Net Bool := do
  let n ← get
  return ((b.hub? n).map fun h => n.scopes.isFired h.ready).getD false

/-- The scope whose end is the end of a branch, and the signal that tells when it has come. -/
def life? (b : Branch) (n : Network) : Option (ScopeId × ScopeId) :=
  if b.isPipeline then n.coordinator.map fun c => (c.scope, c.done)
  else (b.hub? n).map fun h => (h.scope, h.done)

/-- Whether a branch has been closed and has let go of everything. -/
def isDone (b : Branch) : Net Bool := do
  let n ← get
  return ((b.life? n).map fun l => n.scopes.isFired l.2).getD true

/-- Closes a branch with all that has grown from it. -/
def close (b : Branch) : Net Unit := do
  if let some l := b.life? (← get) then fire l.1

/-! ### Subscribing -/

/-- A new subscription, as soon as the hub has seen that it is wanted; with its number. -/
def subscribe (b : Branch) : Op Nat := do
  let n ← get
  let some (scope, _) := b.life? n | throw .notRunning
  let some h := b.hub? n | throw .notRunning
  if n.scopes.isFired scope || n.scopes.isFired h.scope then throw .notRunning
  modifyHub b.hub fun h => { h with isAsked := true, granted := none }
  occur (.join b.hub)
  runUntil fun n => (b.hub? n).all fun h => h.granted.isSome || h.isStopped
  match (b.hub? (← get)).bind HubTask.granted with
  | some i => return i
  | none => throw .notRunning

/-- Gives a branch up without closing it: nobody subscribes any more. -/
def release (b : Branch) : Net Unit := do
  modifyHub b.hub fun h => { h with isHeld := false }
  occur (.join b.hub)

/-- A new view of the objects that a filter accepts; with its number. -/
def subscribeFiltered (b : Branch) (filter : Filter) : Op Nat := do
  startView (← b.subscribe) filter false

/-- A new view that waits for its first filter; with its number. -/
def subscribeDeferred (b : Branch) : Op Nat := do
  startView (← b.subscribe) .rejectAll true

/-- Starts an observer; with its number. -/
def observe (b : Branch) (interest : Observer.Interest) : Op Nat := do
  startObserver (← b.subscribe) interest

/-! ### Growing branches -/

/-- A branch that takes a source over, with room for so many events in each subscription. -/
def ofSource (source : Source) (capacity : Nat) : Net Branch :=
  return ⟨← startHub source capacity, none, false⟩

/-- A new branch with the same objects. -/
def grow (b : Branch) : Op Branch := do
  let n ← get
  let capacity := ((b.hub? n).map (·.hub.capacity)).getD 0
  ofSource (.subscription (← b.subscribe)) capacity

/-- A branch on a view, with as much room as that has. -/
def ofView (view : Nat) : Net Branch := do
  let n ← get
  let parts := ((Source.view view).parts? n).getD default
  let capacity := (n.feeds[parts.feed]?.map Feed.capacity).getD 0
  return ⟨← startHub (.view view) capacity, some view, false⟩

/-- A new branch with the objects that a filter accepts. -/
def growFiltered (b : Branch) (filter : Filter) : Op Branch := do
  ofView (← b.subscribeFiltered filter)

/-- A new branch that waits for its first filter. -/
def growDeferred (b : Branch) : Op Branch := do
  ofView (← b.subscribeDeferred)

/-- Replaces the filter of a branch that has grown from a view. -/
def refilter (b : Branch) (filter : Filter) : Op Unit := do
  match b.view with
  | some view => refilterView view filter
  | none => throw .notRunning

end Branch

end Replica
