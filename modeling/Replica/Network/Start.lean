import Replica.Network.Run

/-!
# Starting components

Each function adds a component to a network and puts its task into the queue.

* `startKeeper`, `startPoller`, `startFollower` and `startSession` need nothing but a scope to be in.
* `startHub`, `startView` and `startObserver` take a source over: they are its only reader from then on.
* `startPipeline` makes the parts of a pipeline and puts the coordinator over them.
-/

namespace Replica.Network

/-- Starts the keeper of a new store; with its number. -/
def startKeeper (parent : ScopeId) (filter : Filter) : Net Nat := do
  let scope ← newChild parent
  let done ← newRoot
  let i := (← get).keepers.length
  modify fun n => { n with keepers := n.keepers ++ [⟨.new filter, scope, done⟩] }
  wake (.keeper i)
  return i

/-- Starts the poller. -/
def startPoller (period : Duration) (parent : ScopeId) : Net Unit := do
  let scope ← newChild parent
  modify fun n => { n with poller := some ⟨.new, period.ceilMillis, 0, scope⟩ }
  wake .poller

/-- Starts the follower. -/
def startFollower (reconnect : Reconnect) (capacity : Nat) (parent : ScopeId) : Net Unit := do
  let scope ← newChild parent
  modify fun n =>
    { n with follower := some ⟨.new reconnect capacity, scope, none, false, none⟩ }
  wake .follower

/-! ### Readers of sources -/

/-- Starts a hub that passes the events of a source on; with its number. -/
def startHub (source : Source) (capacity : Nat) : Net Nat := do
  let parts := (source.parts? (← get)).getD default
  let scope ← newRoot
  let done ← newRoot
  let i := (← get).hubs.length
  modify fun n =>
    { n with hubs := n.hubs ++
        [⟨.new capacity, source, scope, parts.ready, done, parts.keeper, [], false, none, true, false⟩] }
  wake (.hub i)
  return i

/-- Starts a view of a subscription, with as much room as that has; with its number. -/
def startView (parent : Nat) (filter : Filter) (deferred : Bool) : Net Nat := do
  let n ← get
  let parts := ((Source.subscription parent).parts? n).getD default
  let feed ← newFeed ((n.feeds[parts.feed]?.map Feed.capacity).getD 0)
  let scope ← newRoot
  let keeper ← startKeeper scope filter
  let ready ← newRoot
  let done ← newRoot
  let i := (← get).views.length
  modify fun n =>
    { n with views := n.views ++
        [⟨.new filter deferred, parent, keeper, feed, scope, ready, done, none, none⟩] }
  wake (.view i)
  return i

/-- Starts an observer of a subscription; with its number. -/
def startObserver (subscription : Nat) (interest : Observer.Interest) : Net Nat := do
  let scope ← newRoot
  let done ← newRoot
  let i := (← get).observers.length
  modify fun n =>
    { n with observers := n.observers ++
        [⟨.waiting, interest, subscription, scope, done, [], none⟩] }
  wake (.observer i)
  return i

/-! ### Pipelines -/

/-- Starts a pipeline that lives in a scope; with the number of its hub. -/
def startPipeline (settings : Settings) (scope : ScopeId) : Net Nat := do
  let ready ← newRoot
  let done ← newRoot
  let keeper ← startKeeper scope .acceptAll
  startPoller settings.refreshPeriod scope
  startFollower settings.reconnect settings.watchBuffer scope
  let feed ← newFeed settings.subscriptionBuffer
  let root ← addSubscription feed ready keeper scope none
  let hub ← startHub (.subscription root) settings.subscriptionBuffer
  modify fun n =>
    { n with coordinator := some ⟨.new, scope, ready, done, keeper, hub, feed, none⟩ }
  wake .coordinator
  return hub

end Replica.Network
