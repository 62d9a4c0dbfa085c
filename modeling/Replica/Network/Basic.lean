import Replica.Coordinator
import Replica.Executor
import Replica.Follower
import Replica.Hub
import Replica.Observer
import Replica.Scope
import Replica.Server
import Replica.Session
import Replica.View

/-!
# Networks of components

A network is everything that runs at one time: a server, perhaps a pipeline on it, and the hubs,
views and observers derived from each other, with the queues between them.

* **Tasks.**  Each component is run by a task of its own; the tasks take turns as an `Executor` says.
* **Occasions.**  What a task waits for is an occasion: a scope fires, something to read is there, there
  is room to write, an answer has come.
* **Time.**  `now` counts milliseconds and moves only when nothing else can happen.

Components refer to each other by number.
-/

namespace Replica

/-- The task of a component. -/
inductive TaskId where
  | keeper (i : Nat)
  | poller
  | follower
  | session (i : Nat)
  | coordinator
  | hub (i : Nat)
  | view (i : Nat)
  | observer (i : Nat)
  deriving DecidableEq, Inhabited

/-- What a task can wait for. -/
inductive Occasion where
  /-- A scope or signal fires. -/
  | fired (s : ScopeId)
  /-- A feed has an event, or is closed. -/
  | event (f : FeedId)
  /-- A feed has room again. -/
  | room (f : FeedId)
  /-- A stream of the server has an item, or is closed. -/
  | item (stream : Nat)
  /-- A session has an event, or is over. -/
  | followed (session : Nat)
  /-- A keeper has a request. -/
  | request (keeper : Nat)
  /-- A subscriber leaves a hub. -/
  | leave (hub : Nat)
  /-- Somebody wants to join a hub, or nobody can any more. -/
  | join (hub : Nat)
  /-- A view is asked for another filter. -/
  | refilter (view : Nat)
  /-- The follower is to start over. -/
  | reset
  /-- The follower has started over. -/
  | wasReset
  /-- The follower's output has an event, or is closed. -/
  | output
  /-- The poller has a result, or has stopped. -/
  | result
  /-- The poller's slot is empty again. -/
  | emptySlot
  /-- The poller is asked for a listing. -/
  | token
  /-- The server answers listings. -/
  | listing
  /-- A task's request is answered. -/
  | reply (t : TaskId)
  deriving DecidableEq, Inhabited

/-- Whether a task that has begun to wait for an occasion goes on to, whatever else it does in the
meantime: so it is with all that it reads. -/
def Occasion.isLasting : Occasion → Bool
  | .event _ | .item _ | .followed _ | .request _ | .leave _ | .join _ | .refilter _ => true
  | .reset | .output | .result | .token => true
  | .fired _ | .room _ | .wasReset | .emptySlot | .listing | .reply _ => false

namespace Network

/-! ### Components in a network -/

/-- A subscription to a hub, or to a feed that is filled from outside. -/
structure Subscription where
  feed : FeedId
  scope : ScopeId
  ready : ScopeId
  keeper : Nat
  /-- The hub that is told when the subscription is closed. -/
  hub : Option Nat
  deriving DecidableEq, Inhabited

/-- What gives events to one reader. -/
inductive Source where
  | subscription (i : Nat)
  | view (i : Nat)
  deriving DecidableEq, Inhabited

/-- A store with its keeper; a request without a sender comes from outside. -/
structure KeeperTask where
  keeper : Keeper (Option TaskId)
  scope : ScopeId
  done : ScopeId

/-- A poller. -/
structure PollerTask where
  poller : Poller
  period : Nat
  /-- When the period ends. -/
  deadline : Nat
  scope : ScopeId

/-- A follower, with a reset that it has not seen yet. -/
structure FollowerTask where
  follower : Follower
  scope : ScopeId
  inbox : Option String
  /-- Whether it has started over, and this was not noticed yet. -/
  wasReset : Bool
  /-- When the next attempt is due, if one is waited for. -/
  deadline : Option Nat

/-- A session on a version, with its stream once that is open. -/
structure SessionTask where
  session : Session
  version : String
  stream : Option Nat
  scope : ScopeId

/-- The coordinator of a pipeline, with an answer that it has not seen yet. -/
structure CoordinatorTask where
  coordinator : Coordinator
  scope : ScopeId
  ready : ScopeId
  done : ScopeId
  keeper : Nat
  hub : Nat
  feed : FeedId
  reply : Option Reply

/-- A hub, with the numbers of subscribers that are about to be forgotten, and somebody who is about to
join it. -/
structure HubTask where
  hub : Hub
  source : Source
  scope : ScopeId
  ready : ScopeId
  done : ScopeId
  keeper : Nat
  leaving : List FeedId
  /-- Whether somebody wants to join. -/
  isAsked : Bool
  /-- The subscription of the last one who joined. -/
  granted : Option Nat
  /-- Whether somebody can still join. -/
  isHeld : Bool
  isStopped : Bool

/-- A view, with a filter that was asked for and an answer that it has not seen yet. -/
structure ViewTask where
  view : View
  parent : Nat
  keeper : Nat
  feed : FeedId
  scope : ScopeId
  ready : ScopeId
  done : ScopeId
  request : Option Filter
  reply : Option Reply

/-- An observer, with the calls of its handler that were not looked at yet. -/
structure ObserverTask where
  phase : Observer.Phase
  interest : Observer.Interest
  subscription : Nat
  scope : ScopeId
  done : ScopeId
  calls : List Call
  reply : Option Reply

end Network

/-- Everything that runs at one time. -/
structure Network where
  now : Nat
  server : Server
  scopes : Scopes
  executor : Executor TaskId Occasion
  feeds : Feeds
  subscriptions : List Network.Subscription
  keepers : List Network.KeeperTask
  hubs : List Network.HubTask
  views : List Network.ViewTask
  observers : List Network.ObserverTask
  sessions : List Network.SessionTask
  poller : Option Network.PollerTask
  follower : Option Network.FollowerTask
  coordinator : Option Network.CoordinatorTask
  /-- The answer to the last request from outside. -/
  reply : Option Reply

/-- A computation on a network. -/
abbrev Net := StateM Network

namespace Network

/-- A network in which nothing runs. -/
def new (server : Server) : Network :=
  { now := 0, server, scopes := .empty, executor := .empty, feeds := [], subscriptions := []
    keepers := [], hubs := [], views := [], observers := [], sessions := []
    poller := none, follower := none, coordinator := none, reply := none }

instance : Inhabited Network := ⟨new default⟩

/-! ### Turns -/

/-- Changes who can go on, who pauses and who waits. -/
def schedule (f : Executor TaskId Occasion → Executor TaskId Occasion) : Net Unit :=
  modify fun n => { n with executor := f n.executor }

/-- Lets a task go on. -/
def wake (t : TaskId) : Net Unit := schedule (·.wake t)

/-- An occasion comes. -/
def occur (o : Occasion) : Net Unit := schedule (·.occur o)

/-- Lets a task wait for an occasion. -/
def await (t : TaskId) (o : Occasion) : Net Unit := schedule (·.await t o)

/-- Uses one input of the running task's allowance up. -/
def spend : Net Unit := schedule Executor.spend

/-! ### Scopes -/

/-- Whether a scope or signal has fired. -/
def isFired (s : ScopeId) : Net Bool := return (← get).scopes.isFired s

/-- Whether a scope or signal has fired; if it has not, a task waits for that. -/
def hasFired (t : TaskId) (s : ScopeId) : Net Bool := do
  if ← isFired s then return true
  await t (.fired s)
  return false

/-- Fires a scope with all below it. -/
def fire (s : ScopeId) : Net Unit := do
  let n ← get
  let (scopes, fired) := n.scopes.fire s
  set { n with scopes }
  for f in fired do occur (.fired f)

/-- A new scope or signal that stands alone. -/
def newRoot : Net ScopeId := modifyGet fun n =>
  let (scopes, s) := n.scopes.addRoot
  (s, { n with scopes })

/-- A new scope below another one. -/
def newChild (parent : ScopeId) : Net ScopeId := modifyGet fun n =>
  let (scopes, s) := n.scopes.addChild parent
  (s, { n with scopes })

/-! ### Feeds -/

/-- A new feed. -/
def newFeed (capacity : Nat) : Net FeedId :=
  modifyGet fun n => (n.feeds.length, { n with feeds := n.feeds ++ [.new capacity] })

/-- Ends a feed for its writer. -/
def closeFeed (f : FeedId) : Net Unit := do
  modify fun n => { n with feeds := n.feeds.modify f Feed.close }
  occur (.event f)

/-- Ends a feed for its reader. -/
def abandonFeed (f : FeedId) : Net Unit := do
  modify fun n => { n with feeds := n.feeds.modify f Feed.abandon }
  occur (.room f)

/-- Writes an event to a feed in the way given. -/
def writeWith (write : Feed Event → Event → Feed Event × Pushed) (f : FeedId) (e : Event) :
    Net Pushed := do
  match (← get).feeds[f]? with
  | none => return .refused
  | some feed =>
    let (feed, r) := write feed e
    modify fun n => { n with feeds := n.feeds.set f feed }
    if r = .taken then occur (.event f)
    return r

/-- Adds an event to a feed, if there is room. -/
def push : FeedId → Event → Net Pushed := writeWith Feed.push

/-- Offers an event to a feed: without room it is counted as dropped. -/
def offer : FeedId → Event → Net Pushed := writeWith Feed.offer

/-- Takes the next event of a feed. -/
def readFeed (f : FeedId) : Net (Polled Event) := do
  match (← get).feeds[f]? with
  | none => return .ended
  | some feed =>
    let (feed, r) := feed.poll
    modify fun n => { n with feeds := n.feeds.set f feed }
    if let .item _ := r then occur (.room f)
    return r

/-- The next event of a feed whose reader's scope is `s`: none any more once that has fired. -/
def readWithin (s : ScopeId) (f : FeedId) : Net (Polled Event) := do
  if ← isFired s then return .ended
  readFeed f

/-- What a task reads is one input, unless it is not there yet: then the task waits for it. -/
def reading {α : Type} (t : TaskId) (o : Occasion) (read : Net (Polled α)) : Net (Polled α) := do
  let r ← read
  match r with
  | .pending => await t o
  | _ => spend
  return r

/-- A task reads the next event of a feed within a scope. -/
def nextWithin (t : TaskId) (s : ScopeId) (f : FeedId) : Net (Polled Event) := do
  if ← hasFired t s then return .ended
  reading t (.event f) (readFeed f)

/-! ### Changing components -/

/-- Changes the task of a keeper. -/
def modifyKeeper (i : Nat) (f : KeeperTask → KeeperTask) : Net Unit :=
  modify fun n => { n with keepers := n.keepers.modify i f }

/-- Changes the task of a hub. -/
def modifyHub (i : Nat) (f : HubTask → HubTask) : Net Unit :=
  modify fun n => { n with hubs := n.hubs.modify i f }

/-- Changes the task of a view. -/
def modifyView (i : Nat) (f : ViewTask → ViewTask) : Net Unit :=
  modify fun n => { n with views := n.views.modify i f }

/-- Changes the task of an observer. -/
def modifyObserver (i : Nat) (f : ObserverTask → ObserverTask) : Net Unit :=
  modify fun n => { n with observers := n.observers.modify i f }

/-- Changes the task of a session. -/
def modifySession (i : Nat) (f : SessionTask → SessionTask) : Net Unit :=
  modify fun n => { n with sessions := n.sessions.modify i f }

/-- Changes the task of the poller, if there is one. -/
def modifyPoller (f : PollerTask → PollerTask) : Net Unit :=
  modify fun n => { n with poller := n.poller.map f }

/-- Changes the task of the follower, if there is one. -/
def modifyFollower (f : FollowerTask → FollowerTask) : Net Unit :=
  modify fun n => { n with follower := n.follower.map f }

/-- Changes the task of the coordinator, if there is one. -/
def modifyCoordinator (f : CoordinatorTask → CoordinatorTask) : Net Unit :=
  modify fun n => { n with coordinator := n.coordinator.map f }

/-! ### Requests to stores -/

/-- Whether the keeper of a store has been stopped. -/
def keeperGone (i : Nat) : Net Bool := do
  match (← get).keepers[i]? with
  | none => return true
  | some k => isFired k.scope

/-- Sends a request to a keeper, unless that has stopped. -/
def sendRequest (keeper : Nat) (sender : Option TaskId) (r : Request) : Net Unit := do
  if ← keeperGone keeper then return
  modifyKeeper keeper fun k => { k with keeper := k.keeper.send sender r }
  occur (.request keeper)

/-- A task sends a request to a keeper. -/
def ask (keeper : Nat) (t : TaskId) (r : Request) : Net Unit := do
  spend
  sendRequest keeper (some t) r

/-- Delivers the answer to a request. -/
def deliver (recipient : Option TaskId) (reply : Reply) : Net Unit := do
  match recipient with
  | none => modify fun n => { n with reply := some reply }
  | some t =>
    match t with
    | .view i => modifyView i fun v => { v with reply := some reply }
    | .observer i => modifyObserver i fun o => { o with reply := some reply }
    | .coordinator => modifyCoordinator fun c => { c with reply := some reply }
    | _ => return
    occur (.reply t)

/-- What a task learns about its request to a keeper: that this has stopped, or the answer, which is
taken away with `clear`. -/
def answer? {α : Type} (t : TaskId) (keeper : Nat) (reply : Option Reply) (clear : Net Unit)
    (refused : α) (ofReply : Reply → α) : Net (Option α) := do
  match (← get).keepers[keeper]? with
  | none => return some refused
  | some k =>
    if ← hasFired t k.scope then return some refused
    match reply with
    | some r =>
      spend
      clear
      return some (ofReply r)
    | none =>
      await t (.reply t)
      return none

/-! ### Subscriptions and views as sources -/

/-- The events of a source on their way to its reader, the scope in which they are read, and the store
and the signals that belong to it. -/
structure SourceParts where
  feed : FeedId
  scope : ScopeId
  keeper : Nat
  ready : ScopeId
  done : ScopeId
  deriving Inhabited

/-- The parts of a source. -/
def Source.parts? (n : Network) : Source → Option SourceParts
  | .subscription i => n.subscriptions[i]?.map fun s => ⟨s.feed, s.scope, s.keeper, s.ready, s.scope⟩
  | .view i => n.views[i]?.map fun v => ⟨v.feed, v.scope, v.keeper, v.ready, v.done⟩

/-- Reads the next event of a source; without the source there is none. -/
def Source.next (s : Source) : Net (Polled Event) := do
  match s.parts? (← get) with
  | some p => readWithin p.scope p.feed
  | none => return .ended

/-- Adds a subscription on a feed; with its number. -/
def addSubscription (feed : FeedId) (ready : ScopeId) (keeper : Nat) (parent : ScopeId)
    (hub : Option Nat) : Net Nat := do
  let scope ← newChild parent
  let i := (← get).subscriptions.length
  modify fun n =>
    { n with subscriptions := n.subscriptions ++ [⟨feed, scope, ready, keeper, hub⟩] }
  return i

/-- Closes a subscription and tells its hub; whether it was open before. -/
def closeSubscription (i : Nat) : Net Bool := do
  match (← get).subscriptions[i]? with
  | none => return false
  | some s =>
    if ← isFired s.scope then return false
    fire s.scope
    if let some h := s.hub then
      modifyHub h fun h => { h with leaving := h.leaving ++ [s.feed] }
      occur (.leave h)
    return true

/-- Closes a source: a subscription tells its hub, and a view is told by its scope.  Whether it was
open before. -/
def Source.close : Source → Net Bool
  | .subscription i => closeSubscription i
  | .view i => do
    match (← get).views[i]? with
    | none => return false
    | some v =>
      if ← isFired v.scope then return false
      fire v.scope
      return true

/-- Closes a source and lets go of its feed; whether it was open before. -/
def Source.drop (s : Source) : Net Bool := do
  let wasOpen ← s.close
  if let some p := s.parts? (← get) then abandonFeed p.feed
  return wasOpen

end Network

end Replica
