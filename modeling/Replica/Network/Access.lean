import Replica.Network.Start

/-!
# Operations from outside

What a user does with the parts of a network: reading and changing stores, reading sources, changing
filters, asking for listings, and playing the server.  While the user waits for an answer, tasks run.

An `Op` may be refused; it is refused with `Error.notRunning` where the component behind it has been
stopped.
-/

namespace Replica

/-- An operation on a network that may be refused. -/
abbrev Op := ExceptT Error Net

namespace Network

/-! ### Stores -/

/-- The answer of a keeper to a request. -/
def request (keeper : Nat) (r : Request) : Op Reply := do
  if ← keeperGone keeper then throw .notRunning
  modify fun n => { n with reply := none }
  sendRequest keeper none r
  runUntil (·.reply.isSome)
  match (← get).reply with
  | some reply => if ← keeperGone keeper then throw .notRunning else return reply
  | none => throw .notRunning

/-- The events of a change of a store. -/
def change (keeper : Nat) (r : Request) : Op (List Event) := return (← request keeper r).eventList

/-- The objects of a store. -/
def objects (keeper : Nat) : Op (List Object) := return (← request keeper .contents).objectList

/-- The object that a store holds under a key. -/
def objectAt (keeper : Nat) (key : Key) : Op (Option Object) :=
  return (← request keeper (.get key)).object?

/-! ### Sources -/

/-- Reads at most so many events of a source; whether it has ended besides. -/
def Source.take (s : Source) : Nat → Net (List Event × Bool)
  | 0 => return ([], false)
  | n + 1 => do
    match ← s.next with
    | .pending => return ([], false)
    | .ended => return ([], true)
    | .item e =>
      let (es, ended) ← s.take n
      return (e :: es, ended)

/-- Reads all events of a source that have arrived; whether it has ended besides. -/
def Source.drain (s : Source) : Net (List Event × Bool) := do
  let n ← get
  let waiting := ((s.parts? n).bind fun p => n.feeds[p.feed]?.map (·.items.length)).getD 0
  s.take (waiting + 1)

/-- What can be seen of a source. -/
structure SourceStatus where
  ready : Bool
  /-- Whether the source has ended. -/
  done : Bool
  /-- How many events were dropped for want of room. -/
  dropped : Nat
  deriving DecidableEq, Inhabited

/-- The status of a source. -/
def Source.status (s : Source) : Net SourceStatus := do
  let n ← get
  let p := (s.parts? n).getD default
  return ⟨n.scopes.isFired p.ready, n.scopes.isFired p.done, (n.feeds[p.feed]?.map Feed.dropped).getD 0⟩

/-- A description of a subscription with a given number. -/
def SourceStatus.describe (s : SourceStatus) (number : String) : String :=
  let flag (b : Bool) := if b then "true" else "false"
  "Subscription \x7b id: SubscriptionId(" ++ number ++ "), ready: " ++ flag s.ready
    ++ ", closed: " ++ flag s.done ++ ", dropped: " ++ toString s.dropped ++ ", .. \x7d"

/-- Whether a view has not seen a filter that it was asked for. -/
def isAsked (i : Nat) (n : Network) : Bool := (n.views[i]?.map (·.request.isSome)).getD false

/-- Asks a view for another filter, as soon as it has seen the one before. -/
def refilterView (i : Nat) (filter : Filter) : Op Unit := do
  match (← get).views[i]? with
  | none => throw .notRunning
  | some v =>
    if ← isFired v.done then throw .notRunning
    runUntil fun n => !isAsked i n || n.scopes.isFired v.done
    if ← isFired v.done then throw .notRunning
    modifyView i fun v => { v with request := some filter }
    occur (.refilter i)

/-! ### Observers -/

/-- Stops an observer. -/
def closeObserver (i : Nat) : Net Unit := do
  if let some o := (← get).observers[i]? then fire o.scope

/-- Whether an observer has stopped. -/
def isObserverDone (i : Nat) : Net Bool := do
  match (← get).observers[i]? with
  | some o => isFired o.done
  | none => return true

/-- The calls of an observer that were not looked at yet. -/
def takeCalls (i : Nat) : Net (List Call) := do
  let calls := ((← get).observers[i]?.map ObserverTask.calls).getD []
  modifyObserver i fun o => { o with calls := [] }
  return calls

/-! ### Poller and follower -/

/-- Asks the poller for a listing now: `full` if such a request is waiting already, `refused` if the
poller has stopped. -/
def requestListing : Net Pushed := do
  match (← get).poller with
  | none => return .refused
  | some p =>
    match p.poller.step .request with
    | none => return .refused
    | some poller =>
      modifyPoller fun p => { p with poller }
      if p.poller.token then return .full
      occur .token
      return .taken

/-- Lets the follower start over at a version. -/
def requestReset (version : String) : Op Unit := do
  match (← get).follower with
  | none => throw .notRunning
  | some f =>
    if f.follower.isStopped then throw .notRunning
    modifyFollower fun f => { f with inbox := some version, wasReset := false }
    occur .reset
    runUntil fun n => n.follower.all fun f => f.wasReset || f.follower.isStopped
    unless (← get).follower.any (·.wasReset) do throw .notRunning

/-! ### The server -/

/-- Sets what the server answers to listings. -/
def setListing (listing : Option ListResult) : Net Unit := do
  modify fun n => { n with server := { n.server with listing } }
  occur .listing

/-- Sets the failure of every attempt to open a watch. -/
def setWatchError (e : Option FetchError) : Net Unit :=
  modify fun n => { n with server := { n.server with watchError := e } }

/-- Sends an item on a stream; without the stream there is no result. -/
def send (stream : Nat) (item : StreamItem) : Net (Option Pushed) := do
  match (← get).server.streams[stream]? with
  | none => return none
  | some feed =>
    let (feed, r) := feed.push item
    modify fun n => { n with server := n.server.onStream stream fun _ => feed }
    if r = .taken then occur (.item stream)
    return some r

/-- Ends a stream; whether there is one. -/
def closeStream (stream : Nat) : Net Bool := do
  if stream < (← get).server.streams.length then
    modify fun n => { n with server := n.server.onStream stream Feed.close }
    occur (.item stream)
    return true
  else return false

/-- Whether a stream can still be written and read. -/
def isStreamOpen (stream : Nat) : Net Bool := do
  match (← get).server.streams[stream]? with
  | some feed => return !(feed.isSealed || feed.isAbandoned)
  | none => return false

/-- The attempts to open a watch that were not looked at yet. -/
def takeWatchCalls : Net (List WatchCall) := modifyGet fun n =>
  (n.server.watchCalls, { n with server := { n.server with watchCalls := [] } })

end Network

end Replica
