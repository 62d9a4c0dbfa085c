import Replica.Network.Turn

/-!
# Distributing events

The tasks that take events from a source: hubs pass them on, views filter them, observers make calls of
them.
-/

namespace Replica.Network

/-! ### Hubs -/

/-- What a hub notices next. -/
inductive HubInput where
  /-- The hub's scope has fired, or its source has ended. -/
  | stop
  /-- A subscriber has left. -/
  | leave (f : FeedId)
  /-- A subscriber joins. -/
  | join
  /-- An event of the source. -/
  | event (e : Event)

/-- What a hub learns from its source. -/
def nextOfSource (self : TaskId) (source : Source) : Net (Option HubInput) := do
  let some p := source.parts? (← get) | return some .stop
  match ← nextWithin self p.scope p.feed with
  | .item e => return some (.event e)
  | .ended => return some .stop
  | .pending => return none

/-- The next input of a hub.  That nobody can join any more is learnt again each time. -/
def nextForHub (i : Nat) : Net (Option HubInput) := do
  let self := TaskId.hub i
  match (← get).hubs[i]? with
  | none => return none
  | some h =>
    if h.isStopped then return none
    if ← hasFired self h.scope then return some .stop
    if let f :: rest := h.leaving then
      spend
      modifyHub i fun h => { h with leaving := rest }
      return some (.leave f)
    await self (.leave i)
    if h.isAsked then
      spend
      modifyHub i fun h => { h with isAsked := false }
      return some .join
    if h.isHeld then await self (.join i) else spend
    if (← get).executor.left = 0 then
      schedule (·.pause self)
      return none
    nextOfSource self h.source

/-- Does what a hub has to do on an input. -/
def actForHub (i : Nat) (input : HubInput) : Net Unit := do
  let n ← get
  let some h := n.hubs[i]? | return
  match input with
  | .leave f =>
    modifyHub i fun h => { h with hub := h.hub.unsubscribe f }
    closeFeed f
  | .join =>
    let (hub, feeds, feed) := h.hub.subscribe n.feeds
    set { n with feeds }
    let subscription ← addSubscription feed h.ready h.keeper h.scope (some i)
    modifyHub i fun h => { h with hub, granted := some subscription }
  | .event e =>
    let before := n.feeds
    let (hub, feeds) := h.hub.distribute before e
    set { n with feeds }
    modifyHub i fun h => { h with hub }
    for f in h.hub.live do
      let grown := (feeds[f]?.map (·.items.length)).getD 0
        != (before[f]?.map (·.items.length)).getD 0
      if grown then occur (.event f)
  | .stop =>
    finish (.hub i)
    fire h.scope
    discard h.source.drop
    modifyHub i fun h => { h with hub := { h.hub with live := [] }, isStopped := true }
    for f in h.hub.live do closeFeed f
    fire h.done

/-- Runs a hub. -/
def runHub (i : Nat) : Net Unit := drive (.hub i) (nextForHub i) (actForHub i) turnLimit

/-! ### Views -/

/-- The next input of a view. -/
def nextForView (i : Nat) : Net (Option View.Input) := do
  let self := TaskId.view i
  let some v := (← get).views[i]? | return none
  let some parent := (← get).subscriptions[v.parent]? | return none
  let clear := modifyView i fun v => { v with reply := none }
  match v.view.phase with
  | .idle =>
    if ← hasFired self v.scope then return some .cancel
    if !v.view.parentReady then
      if ← hasFired self parent.ready then return some .parentReady
    if let some filter := v.request then
      spend
      modifyView i fun v => { v with request := none }
      return some (.refilter filter)
    await self (.refilter i)
    match ← nextWithin self parent.scope parent.feed with
    | .item e => return some (.event e)
    | .ended => return some .parentEnded
    | .pending => return none
  | .reading _ => answer? self parent.keeper v.reply clear .refused (.contents ·.objectList)
  | .applying _ | .noting _ | .updating =>
    answer? self v.keeper v.reply clear .refused (.applied ·.eventList)
  | .stopping =>
    match (← get).keepers[v.keeper]? with
    | some k => return if ← hasFired self k.done then some .storeStopped else none
    | none => return some .storeStopped
  | .stopped => return none

/-- Does what a view wants done. -/
def actForView (i : Nat) (v : ViewTask) : View.Action → Net Unit
  | .readParent => do
    if let some parent := (← get).subscriptions[v.parent]? then
      ask parent.keeper (.view i) .contents
  | .ask r => ask v.keeper (.view i) r
  | .fireReady => fire v.ready
  | .offer events => do
    for e in events do discard <| offer v.feed e
  | .shutDown => do
    schedule (·.keepOnly (.view i) fun _ => false)
    fire v.scope
    if let some k := (← get).keepers[v.keeper]? then fire k.scope
    discard <| Source.drop (.subscription v.parent)
    closeFeed v.feed
  | .fireDone => do
    finish (.view i)
    fire v.done

/-- Runs a view. -/
def runView (i : Nat) : Net Unit :=
  drive (.view i) (nextForView i) (fun input => do
    let some v := (← get).views[i]? | return
    let (view, actions) := v.view.step input
    modifyView i fun v => { v with view }
    for a in actions do actForView i v a) turnLimit

/-! ### Observers -/

/-- The next input of an observer. -/
def nextForObserver (i : Nat) : Net (Option Observer.Input) := do
  let self := TaskId.observer i
  let some o := (← get).observers[i]? | return none
  let some s := (← get).subscriptions[o.subscription]? | return none
  match o.phase with
  | .waiting =>
    if ← hasFired self o.scope then return some .cancel
    if ← hasFired self s.scope then return some .ended
    return if ← hasFired self s.ready then some .ready else none
  | .reading =>
    answer? self s.keeper o.reply (modifyObserver i fun o => { o with reply := none }) .refused
      (.contents ·.objectList)
  | .dispatching =>
    if ← hasFired self o.scope then return some .cancel
    match ← nextWithin self s.scope s.feed with
    | .item e => return some (.event e)
    | .ended => return some .ended
    | .pending => return none
  | .stopped => return none

/-- Does what an observer wants done. -/
def actForObserver (i : Nat) (o : ObserverTask) : Observer.Action → Net Unit
  | .read => do
    if let some s := (← get).subscriptions[o.subscription]? then
      ask s.keeper (.observer i) .contents
  | .call c => do
    if o.interest.includes c then modifyObserver i fun o => { o with calls := o.calls ++ [c] }
  | .finish => do
    finish (.observer i)
    discard <| Source.drop (.subscription o.subscription)
    fire o.done

/-- Does what an observer does on an input. -/
def tellObserver (i : Nat) (input : Observer.Input) : Net Unit := do
  let some o := (← get).observers[i]? | return
  let (phase, actions) := Observer.step o.phase input
  modifyObserver i fun o => { o with phase }
  for a in actions do actForObserver i o a

/-- Runs an observer. -/
def runObserver (i : Nat) : Net Unit :=
  drive (.observer i) (nextForObserver i) (tellObserver i) turnLimit

end Replica.Network
