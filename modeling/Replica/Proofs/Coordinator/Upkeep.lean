import Replica.Coordinator
import Replica.Follower
import Replica.Proofs.Store.Run

/-! # A coordinator with the parts of its pipeline

An `Upkeep` is a coordinator with its store, its follower, the slot of its poller and the feed that its hub
reads.  What the parts are told from outside is not restricted: results of listings come at any time, the
follower goes through any sessions, the hub reads when it wants, and the scope of the pipeline can fire
between any two moves.

The coordinator takes one input at a time (`notice`, `tell`).  What is seen of a run are `Mark`s: results that
the coordinator takes, what the store is asked for and does, stages that become known, and events that are
fed and read. -/

namespace Replica

/-- A coordinator with the parts of its pipeline. -/
structure Upkeep where
  coordinator : Coordinator
  store : Store
  /-- What the store is asked for. -/
  asked : Option Request
  /-- What the store has given for the last request, if the coordinator has not seen it yet. -/
  answer : Option (List Event)
  /-- The result of a listing that waits for the coordinator. -/
  slot : Option ListResult
  pollerGone : Bool
  follower : Follower
  /-- The reset that the follower has not seen yet. -/
  inbox : Option String
  /-- Whether the follower has started over, and the coordinator has not seen it yet. -/
  wasReset : Bool
  /-- The feed that the hub reads. -/
  feed : Feed Event
  hubGone : Bool
  /-- Whether the scope of the pipeline has fired. -/
  isFired : Bool
  /-- Whether the readiness of the pipeline has been told. -/
  isReady : Bool

/-- Whether a coordinator has not begun the end. -/
def Coordinator.isRunning (c : Coordinator) : Bool :=
  match c.phase with
  | .closing | .closed => false
  | _ => true

/-- Whether a coordinator waits for its store. -/
def Coordinator.isWaiting (c : Coordinator) : Bool :=
  match c.phase with
  | .syncing _ | .updating => true
  | _ => false

namespace Upkeep

/-- What is seen of a run. -/
inductive Mark where
  /-- The coordinator has taken the result of a listing. -/
  | listed (r : ListResult)
  /-- The store has done what it was asked for. -/
  | did (r : Request)
  /-- The coordinator has learnt that the store has taken a listing over. -/
  | synced
  /-- The readiness of the pipeline is told. -/
  | readied
  /-- A new stage becomes known. -/
  | staged (stage : Lifecycle)
  /-- An event is fed to the hub. -/
  | fed (e : Event)
  /-- The hub has read an event. -/
  | read (e : Event)
  /-- The scope of the pipeline has been fired from outside. -/
  | cancelled

namespace Mark

/-- The result of a listing that was taken. -/
def listed? : Mark → Option ListResult
  | .listed r => some r
  | _ => none

/-- What the store has done. -/
def did? : Mark → Option Request
  | .did r => some r
  | _ => none

/-- The stage that became known. -/
def staged? : Mark → Option Lifecycle
  | .staged stage => some stage
  | _ => none

/-- The event that was fed. -/
def fed? : Mark → Option Event
  | .fed e => some e
  | _ => none

/-- The event that was read. -/
def read? : Mark → Option Event
  | .read e => some e
  | _ => none

/-- Whether this is the end of the pipeline, or its cause. -/
def isEnd : Mark → Bool
  | .listed (.error _) | .staged .closed | .cancelled => true
  | _ => false

/-- The results of listings that the coordinator has taken. -/
def listings (t : List Mark) : List ListResult := t.filterMap listed?

/-- What the store has done. -/
def operations (t : List Mark) : List Request := t.filterMap did?

/-- The stages that were known one after the other. -/
def stages (t : List Mark) : List Lifecycle := .initializing :: t.filterMap staged?

/-- The events that were fed. -/
def feds (t : List Mark) : List Event := t.filterMap fed?

/-- The events that the hub has read. -/
def reads (t : List Mark) : List Event := t.filterMap read?

/-- What was seen from the end on. -/
def aftermath (t : List Mark) : List Mark := t.dropWhile fun m => !m.isEnd

/-- The events that the store gave for what it has done. -/
def emitted (t : List Mark) : List Event := (Store.new .acceptAll).emitted (operations t)

end Mark

/-! ### The coordinator -/

/-- What the coordinator notices next, which it takes where it finds it. -/
def notice (p : Upkeep) : Option Coordinator.Input × Upkeep :=
  match p.coordinator.phase with
  | .idle =>
    if p.isFired then (some .cancel, p)
    else match p.slot with
    | some r => (some (.listed r), { p with slot := none })
    | none =>
      if p.pollerGone then (some .ended, p)
      else match p.follower.next with
      | (follower, .item e) => (some (.event e), { p with follower })
      | (follower, .ended) => (some .ended, { p with follower })
      | (follower, .pending) => (none, { p with follower })
  | .syncing _ | .updating =>
    if p.isFired then (some .refused, p)
    else match p.answer with
    | some events => (some (.applied events), { p with answer := none })
    | none => (none, p)
  | .feeding [] _ => (some .allFed, p)
  | .feeding (e :: _) _ =>
    if p.isFired then (some .cancel, p)
    else match p.feed.push e with
    | (feed, .taken) => (some .fed, { p with feed })
    | (_, .full) => (none, p)
    | (_, .refused) => (some .refused, p)
  | .resetting =>
    if p.wasReset then (some .wasReset, { p with wasReset := false })
    else if p.follower.isStopped then (some .refused, p)
    else (none, p)
  | .closing => (if p.hubGone then some .hubStopped else none, p)
  | .closed => (none, p)

/-- What comes of an action of the coordinator. -/
def act (p : Upkeep) : Coordinator.Action → Upkeep
  | .ask r => if p.isFired then p else { p with asked := some r }
  | .fireReady => { p with isReady := true }
  | .reset version => { p with inbox := some version }
  | .shutDown => { p with isFired := true, feed := p.feed.close }
  | .fireDone => p

/-- What is seen of an action of the coordinator. -/
def ofAction : Coordinator.Action → List Mark
  | .fireReady => [.readied]
  | _ => []

/-- What is seen of an input of the coordinator. -/
def ofInput (c : Coordinator) : Coordinator.Input → List Mark
  | .listed r => [.listed r]
  | .applied _ =>
    match c.phase with
    | .syncing _ => [.synced]
    | _ => []
  | .fed =>
    match c.phase with
    | .feeding (e :: _) _ => [.fed e]
    | _ => []
  | _ => []

/-- What is seen when a coordinator takes an input. -/
def ofStep (c : Coordinator) (i : Coordinator.Input) : List Mark :=
  ofInput c i ++ (c.step i).2.flatMap ofAction ++
    if (c.step i).1.stage = c.stage then [] else [.staged (c.step i).1.stage]

/-- The coordinator takes an input. -/
def tell (p : Upkeep) (i : Coordinator.Input) : Upkeep :=
  (p.coordinator.step i).2.foldl act { p with coordinator := (p.coordinator.step i).1 }

/-! ### Moves -/

/-- What can happen. -/
inductive Move where
  /-- The coordinator takes its next input, if there is one. -/
  | turn
  /-- A listing comes to a result. -/
  | list (r : ListResult)
  /-- The poller stops. -/
  | stopPoller
  /-- The store does what it is asked for. -/
  | serve
  /-- Something happens to the follower. -/
  | follow (i : Follower.Input)
  /-- The follower starts over as it was told. -/
  | restart
  /-- The hub reads the next event. -/
  | read
  /-- The hub reads no more. -/
  | abandon
  /-- The hub has stopped. -/
  | stopHub
  /-- The scope of the pipeline fires. -/
  | cancel

/-- A move, with what is seen of it; a move that is not possible changes nothing. -/
def play (p : Upkeep) : Move → Upkeep × List Mark
  | .turn =>
    match p.notice with
    | (some i, q) => (q.tell i, ofStep p.coordinator i)
    | (none, q) => (q, [])
  | .list r => (if p.slot.isNone && !p.pollerGone then { p with slot := some r } else p, [])
  | .stopPoller => ({ p with pollerGone := true }, [])
  | .serve =>
    -- A keeper whose scope has fired answers nothing any more.
    if p.isFired then (p, [])
    else match p.asked with
    | some r =>
      ({ p with store := (r.run p.store).1, asked := none, answer := some (r.run p.store).2.eventList },
        [.did r])
    | none => (p, [])
  | .follow i =>
    match i with
    | .reset _ _ => (p, [])
    | _ => (if p.follower.isStopped then p else { p with follower := p.follower.step i }, [])
  | .restart =>
    match p.inbox with
    | some version =>
      (if p.follower.isStopped then p
        else { p with follower := p.follower.step (.reset version true), inbox := none, wasReset := true }, [])
    | none => (p, [])
  | .read =>
    match p.feed.poll with
    | (feed, .item e) => ({ p with feed }, [.read e])
    | _ => (p, [])
  | .abandon => ({ p with feed := p.feed.abandon }, [])
  | .stopHub => ({ p with hubGone := true }, [])
  | .cancel => ({ p with isFired := true }, if p.isFired then [] else [.cancelled])

/-- What a move does. -/
def step (p : Upkeep) (m : Move) : Upkeep := (p.play m).1

/-- What is seen of a move. -/
def marks (p : Upkeep) (m : Move) : List Mark := (p.play m).2

/-- Several moves in order. -/
def after (p : Upkeep) (moves : List Move) : Upkeep := moves.foldl step p

/-- What is seen of several moves. -/
def trace (p : Upkeep) : List Move → List Mark
  | [] => []
  | m :: moves => p.marks m ++ (p.step m).trace moves

/-- A pipeline at its start. -/
def start (settings : Settings) : Upkeep where
  coordinator := .new
  store := .new .acceptAll
  asked := none
  answer := none
  slot := none
  pollerGone := false
  follower := .new settings.reconnect settings.watchBuffer
  inbox := none
  wasReset := false
  feed := .new settings.subscriptionBuffer
  hubGone := false
  isFired := false
  isReady := false

end Upkeep

end Replica
