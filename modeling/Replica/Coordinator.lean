import Replica.Keeper
import Replica.Poller

/-!
# The coordinator

The coordinator runs a pipeline: it takes listings from the poller and events from the follower,
applies them to the store, and feeds the events that this gives to the subscribers.

* **Listings.**  A listing is reconciled with the store; after the first one the pipeline is ready.
  When its events are fed, the follower is reset to the listing's version.
* **Events.**  An event of the follower goes through the store.
* **Feeding.**  Events are fed one by one, each when there is room; none is lost.
* **End.**  A listing that failed ends the pipeline, and so does the end of any part of it.
-/

namespace Replica

/-- What can be seen of the life of a pipeline. -/
inductive Lifecycle where
  /-- No listing has been applied yet. -/
  | initializing
  /-- The store holds the collection. -/
  | ready
  | closed
  deriving DecidableEq, Inhabited

namespace Lifecycle

/-- The name of a stage. -/
def text : Lifecycle → String
  | .initializing => "initializing"
  | .ready => "ready"
  | .closed => "closed"

/-- The name of a stage in a description of the pipeline. -/
def debugText : Lifecycle → String
  | .initializing => "Initializing"
  | .ready => "Ready"
  | .closed => "Closed"

end Lifecycle

namespace Coordinator

/-- What a coordinator waits for. -/
inductive Phase where
  /-- A listing or an event. -/
  | idle
  /-- The store, to reconcile the listing of a version. -/
  | syncing (version : String)
  /-- The store, to apply an event. -/
  | updating
  /-- Room for the next event; after the last one the follower is reset, if a version is given. -/
  | feeding (rest : List Event) (version : Option String)
  /-- The follower, to start over. -/
  | resetting
  /-- The end of the subscribers. -/
  | closing
  | closed

/-- What a coordinator is told. -/
inductive Input where
  /-- The pipeline's scope has fired. -/
  | cancel
  /-- The poller or the follower has stopped. -/
  | ended
  /-- The result of a listing. -/
  | listed (r : ListResult)
  /-- An event of the follower. -/
  | event (e : Event)
  /-- The store has done what it was asked for. -/
  | applied (events : List Event)
  /-- The part that was asked has stopped. -/
  | refused
  /-- The next event was fed. -/
  | fed
  /-- No event is left to be fed. -/
  | allFed
  /-- The follower has started over. -/
  | wasReset
  /-- The subscribers have been closed. -/
  | hubStopped

/-- What a coordinator wants done. -/
inductive Action where
  /-- Ask something of the store. -/
  | ask (r : Request)
  /-- Tell that the pipeline is ready. -/
  | fireReady
  /-- Ask the follower to start over at a version. -/
  | reset (version : String)
  /-- Fire the pipeline's scope and let go of all parts. -/
  | shutDown
  /-- Tell that the pipeline has stopped. -/
  | fireDone

end Coordinator

/-- A coordinator: its phase, and what it has made known of its life. -/
structure Coordinator where
  phase : Coordinator.Phase
  stage : Lifecycle

namespace Coordinator

/-- A coordinator at its start. -/
def new : Coordinator := ⟨.idle, .initializing⟩

/-- Begins the end. -/
def stop (c : Coordinator) : Coordinator × List Action :=
  ({ c with phase := .closing, stage := .closed }, [.shutDown])

/-- One input, with the actions that follow; an input that the phase does not wait for changes
nothing. -/
def step (c : Coordinator) (i : Input) : Coordinator × List Action :=
  match c.phase, i with
  | .idle, .cancel => c.stop
  | .idle, .ended => c.stop
  | .idle, .listed (.error _) => c.stop
  | .idle, .listed (.ok list) =>
    ({ c with phase := .syncing list.version }, [.ask (.sync list.items)])
  | .idle, .event e => ({ c with phase := .updating }, [.ask (.update e)])
  | .syncing version, .applied events =>
    ({ phase := .feeding events (some version), stage := .ready },
      if c.stage = .initializing then [.fireReady] else [])
  | .updating, .applied events => ({ c with phase := .feeding events none }, [])
  | .feeding (_ :: rest) version, .fed => ({ c with phase := .feeding rest version }, [])
  | .feeding [] none, .allFed => ({ c with phase := .idle }, [])
  | .feeding [] (some version), .allFed => ({ c with phase := .resetting }, [.reset version])
  | .resetting, .wasReset => ({ c with phase := .idle }, [])
  | .feeding _ _, .cancel => c.stop
  | .syncing _, .refused => c.stop
  | .updating, .refused => c.stop
  | .feeding _ _, .refused => c.stop
  | .resetting, .refused => c.stop
  | .closing, .hubStopped => ({ c with phase := .closed }, [.fireDone])
  | _, _ => (c, [])

end Coordinator

end Replica
