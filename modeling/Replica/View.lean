import Replica.Keeper

/-!
# Filtered views

A view restricts its parent to the objects that a filter accepts.  It has a store of its own.

* **Start.**  Once the parent is ready the view takes over the parent's contents, as far as its
  filter accepts them, and is ready itself.  A deferred view waits for its first change of filter
  besides.
* **Events.**  When it is ready, each event of the parent goes through the view's store, and the
  events that this gives are offered to the view's consumer.  Events before that do not count: the
  contents taken over at the start have their effect.
* **Change of filter.**  The parent's contents are read again and reconciled under the new filter.
  Before the parent is ready the new filter is only noted; an equal filter changes nothing in a view
  that is ready.

Requests to stores are answered later, so a view is a machine with phases: `step` takes one input
and gives the actions to be done.
-/

namespace Replica

namespace View

/-- Why the parent's contents are taken over. -/
inductive Job where
  /-- The parent has become ready. -/
  | seed
  /-- A change of filter was asked for; `changed` says whether the filter is a new one. -/
  | refilter (filter : Filter) (changed : Bool)

/-- What a view waits for. -/
inductive Phase where
  /-- Anything. -/
  | idle
  /-- The parent's contents. -/
  | reading (job : Job)
  /-- The own store, to take the contents over. -/
  | applying (job : Job)
  /-- The own store, to note a filter. -/
  | noting (filter : Filter)
  /-- The own store, to apply an event. -/
  | updating
  /-- The own store's end. -/
  | stopping
  | stopped

/-- What a view is told. -/
inductive Input where
  /-- The view's scope has fired. -/
  | cancel
  /-- The parent is ready. -/
  | parentReady
  /-- A filter is asked for. -/
  | refilter (filter : Filter)
  /-- The parent's next event. -/
  | event (e : Event)
  /-- The parent has no more events. -/
  | parentEnded
  /-- The parent's contents, as asked for. -/
  | contents (list : List Object)
  /-- The own store has done what it was asked for. -/
  | applied (events : List Event)
  /-- The store that was asked has stopped. -/
  | refused
  /-- The own store has stopped. -/
  | storeStopped

/-- What a view wants done. -/
inductive Action where
  /-- Ask for the parent's contents. -/
  | readParent
  /-- Ask something of the own store. -/
  | ask (r : Request)
  /-- Tell that the view is ready. -/
  | fireReady
  /-- Offer events to the consumer. -/
  | offer (events : List Event)
  /-- Stop the own store and close the parent. -/
  | shutDown
  /-- Tell that the view has stopped. -/
  | fireDone

end View

/-- A filtered view, without its store and feeds. -/
structure View where
  /-- The last filter that was taken over. -/
  filter : Filter
  /-- Whether the view waits for a change of filter before it is ready. -/
  isDeferred : Bool
  parentReady : Bool
  /-- Whether a filter was asked for before the parent was ready. -/
  isAsked : Bool
  isReady : Bool
  phase : View.Phase

namespace View

/-- A view at its start. -/
def new (filter : Filter) (deferred : Bool) : View := ⟨filter, deferred, false, false, false, .idle⟩

/-- Begins the end. -/
def stop (v : View) : View × List Action := ({ v with phase := .stopping }, [.shutDown])

/-- One input, with the actions that follow; an input that the phase does not wait for changes
nothing. -/
def step (v : View) (i : Input) : View × List Action :=
  match v.phase, i with
  | .idle, .cancel => v.stop
  | .idle, .parentEnded => v.stop
  | .idle, .parentReady =>
    let v := { v with parentReady := true }
    if v.isDeferred && !v.isAsked then (v, [])
    else ({ v with phase := .reading .seed }, [.readParent])
  | .idle, .refilter filter =>
    let changed := !filter.same v.filter
    if !v.parentReady then
      if changed then ({ v with phase := .noting filter }, [.ask (.refilter none filter)])
      else ({ v with isAsked := true }, [])
    else if v.isReady && !changed then (v, [])
    else ({ v with phase := .reading (.refilter filter changed) }, [.readParent])
  | .idle, .event e =>
    if v.isReady then ({ v with phase := .updating }, [.ask (.update e)]) else (v, [])
  | .reading job, .contents list =>
    let request := match job with
      | .refilter filter true => Request.refilter (some list) filter
      | _ => .sync list
    ({ v with phase := .applying job }, [.ask request])
  | .applying job, .applied events =>
    let filter := match job with
      | .refilter filter true => filter
      | _ => v.filter
    let next := { v with filter, isReady := true, phase := .idle }
    if v.isReady then (next, [.offer events]) else (next, [.fireReady])
  | .noting filter, .applied _ => ({ v with filter, isAsked := true, phase := .idle }, [])
  | .updating, .applied events => ({ v with phase := .idle }, [.offer events])
  | .reading _, .refused => v.stop
  | .applying _, .refused => v.stop
  | .noting _, .refused => v.stop
  | .updating, .refused => v.stop
  | .stopping, .storeStopped => ({ v with phase := .stopped }, [.fireDone])
  | _, _ => (v, [])

end View

end Replica
