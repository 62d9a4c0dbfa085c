import Replica.Keeper

/-!
# Observers

An observer turns a subscription into calls of a handler: one call with the contents once they are
ready, then one call for each event, in order, until the subscription or the observer is closed.
-/

namespace Replica

/-- A call of a handler. -/
inductive Call where
  /-- The contents at the start. -/
  | contents (list : List Object)
  /-- An event. -/
  | event (e : Event)
  deriving DecidableEq, Inhabited

/-- The written form of a call: the objects at the start in the order of their keys and versions, or
the event. -/
def Call.text : Call → String
  | .contents list => "init [" ++ ", ".intercalate ((Object.inOrder list).map Object.short) ++ "]"
  | .event e => e.text

namespace Observer

/-- The calls that a handler takes part in; it ignores the others. -/
structure Interest where
  contents : Bool
  create : Bool
  update : Bool
  delete : Bool
  deriving DecidableEq, Inhabited

/-- Whether a handler takes part in a call. -/
def Interest.includes (i : Interest) : Call → Bool
  | .contents _ => i.contents
  | .event ⟨.create, _⟩ => i.create
  | .event ⟨.update, _⟩ => i.update
  | .event ⟨.delete, _⟩ => i.delete

/-- What an observer waits for. -/
inductive Phase where
  /-- Readiness. -/
  | waiting
  /-- The contents. -/
  | reading
  /-- The next event. -/
  | dispatching
  | stopped
  deriving DecidableEq, Inhabited

/-- What an observer is told. -/
inductive Input where
  /-- The observer's scope has fired. -/
  | cancel
  /-- The subscription has ended. -/
  | ended
  /-- The contents can be read. -/
  | ready
  /-- The contents, as asked for. -/
  | contents (list : List Object)
  /-- The store that was asked has stopped. -/
  | refused
  /-- The next event. -/
  | event (e : Event)

/-- What an observer wants done. -/
inductive Action where
  /-- Ask for the contents. -/
  | read
  /-- Call the handler. -/
  | call (c : Call)
  /-- Close the subscription, and tell that the observer has stopped. -/
  | finish

/-- The phase after an input, and the actions that follow; an input that the phase does not wait for
changes nothing. -/
def step (p : Phase) (i : Input) : Phase × List Action :=
  match p, i with
  | .waiting, .cancel => (.stopped, [.finish])
  | .waiting, .ended => (.stopped, [.finish])
  | .waiting, .ready => (.reading, [.read])
  | .reading, .contents list => (.dispatching, [.call (.contents list)])
  | .reading, .refused => (.stopped, [.finish])
  | .dispatching, .cancel => (.stopped, [.finish])
  | .dispatching, .ended => (.stopped, [.finish])
  | .dispatching, .event e => (.dispatching, [.call (.event e)])
  | p, _ => (p, [])

end Observer

end Replica
