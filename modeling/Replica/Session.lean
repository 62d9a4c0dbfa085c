import Replica.Feed
import Replica.Notice

/-!
# Watch sessions

A session is one connection of a watch.  It turns notices into events for a buffer, and ends
with the stream, with the first failure of it, and with the first object that has no name.  When the
buffer is full an event is lost.  Events that are in the buffer when the session ends are still read.
-/

namespace Replica

/-- What a session hears from its stream. -/
inductive StreamSignal where
  | notice (n : Notice)
  | failure (e : FetchError)
  | closed
  deriving Inhabited

/-- A connection of a watch. -/
structure Session where
  /-- The events that were not read yet; closed once the session has ended. -/
  buffer : Feed Event
  deriving Inhabited

namespace Session

/-- A session with room for so many events. -/
def new (capacity : Nat) : Session := ⟨.new capacity⟩

/-- Whether nothing more is taken from the stream. -/
def isOver (s : Session) : Bool := s.buffer.isSealed

/-- Ends the session. -/
def finish (s : Session) : Session := ⟨s.buffer.close⟩

/-- Takes one signal of the stream. -/
def receive (s : Session) : StreamSignal → Session
  | .closed | .failure _ => s.finish
  | .notice n =>
    match n.event? with
    | none => s
    | some e =>
      if e.object.isNamed then
        match s.buffer.push e with
        | (_, .refused) => s.finish
        | (buffer, _) => ⟨buffer⟩
      else s.finish

/-- Reads the next event. -/
def poll (s : Session) : Session × Polled Event :=
  let (buffer, r) := s.buffer.poll
  (⟨buffer⟩, r)

end Session

end Replica
