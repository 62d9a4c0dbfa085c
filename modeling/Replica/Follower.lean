import Replica.Feed
import Replica.Event
import Replica.Settings

/-!
# The follower

A follower keeps a watch on the collection going over a row of sessions.

* **Resets.**  A reset to version `v` starts over there: a new session and a new output; what the old
  output still held is gone.  A reset that nobody waits for any more changes nothing.
* **Events.**  An event of the session moves the version on and goes to the output; if that is full
  the event is lost.
* **Ends.**  When the session ends, another one is opened at the last version after a delay that
  depends on the number of attempts in a row.  An event or a reset sets that number back.  When it
  has reached its limit the follower waits for the next reset.  A delay longer than any duration stops
  the follower.

Sessions are numbered in the order of their opening.
-/

namespace Replica

/-- A follower. -/
structure Follower where
  reconnect : Reconnect
  /-- The room in the output. -/
  capacity : Nat
  /-- The version that the next session starts from. -/
  version : String
  /-- The number of the live session. -/
  session : Option Nat
  /-- How many sessions were opened. -/
  opened : Nat
  /-- The output of the last reset. -/
  output : Option (Feed Event)
  /-- While a new attempt is waited for, how many were made before it. -/
  retry : Option Nat
  /-- The number of attempts since the last event or reset. -/
  attempt : Nat
  isStopped : Bool
  deriving Inhabited

namespace Follower

/-- A follower that waits for its first reset. -/
def new (reconnect : Reconnect) (capacity : Nat) : Follower :=
  ⟨reconnect, max capacity 1, "", none, 0, none, none, 0, false⟩

/-- What can happen to a follower. -/
inductive Input where
  /-- A reset to a version, and whether somebody still waits for it. -/
  | reset (version : String) (isAwaited : Bool)
  /-- An event of the live session. -/
  | event (e : Event)
  /-- The live session has ended. -/
  | sessionEnded
  /-- The delay before the next attempt is over. -/
  | retryElapsed
  /-- The follower's scope fires. -/
  | cancel
  deriving Inhabited

/-- The largest number of attempts that is counted. -/
def attemptLimit : Nat := Nat.pow 2 32 - 1

/-- Replaces the session by a new one. -/
def «open» (f : Follower) : Follower :=
  { f with session := some f.opened, opened := f.opened + 1 }

/-- Ends the follower; what the output holds is still read. -/
def stop (f : Follower) : Follower :=
  { f with session := none, output := f.output.map Feed.close, isStopped := true }

/-- Passes an event on to an output, which is given up if nobody reads it any more. -/
def passOn (e : Event) (out : Feed Event) : Option (Feed Event) :=
  match out.push e with
  | (_, .refused) => none
  | (out, _) => some out

/-- One step. -/
def step (f : Follower) : Input → Follower
  | .reset version isAwaited =>
    if isAwaited then
      { f with version, output := some (.new f.capacity), retry := none, attempt := 0 }.open
    else f
  | .event e =>
    { f with
      attempt := 0
      version := e.object.metadata.version
      output := f.output.bind (passOn e) }
  | .sessionEnded =>
    if f.reconnect.allows f.attempt then
      match f.reconnect.delay? f.attempt with
      | some _ =>
        { f with
          session := none, retry := some f.attempt, attempt := min (f.attempt + 1) attemptLimit }
      | none => f.stop
    else { f with session := none }
  | .retryElapsed => { f with retry := none }.open
  | .cancel => f.stop

/-- Reads the next event of the output.  Without an output there is never one, and an output that has
ended is given up. -/
def next (f : Follower) : Follower × Polled Event :=
  match f.output with
  | none => (f, .pending)
  | some out =>
    match out.poll with
    | (_, .ended) => ({ f with output := none }, .ended)
    | (out, r) => ({ f with output := some out }, r)

end Follower

end Replica
