import Replica.Feed
import Replica.Notice

/-!
# The server

The far end of a pipeline: it answers listings and opens watches.  What it answers is set by hand.
Every request is noted with its time.
-/

namespace Replica

/-- What a watch delivers: a notice, or a failure of the stream. -/
abbrev StreamItem := Except FetchError Notice

/-- A request to open a watch. -/
structure WatchCall where
  options : ListOptions
  time : Nat
  opened : Bool
  deriving DecidableEq, Inhabited

/-- A server. -/
structure Server where
  /-- The answer to a listing; without one a listing waits. -/
  listing : Option (Except FetchError Listing)
  /-- The failure of every attempt to open a watch. -/
  watchError : Option FetchError
  /-- The room in the stream of each watch. -/
  streamCapacity : Nat
  /-- The streams of all watches opened so far. -/
  streams : List (Feed StreamItem)
  /-- When listings were asked for. -/
  listCalls : List Nat
  /-- The attempts to open a watch that were not looked at yet. -/
  watchCalls : List WatchCall
  deriving Inhabited

namespace Server

/-- A server without requests so far. -/
def new (listing : Option (Except FetchError Listing)) (watchError : Option FetchError)
    (streamCapacity : Nat) : Server :=
  ⟨listing, watchError, streamCapacity, [], [], []⟩

/-- Notes that a listing was asked for. -/
def noteList (s : Server) (now : Nat) : Server := { s with listCalls := s.listCalls ++ [now] }

/-- Opens a watch on the changes after a version, unless attempts fail; with the number of its
stream. -/
def openWatch (s : Server) (version : String) (now : Nat) : Server × Option Nat :=
  let note (opened : Bool) : List WatchCall :=
    s.watchCalls ++ [⟨.watchFrom version, now, opened⟩]
  if s.watchError.isSome then ({ s with watchCalls := note false }, none)
  else
    ({ s with watchCalls := note true, streams := s.streams ++ [.new s.streamCapacity] },
      some s.streams.length)

/-- Changes one stream. -/
def onStream (s : Server) (i : Nat) (f : Feed StreamItem → Feed StreamItem) : Server :=
  { s with streams := s.streams.modify i f }

end Server

end Replica
