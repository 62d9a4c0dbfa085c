import Replica.Event
import Replica.Feed

/-!
# Fan-out

A hub passes the events of one source on to any number of subscribers, each with a feed of its own.
It never waits: an event for which a feed has no room is dropped for that subscriber alone.

`Feeds` holds the feeds of all subscribers by number; a hub has the numbers of those that are
registered with it.
-/

namespace Replica

/-- The number of a feed. -/
abbrev FeedId := Nat

/-- Feeds of events by number. -/
abbrev Feeds := List (Feed Event)

/-- The subscribers of a source. -/
structure Hub where
  /-- The room in the feed of each new subscriber. -/
  capacity : Nat
  /-- The feeds that events go to, in the order of registration. -/
  live : List FeedId
  deriving DecidableEq, Inhabited

namespace Hub

/-- A hub without subscribers. -/
def new (capacity : Nat) : Hub := ⟨max capacity 1, []⟩

/-- Registers a new feed. -/
def subscribe (h : Hub) (feeds : Feeds) : Hub × Feeds × FeedId :=
  ({ h with live := h.live ++ [feeds.length] }, feeds ++ [.new h.capacity], feeds.length)

/-- Forgets a subscriber. -/
def unsubscribe (h : Hub) (i : FeedId) : Hub := { h with live := h.live.filter (· != i) }

theorem mem_live_unsubscribe {h : Hub} {i j : FeedId} :
    j ∈ (h.unsubscribe i).live ↔ j ∈ h.live ∧ j ≠ i := by
  simp [unsubscribe]

/-- Offers an event to one feed; whether somebody still reads it. -/
def offerTo (feeds : Feeds) (i : FeedId) (e : Event) : Feeds × Bool :=
  match feeds[i]? with
  | some f =>
    let (f, r) := f.offer e
    (feeds.set i f, r != .refused)
  | none => (feeds, false)

/-- Offers an event to the listed feeds; with those that are still read. -/
def offerAll (e : Event) : List FeedId → Feeds → Feeds × List FeedId
  | [], feeds => (feeds, [])
  | i :: is, feeds =>
    let (feeds, open_) := offerTo feeds i e
    let (feeds, rest) := offerAll e is feeds
    (feeds, if open_ then i :: rest else rest)

theorem length_offerTo (feeds : Feeds) (i : FeedId) (e : Event) :
    (offerTo feeds i e).1.length = feeds.length := by
  unfold offerTo
  split <;> simp

theorem getElem?_offerTo_of_ne (feeds : Feeds) (e : Event) {i j : FeedId} (h : i ≠ j) :
    (offerTo feeds i e).1[j]? = feeds[j]? := by
  unfold offerTo
  split
  · simp [List.getElem?_set_ne h]
  · rfl

theorem length_offerAll (e : Event) (is : List FeedId) (feeds : Feeds) :
    (offerAll e is feeds).1.length = feeds.length := by
  induction is generalizing feeds with
  | nil => rfl
  | cons i is ih => simp [offerAll, ih, length_offerTo]

/-- Passes an event on to all subscribers, and forgets those that are gone. -/
def distribute (h : Hub) (feeds : Feeds) (e : Event) : Hub × Feeds :=
  let (feeds, live) := offerAll e h.live feeds
  ({ h with live }, feeds)

end Hub

end Replica
