/-!
# Bounded queues

A `Feed` holds items on their way from one writer to one reader, at most `capacity` of them.

* **Writing.**  `push` adds an item if there is room.  `offer` does the same, but counts an item
  for which there was no room as dropped; the writer never waits.
* **Reading.**  `poll` takes the oldest item.  Once the writer is gone (`sealed`) the items that are
  left are still read, and then the feed has ended.
* **Leaving.**  When the reader is gone (`abandoned`) nothing is added any more.
-/

namespace Replica

/-- What a reader finds. -/
inductive Polled (α : Type) where
  | item (a : α)
  /-- Nothing yet. -/
  | pending
  /-- Nothing, and nothing will come. -/
  | ended
  deriving DecidableEq, Inhabited

/-- What became of an item that was to be added. -/
inductive Pushed where
  | taken
  /-- There was no room. -/
  | full
  /-- Nobody reads any more. -/
  | refused
  deriving DecidableEq, Inhabited

/-- Items between a writer and a reader, the oldest first. -/
structure Feed (α : Type) where
  capacity : Nat
  items : List α
  /-- The number of items that were offered when there was no room. -/
  dropped : Nat
  /-- The writer is gone. -/
  isSealed : Bool
  /-- The reader is gone. -/
  isAbandoned : Bool
  deriving DecidableEq, Inhabited

namespace Feed

variable {α : Type}

/-- An empty feed; it has room for one item at least. -/
def new (capacity : Nat) : Feed α := ⟨max capacity 1, [], 0, false, false⟩

/-- Whether another item could be added. -/
def hasRoom (f : Feed α) : Bool := f.items.length < f.capacity

/-- Adds an item if somebody reads and there is room. -/
def push (f : Feed α) (a : α) : Feed α × Pushed :=
  if f.isAbandoned || f.isSealed then (f, .refused)
  else if f.hasRoom then ({ f with items := f.items ++ [a] }, .taken)
  else (f, .full)

/-- Adds an item, or counts it as dropped; the feed is as before if nobody reads. -/
def offer (f : Feed α) (a : α) : Feed α × Pushed :=
  match f.push a with
  | (f, .full) => ({ f with dropped := f.dropped + 1 }, .full)
  | r => r

/-- Takes the oldest item. -/
def poll (f : Feed α) : Feed α × Polled α :=
  match f.items with
  | a :: rest => ({ f with items := rest }, .item a)
  | [] => (f, if f.isSealed then .ended else .pending)

/-- The writer leaves. -/
def close (f : Feed α) : Feed α := { f with isSealed := true }

/-- The reader leaves. -/
def abandon (f : Feed α) : Feed α := { f with isAbandoned := true }

theorem length_push_le (f : Feed α) (a : α) (h : f.items.length ≤ f.capacity) :
    (f.push a).1.items.length ≤ (f.push a).1.capacity := by
  unfold push
  split
  · exact h
  · split
    next hr => simpa [hasRoom, Nat.succ_le_iff] using hr
    next => exact h

theorem items_offer (f : Feed α) (a : α) :
    (f.offer a).1.items = if (f.offer a).2 = .taken then f.items ++ [a] else f.items := by
  unfold offer push
  by_cases h : f.isAbandoned || f.isSealed
  · simp [h]
  · by_cases hr : f.hasRoom <;> simp [h, hr]

theorem dropped_offer (f : Feed α) (a : α) :
    (f.offer a).1.dropped = f.dropped + if (f.offer a).2 = .full then 1 else 0 := by
  unfold offer push
  by_cases h : f.isAbandoned || f.isSealed
  · simp [h]
  · by_cases hr : f.hasRoom <;> simp [h, hr]

end Feed

end Replica
