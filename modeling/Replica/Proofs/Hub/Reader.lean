import Replica.Proofs.Hub.Moves

/-! # A subscription by itself

A `Reader` is a subscription as if there were nothing else: events come, some are read, and at some time
it is closed and stays as it is.  Whatever the order of these moves, `Reader.Balanced` holds: what was
read followed by what waits is what came, in its order, without what found no room, and that was
counted.  `HubMove.own` says which of a hub's moves concern a subscription at all. -/

namespace Replica

namespace Network

/-- A subscription by itself. -/
structure Reader where
  feed : Feed Event
  /-- The events that were read. -/
  received : List Event
  /-- The events that came, each with the number of those that waited when it did. -/
  arrived : List (Event × Nat)
  isClosed : Bool

/-- A new subscription, with room for so many events. -/
def Reader.new (room : Nat) : Reader := ⟨.new room, [], [], false⟩

/-- What can happen to a subscription by itself. -/
inductive Reader.Move where
  | event (e : Event)
  | receive
  | close

/-- The event that comes with a move. -/
def Reader.Move.event? : Reader.Move → Option Event
  | .event e => some e
  | .receive | .close => none

/-- The event that a hub distributes in a move. -/
def HubMove.event? : HubMove → Option Event
  | .event e => some e
  | .join | .forget | .receive _ | .close _ | .drop _ => none

/-- What a move at a hub is to the subscription `s`: only events concern all subscriptions. -/
def HubMove.own (s : Nat) : HubMove → Option Reader.Move
  | .event e => some (.event e)
  | .receive s' => if s' = s then some .receive else none
  | .close s' | .drop s' => if s' = s then some .close else none
  | .join | .forget => none

theorem HubMove.own_bind_event? (s : Nat) (m : HubMove) :
    (m.own s).bind Reader.Move.event? = m.event? := by
  cases m with
  | join | event | forget => rfl
  | receive s' | close s' | drop s' =>
      simp only [own, event?]
      split <;> rfl

namespace Reader

/-- A move of a subscription; when it is closed nothing happens any more. -/
def step (r : Reader) (m : Move) : Reader :=
  if r.isClosed then r
  else
    match m with
    | .event e =>
      { r with
        feed := (r.feed.offer e).1
        arrived := r.arrived ++ [(e, r.feed.items.length)] }
    | .receive =>
      { r with
        feed := r.feed.poll.1
        received := r.received ++ r.feed.poll.2.item?.toList }
    | .close => { r with isClosed := true }

/-- A move, if there is one. -/
def take (r : Reader) (m : Option Move) : Reader := m.elim r r.step

@[simp] theorem take_none (r : Reader) : r.take none = r := rfl

@[simp] theorem take_some (r : Reader) (m : Move) : r.take (some m) = r.step m := rfl

/-- Moves of a subscription, one after another. -/
def run (r : Reader) (moves : List Move) : Reader := moves.foldl step r

variable {r : Reader} {room : Nat}

theorem run_append (r : Reader) (as bs : List Move) : r.run (as ++ bs) = (r.run as).run bs :=
  List.foldl_append

theorem run_filterMap_cons {α : Type} (r : Reader) (f : α → Option Move) (a : α) (as : List α) :
    r.run ((a :: as).filterMap f) = (r.take (f a)).run (as.filterMap f) := by
  rw [List.filterMap_cons]
  cases f a <;> rfl

theorem step_of_isClosed (h : r.isClosed = true) (m : Move) : r.step m = r := if_pos h

theorem step_event (h : r.isClosed = false) (e : Event) : r.step (.event e) =
    { r with
      feed := (r.feed.offer e).1
      arrived := r.arrived ++ [(e, r.feed.items.length)] } :=
  if_neg (by simp [h])

theorem step_receive (h : r.isClosed = false) : r.step .receive =
    { r with
      feed := r.feed.poll.1
      received := r.received ++ r.feed.poll.2.item?.toList } :=
  if_neg (by simp [h])

theorem step_close (h : r.isClosed = false) : r.step .close = { r with isClosed := true } :=
  if_neg (by simp [h])

/-- Closing closes. -/
theorem isClosed_step_close (r : Reader) : (r.step .close).isClosed = true := by
  cases h : r.isClosed with
  | true => rwa [step_of_isClosed h]
  | false => rw [step_close h]

/-- Only reading delivers events. -/
theorem received_step_of_ne {m : Move} (h : m ≠ .receive) : (r.step m).received = r.received := by
  cases hr : r.isClosed with
  | true => rw [step_of_isClosed hr]
  | false =>
      cases m with
      | event e => rw [step_event hr]
      | receive => exact absurd rfl h
      | close => rw [step_close hr]

/-- Nothing comes but events. -/
theorem arrived_step_of_event? {m : Move} (h : m.event? = none) :
    (r.step m).arrived = r.arrived := by
  cases hr : r.isClosed with
  | true => rw [step_of_isClosed hr]
  | false =>
      cases m with
      | event e => cases h
      | receive => rw [step_receive hr]
      | close => rw [step_close hr]

theorem run_of_isClosed (h : r.isClosed = true) (moves : List Move) : r.run moves = r := by
  induction moves with
  | nil => rfl
  | cons m moves ih => rw [run, List.foldl_cons, step_of_isClosed h, ← run, ih]

/-- What is open at the end was open all the time. -/
theorem isClosed_eq_false_of_run {moves : List Move} (h : (r.run moves).isClosed = false) :
    r.isClosed = false := by
  cases hr : r.isClosed with
  | false => rfl
  | true => rw [run_of_isClosed hr, hr] at h; exact h

/-- As long as a subscription is not closed, every event comes. -/
theorem arrived_run {moves : List Move} (h : (r.run moves).isClosed = false) :
    (r.run moves).arrived.map Prod.fst = r.arrived.map Prod.fst ++ moves.filterMap Move.event? := by
  induction moves generalizing r with
  | nil => exact (List.append_nil _).symm
  | cons m moves ih =>
      have hopen : r.isClosed = false := isClosed_eq_false_of_run h
      rw [run, List.foldl_cons, ← run, ih h]
      cases m <;> simp [step, hopen, Move.event?, List.filterMap_cons]

/-- **Every event that came is accounted for**: it was read, it waits, or it found no room and was
counted. -/
structure Balanced (r : Reader) (room : Nat) : Prop where
  isOpen : r.feed.IsOpen
  capacity : r.feed.capacity = room
  kept : r.received ++ r.feed.items = (r.arrived.filter (·.2 < room)).map Prod.fst
  lost : r.feed.dropped = r.arrived.countP (room ≤ ·.2)

theorem balanced_new (h : 0 < room) : (Reader.new room).Balanced room :=
  ⟨⟨rfl, rfl⟩, Nat.max_eq_left h, rfl, rfl⟩

theorem Balanced.event (h : r.Balanced room) (hopen : r.isClosed = false) (e : Event) :
    (r.step (.event e)).Balanced room := by
  rw [step_event hopen]
  by_cases hroom : r.feed.items.length < room
  · have hoffer : (r.feed.offer e).1 = { r.feed with items := r.feed.items ++ [e] } := by
      rw [Feed.offer_of_isOpen h.isOpen, if_pos (h.capacity.symm ▸ hroom)]
    rw [hoffer]
    refine ⟨h.isOpen, h.capacity, ?_, ?_⟩
    · simp [← List.append_assoc, h.kept, hroom]
    · simp [h.lost, hroom]
  · have hoffer : (r.feed.offer e).1 = { r.feed with dropped := r.feed.dropped + 1 } := by
      rw [Feed.offer_of_isOpen h.isOpen, if_neg (h.capacity.symm ▸ hroom)]
    rw [hoffer]
    refine ⟨h.isOpen, h.capacity, ?_, ?_⟩
    · simp [h.kept, hroom]
    · simp [h.lost, Nat.not_lt.1 hroom]

theorem Balanced.receive (h : r.Balanced room) (hopen : r.isClosed = false) :
    (r.step .receive).Balanced room := by
  rw [step_receive hopen]
  refine ⟨h.isOpen.poll, r.feed.capacity_poll.trans h.capacity, ?_, r.feed.dropped_poll.trans h.lost⟩
  rw [List.append_assoc, r.feed.item?_append_items_poll, h.kept]

theorem Balanced.step (h : r.Balanced room) (m : Move) : (r.step m).Balanced room := by
  cases hr : r.isClosed with
  | true => rwa [step_of_isClosed hr]
  | false =>
      cases m with
      | event e => exact h.event hr e
      | receive => exact h.receive hr
      | close => exact step_close hr ▸ ⟨h.isOpen, h.capacity, h.kept, h.lost⟩

theorem Balanced.run (h : r.Balanced room) (moves : List Move) : (r.run moves).Balanced room := by
  induction moves generalizing r with
  | nil => exact h
  | cons m moves ih => exact ih (h.step m)

end Reader

end Network

end Replica
