import Replica.Session
import Replica.Proofs.Feed
import Replica.Proofs.Store.Run

/-! # What a session passes on

A `Reception` is a session between its stream and its reader: signals come, and the reader asks for
events, in any order.  Of what the stream gives only the beginning counts, up to the first signal at
which a session ends (`StreamSignal.usable`).

* `Reception.Sound` is what every move keeps: what was read, followed by what waits, is what came
  when there was room, and what came are the usable events.
* `Reception.found_run_of_isOver`: once the session is over the reader finds what waits and then the
  end, whatever the stream still gives.
* `Reception.forwards_usable_prefix` puts both together. -/

namespace Replica

namespace StreamSignal

/-- The event that a signal stands for. -/
def event? : StreamSignal → Option Event
  | .notice n => n.event?
  | .failure _ | .closed => none

/-- Whether a session ends at a signal: at a failure, at the end of the stream, and at an object
without a name. -/
def ends : StreamSignal → Bool
  | .notice n => n.event?.any (!·.object.isNamed)
  | .failure _ | .closed => true

/-- The events of a stream before the first signal at which a session ends. -/
def usable (stream : List StreamSignal) : List Event :=
  (stream.takeWhile (!·.ends)).filterMap event?

theorem usable_concat (stream : List StreamSignal) (x : StreamSignal) :
    usable (stream ++ [x]) =
      usable stream ++ if stream.any ends || x.ends then [] else x.event?.toList := by
  induction stream with
  | nil => cases hx : x.ends <;> cases he : x.event? <;> simp [usable, hx, he]
  | cons y stream ih =>
      cases hy : y.ends with
      | true => simp [usable, hy]
      | false =>
          have hcons : ∀ rest, usable (y :: rest) = y.event?.toList ++ usable rest := by
            intro rest
            cases he : y.event? <;> simp [usable, hy, he]
          rw [List.cons_append, hcons, hcons, ih, List.any_cons, hy, Bool.false_or,
            List.append_assoc]

end StreamSignal

namespace Session

variable {s : Session} {x : StreamSignal}

theorem receive_of_isOver (h : s.isOver = true) (x : StreamSignal) : s.receive x = s := by
  have hfinish : s.finish = s := by
    obtain ⟨buffer⟩ := s
    obtain ⟨capacity, items, dropped, isSealed, isAbandoned⟩ := buffer
    obtain rfl : isSealed = true := h
    rfl
  cases x with
  | closed | failure => exact hfinish
  | notice n =>
      rw [receive]
      split
      · rfl
      · rename_i e _
        have hpush : s.buffer.push e = (s.buffer, .refused) := by
          have hsealed : s.buffer.isSealed = true := h
          simp [Feed.push, hsealed]
        rw [hpush]
        split
        · exact hfinish
        · exact hfinish

theorem receive_of_ends (h : x.ends = true) : s.receive x = s.finish := by
  cases x with
  | closed | failure => rfl
  | notice n =>
      rw [receive]
      cases he : n.event? with
      | none =>
          rw [StreamSignal.ends, he] at h
          cases h
      | some e =>
          rw [StreamSignal.ends, he, Option.any_some, Bool.not_eq_true'] at h
          simp [h]

/-- An event of any other signal goes to the buffer if there is room. -/
theorem receive_of_not_ends (hopen : s.buffer.IsOpen) (h : x.ends = false) :
    s.receive x =
      ⟨{ s.buffer with items := s.buffer.items ++
          if s.buffer.items.length < s.buffer.capacity then x.event?.toList else [] }⟩ := by
  cases x with
  | closed | failure => cases h
  | notice n =>
      rw [receive, StreamSignal.event?]
      cases he : n.event? with
      | none => simp
      | some e =>
          rw [StreamSignal.ends, he, Option.any_some, Bool.not_eq_false'] at h
          simp only [h, if_true, Feed.push_of_isOpen hopen]
          by_cases hroom : s.buffer.items.length < s.buffer.capacity <;> simp [hroom]

end Session

/-- A session between its stream and its reader. -/
structure Reception where
  session : Session
  /-- The events that came, each with the number of those that waited when it did. -/
  arrived : List (Event × Nat)
  /-- What the reader has found, one answer for each time that it asked. -/
  found : List (Polled Event)

namespace Reception

/-- What can happen. -/
inductive Move where
  /-- The stream gives a signal. -/
  | signal (x : StreamSignal)
  /-- The reader asks for the next event. -/
  | poll

/-- The signal that a move takes from the stream. -/
def Move.signal? : Move → Option StreamSignal
  | .signal x => some x
  | .poll => none

/-- A session with room for so many events, before anything happens. -/
def new (capacity : Nat) : Reception := ⟨.new capacity, [], []⟩

/-- A move.  Nothing comes to a session that is over. -/
def step (r : Reception) : Move → Reception
  | .signal x =>
    { r with
      session := r.session.receive x
      arrived := r.arrived ++ if r.session.isOver || x.ends then [] else
        x.event?.toList.map (·, r.session.buffer.items.length) }
  | .poll => { r with session := r.session.poll.1, found := r.found ++ [r.session.poll.2] }

/-- Moves, one after another. -/
def run (r : Reception) (moves : List Move) : Reception := moves.foldl step r

/-- The events that were read. -/
def received (r : Reception) : List Event := r.found.filterMap Polled.item?

/-- The events that wait to be read. -/
def waiting (r : Reception) : List Event := r.session.buffer.items

variable {r : Reception} {room : Nat} {stream : List StreamSignal}

theorem received_step_poll (r : Reception) :
    (r.step .poll).received = r.received ++ r.session.poll.2.item?.toList := by
  rw [received, step, List.filterMap_append]
  cases r.session.poll.2 <;> rfl

theorem item?_append_waiting_poll (r : Reception) :
    r.session.poll.2.item?.toList ++ (r.step .poll).waiting = r.waiting :=
  r.session.buffer.item?_append_items_poll

/-! ### Every event that came is accounted for -/

/-- What holds of a session with room for `room` events that was given `stream`. -/
structure Sound (room : Nat) (stream : List StreamSignal) (r : Reception) : Prop where
  isRead : r.session.buffer.isAbandoned = false
  capacity : r.session.buffer.capacity = room
  isOver : r.session.isOver = stream.any StreamSignal.ends
  arrived : r.arrived.map Prod.fst = StreamSignal.usable stream
  kept : r.received ++ r.waiting = (r.arrived.filter (·.2 < room)).map Prod.fst
  /-- The end is not reported before the session is over and all has been read. -/
  reported : .ended ∈ r.found → r.session.isOver = true ∧ r.waiting = []

theorem sound_new (capacity : Nat) : Sound (max capacity 1) [] (new capacity) :=
  ⟨rfl, rfl, rfl, rfl, rfl, nofun⟩

theorem Sound.poll (h : Sound room stream r) : Sound room stream (r.step .poll) where
  isRead := r.session.buffer.flags_poll.1.trans h.isRead
  capacity := r.session.buffer.capacity_poll.trans h.capacity
  isOver := r.session.buffer.flags_poll.2.trans h.isOver
  arrived := h.arrived
  kept := by
    rw [r.received_step_poll, List.append_assoc, r.item?_append_waiting_poll]
    exact h.kept
  reported hended := by
    rw [step, List.mem_append, List.mem_singleton] at hended
    have hover : r.session.isOver = true ∧ r.waiting = [] := by
      rcases hended with hbefore | hnow
      · exact h.reported hbefore
      · exact (Feed.poll_eq_ended_iff.1 hnow.symm).symm
    refine ⟨r.session.buffer.flags_poll.2.trans hover.1, ?_⟩
    have hleft := r.item?_append_waiting_poll
    rw [hover.2] at hleft
    exact (List.append_eq_nil_iff.1 hleft).2

/-- A signal changes the session and what has come, and nothing else. -/
theorem Sound.of_receive (h : Sound room stream r) {x : StreamSignal} (session : Session)
    (came : List (Event × Nat)) (step : r.step (.signal x) = ⟨session, r.arrived ++ came, r.found⟩)
    (isRead : session.buffer.isAbandoned = r.session.buffer.isAbandoned)
    (capacity : session.buffer.capacity = r.session.buffer.capacity)
    (isOver : session.isOver = (r.session.isOver || x.ends))
    (arrived : came.map Prod.fst =
      if r.session.isOver || x.ends then [] else x.event?.toList)
    (kept : session.buffer.items =
      r.session.buffer.items ++ (came.filter (·.2 < room)).map Prod.fst) :
    Sound room (stream ++ [x]) (r.step (.signal x)) := by
  rw [step]
  refine ⟨isRead.trans h.isRead, capacity.trans h.capacity, ?_, ?_, ?_, fun hended => ?_⟩
  · rw [isOver, h.isOver, List.any_append, List.any_cons, List.any_nil, Bool.or_false]
  · rw [List.map_append, h.arrived, arrived, h.isOver, StreamSignal.usable_concat]
  · rw [List.filter_append, List.map_append, ← h.kept, waiting, kept, ← List.append_assoc]
    rfl
  · obtain ⟨hover, hnone⟩ := h.reported hended
    have hcame : came = [] := by simpa [hover] using arrived
    refine ⟨by rw [isOver, hover, Bool.true_or], ?_⟩
    rw [waiting, kept, hcame]
    exact (List.append_nil _).trans hnone

theorem Sound.signal (h : Sound room stream r) (x : StreamSignal) :
    Sound room (stream ++ [x]) (r.step (.signal x)) := by
  cases hover : r.session.isOver with
  | true =>
      refine h.of_receive r.session [] ?_ rfl rfl (by simp [hover])
        (by simp [hover]) (by simp)
      simp [step, Session.receive_of_isOver hover, hover]
  | false =>
      cases hends : x.ends with
      | true =>
          refine h.of_receive r.session.finish [] ?_ rfl rfl ?_
            (by simp [hends]) (List.append_nil _).symm
          · simp [step, Session.receive_of_ends hends, hends]
          · rw [hends, Bool.or_true]
            rfl
      | false =>
          have hopen : r.session.buffer.IsOpen := ⟨hover, h.isRead⟩
          have hreceive := Session.receive_of_not_ends hopen hends
          refine h.of_receive (r.session.receive x)
            (x.event?.toList.map (·, r.session.buffer.items.length))
            (by simp [step, hover, hends]) (by rw [hreceive]) (by rw [hreceive]) ?_ ?_ ?_
          · rw [hreceive, hends, Bool.or_false]
            rfl
          · cases x.event? <;> simp [hover, hends]
          · -- an event is kept exactly if the buffer has room for it
            rw [hreceive, ← h.capacity]
            by_cases hroom : r.session.buffer.items.length < r.session.buffer.capacity <;>
              cases x.event? <;> simp [hroom]

/-- **Every move keeps it.** -/
theorem Sound.step (h : Sound room stream r) (m : Move) :
    Sound room (stream ++ m.signal?.toList) (r.step m) := by
  cases m with
  | signal x => exact h.signal x
  | poll => exact (List.append_nil stream).symm ▸ h.poll

theorem Sound.run (h : Sound room stream r) (moves : List Move) :
    Sound room (stream ++ moves.filterMap Move.signal?) (r.run moves) := by
  induction moves generalizing r stream with
  | nil => exact (List.append_nil stream).symm ▸ h
  | cons m moves ih =>
      have hsignals : (m :: moves).filterMap Move.signal? =
          m.signal?.toList ++ moves.filterMap Move.signal? := by
        cases m <;> rfl
      rw [hsignals, ← List.append_assoc]
      exact ih (h.step m)

/-! ### The end -/

/-- How often the reader asks. -/
def polls (moves : List Move) : Nat := moves.countP (·.signal?.isNone)

/-- What a reader that asks `n` times finds when nothing more comes. -/
def remainder (waiting : List Event) (n : Nat) : List (Polled Event) :=
  (waiting.take n).map Polled.item ++ List.replicate (n - waiting.length) Polled.ended

theorem poll_of_isOver (h : r.session.isOver = true) (n : Nat) :
    r.session.poll.2 :: remainder (r.step .poll).waiting n = remainder r.waiting (n + 1) := by
  have hpoll : r.session.poll.2 = r.session.buffer.poll.2 := rfl
  have hleft : (r.step .poll).waiting = r.session.buffer.poll.1.items := rfl
  have hsealed : r.session.buffer.isSealed = true := h
  rw [hpoll, hleft, waiting, Feed.poll]
  cases hitems : r.session.buffer.items with
  | nil => simp [hitems, hsealed, remainder, List.replicate_succ]
  | cons e rest => simp [remainder]

/-- **Once a session is over its reader finds what waits, and then the end.** -/
theorem found_run_of_isOver (h : r.session.isOver = true) (moves : List Move) :
    (r.run moves).found = r.found ++ remainder r.waiting (polls moves) := by
  induction moves generalizing r with
  | nil => simp [run, polls, remainder]
  | cons m moves ih =>
      rw [run, List.foldl_cons, ← run]
      cases m with
      | signal x =>
          have hsession : (r.step (.signal x)).session = r.session := Session.receive_of_isOver h x
          rw [ih (hsession ▸ h), waiting, hsession]
          rfl
      | poll =>
          have hover : (r.step .poll).session.isOver = true := r.session.buffer.flags_poll.2.trans h
          have hpolls : polls (.poll :: moves) = polls moves + 1 := List.countP_cons_of_pos rfl
          rw [ih hover, hpolls, ← poll_of_isOver h, step, List.append_assoc]
          rfl

/-! ### What is forwarded -/

/-- A session with room for `room` events has passed on what it should of its stream. -/
structure Forwards (room : Nat) (stream : List StreamSignal) (r : Reception) : Prop where
  /-- What comes are the events before the first signal at which a session ends. -/
  usable : r.arrived.map Prod.fst = StreamSignal.usable stream
  /-- Read or still waiting is what came, in its order, without what found the buffer full. -/
  kept : r.received ++ r.waiting = (r.arrived.filter (·.2 < room)).map Prod.fst
  ordered : r.received.Sublist (StreamSignal.usable stream)
  /-- The session is over as soon as there was a signal at which it ends. -/
  isOver : r.session.isOver = true ↔ ∃ x ∈ stream, x.ends = true
  /-- The end is not reported before, nor before all that waited was read. -/
  reported : .ended ∈ r.found → r.session.isOver = true ∧ r.waiting = []

theorem Sound.forwards (h : Sound room stream r) : Forwards room stream r where
  usable := h.arrived
  kept := h.kept
  ordered := by
    have hread : r.received.Sublist ((r.arrived.filter (·.2 < room)).map Prod.fst) :=
      h.kept ▸ List.sublist_append_left _ _
    exact hread.trans (h.arrived ▸ List.filter_sublist.map Prod.fst)
  isOver := by rw [h.isOver, List.any_eq_true]
  reported := h.reported

/-- **A session forwards the usable prefix of its stream.**  Whatever the stream gives, whatever the
room in the buffer, and whenever the reader asks: what it has read is in order what came before the
first failure and the first object without a name, where only events that found the buffer full are
missing.  Once the session is over, the reader finds the events that wait and then the end, and
nothing else whatever the stream still gives. -/
theorem forwards_usable_prefix (capacity : Nat) (moves : List Move) :
    let r := (new capacity).run moves
    Forwards (max capacity 1) (moves.filterMap Move.signal?) r ∧
      (r.session.isOver = true → ∀ later : List Move,
        (r.run later).found = r.found ++ remainder r.waiting (polls later)) := by
  intro r
  have h := (sound_new capacity).run moves
  rw [List.nil_append] at h
  exact ⟨h.forwards, fun hover => found_run_of_isOver hover⟩

/-- With room for one event: the second finds the buffer full, a status message is skipped, the
reader makes room for another one, which is read after the object without a name has ended the
session; what the stream still gives does not come. -/
theorem forwards_usable_prefix_of_overflow :
    let moves : List Move := [.signal (.notice (.added (.bare "a" "x" "6"))),
      .signal (.notice (.modified (.bare "a" "x" "7"))),
      .signal (.notice (.status ⟨0, "", ""⟩)), .poll,
      .signal (.notice (.deleted (.bare "a" "x" "8"))),
      .signal (.notice (.added (.bare "a" "" "9"))),
      .signal (.notice (.added (.bare "a" "z" "10")))]
    let r := (new 0).run moves
    Forwards 1 (moves.filterMap Move.signal?) r ∧ r.session.isOver = true ∧
      r.received = [⟨.create, .bare "a" "x" "6"⟩] ∧
      (r.run [.poll, .poll, .poll]).found = [.item ⟨.create, .bare "a" "x" "6"⟩,
        .item ⟨.delete, .bare "a" "x" "8"⟩, .ended, .ended] := by
  intro moves r
  obtain ⟨hforwards, hlater⟩ := forwards_usable_prefix 0 moves
  have hover : r.session.isOver = true := by decide +kernel
  exact ⟨hforwards, hover, by decide +kernel, (hlater hover _).trans (by decide +kernel)⟩

end Reception

end Replica
