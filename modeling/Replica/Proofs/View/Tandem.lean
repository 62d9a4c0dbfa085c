import Replica.Feed
import Replica.Proofs.View.Stage

/-! # A view and its parent

A `Tandem` is a view with all that it works on: the parent's store, the events of the parent that
have not reached the view's feed, the feed, the view's own store, and the errand that is under way.
A `Move` is what can happen next; everything that is asked is answered at some later move, and
other moves may come in between.

`Change` says what the moves do (`change_step`), and `Change.stage` that the view and its own store
stay in one of their stages. -/

namespace Replica

/-- A view with its parent. -/
structure Tandem where
  parent : Store
  /-- Whether the parent has told that it is ready. -/
  isFired : Bool
  /-- The parent's events that have not reached the view's feed. -/
  inFlight : List Event
  feed : Feed Event
  view : View
  own : Store
  errand : Errand

namespace Tandem

/-- What can happen. -/
inductive Move where
  /-- A request is made of the parent's store. -/
  | parent (r : Request)
  /-- The parent tells that it is ready, if its store has contents. -/
  | fire
  /-- The oldest event in flight is offered to the feed. -/
  | deliver
  /-- The view learns that the parent is ready. -/
  | sense
  /-- The view is asked for another filter. -/
  | refilter (filter : Filter)
  /-- The view takes the next event of its feed. -/
  | take
  /-- The parent's store is read for the view. -/
  | read
  /-- The own store does what it is asked for. -/
  | serve
  /-- The view gets an answer. -/
  | hear

/-- The view is told something. -/
def tell (t : Tandem) (i : View.Input) : Tandem :=
  { t with view := (t.view.step i).1, errand := .ofActions (t.view.step i).2 }

/-- One move; a move that is not possible changes nothing. -/
def step (t : Tandem) : Move → Tandem
  | .parent r =>
    { t with
      parent := (r.run t.parent).1
      inFlight := t.inFlight ++ (r.run t.parent).2.eventList }
  | .fire => if t.parent.items.isSome then { t with isFired := true } else t
  | .deliver =>
    match t.inFlight with
    | [] => t
    | e :: rest => { t with inFlight := rest, feed := (t.feed.offer e).1 }
  | .sense =>
    match t.errand with
    | .nothing => if t.isFired && !t.view.parentReady then t.tell .parentReady else t
    | _ => t
  | .refilter filter =>
    match t.errand with
    | .nothing => t.tell (.refilter filter)
    | _ => t
  | .take =>
    match t.errand, t.feed.poll with
    | .nothing, (feed, .item e) => { t with feed }.tell (.event e)
    | _, _ => t
  | .read =>
    match t.errand with
    | .reading => { t with errand := .contents (Request.contents.run t.parent).2.objectList }
    | _ => t
  | .serve =>
    match t.errand with
    | .asked r => { t with own := (r.run t.own).1, errand := .answered (r.run t.own).2.eventList }
    | _ => t
  | .hear =>
    match t.errand with
    | .contents list => t.tell (.contents list)
    | .answered events => t.tell (.applied events)
    | _ => t

/-- Several moves in order. -/
def after (t : Tandem) (moves : List Move) : Tandem := moves.foldl step t

/-- A new view of a parent that has a history; the first `n` events of it are gone. -/
def start (parentFilter : Filter) (history : List Request) (n : Nat) (filter : Filter)
    (deferred : Bool) (capacity : Nat) : Tandem where
  parent := (Store.new parentFilter).after history
  isFired := false
  inFlight := ((Store.new parentFilter).emitted history).drop n
  feed := .new capacity
  view := .new filter deferred
  own := .new filter
  errand := .nothing

/-- The events of the parent that the view's own store has not met yet, the oldest first. -/
def queue (t : Tandem) : List Event := t.errand.events ++ t.feed.items ++ t.inFlight

/-- What a move does, if anything. -/
inductive Change (t : Tandem) : Tandem → Prop
  | still : Change t t
  | parent (r : Request) :
      Change t { t with
        parent := (r.run t.parent).1
        inFlight := t.inFlight ++ (r.run t.parent).2.eventList }
  | fire (filled : t.parent.items.isSome = true) : Change t { t with isFired := true }
  | deliver {e : Event} {rest : List Event} (next : t.inFlight = e :: rest) :
      Change t { t with inFlight := rest, feed := (t.feed.offer e).1 }
  | sense {view : View} {errand : Errand} (free : t.errand = .nothing) (fired : t.isFired = true)
      (reaction : t.view.Reaction .parentReady view errand) : Change t { t with view, errand }
  | refilter {filter : Filter} {view : View} {errand : Errand} (free : t.errand = .nothing)
      (reaction : t.view.Reaction (.refilter filter) view errand) : Change t { t with view, errand }
  | take {e : Event} {rest : List Event} {view : View} {errand : Errand} (free : t.errand = .nothing)
      (next : t.feed.items = e :: rest) (reaction : t.view.Reaction (.event e) view errand) :
      Change t { t with feed := { t.feed with items := rest }, view, errand }
  | read (asked : t.errand = .reading) : Change t { t with errand := .contents t.parent.list }
  | serve {r : Request} (asked : t.errand = .asked r) :
      Change t { t with own := (r.run t.own).1, errand := .answered (r.run t.own).2.eventList }
  | contents {list : List Object} {view : View} {errand : Errand} (told : t.errand = .contents list)
      (reaction : t.view.Reaction (.contents list) view errand) : Change t { t with view, errand }
  | applied {events : List Event} {view : View} {errand : Errand}
      (told : t.errand = .answered events)
      (reaction : t.view.Reaction (.applied events) view errand) : Change t { t with view, errand }

theorem change_step {t : Tandem} (h : t.view.Stage t.own t.errand) (m : Move) :
    t.Change (t.step m) := by
  cases m with
  | parent r => exact .parent r
  | fire =>
      rw [step]
      split
      · rename_i hfilled
        exact .fire hfilled
      · exact .still
  | deliver =>
      rw [step]
      split
      · exact .still
      · rename_i e rest hnext
        exact .deliver hnext
  | sense =>
      rw [step]
      split
      · rename_i hfree
        split
        · rename_i hfired
          rw [Bool.and_eq_true] at hfired
          rw [hfree] at h
          exact .sense hfree hfired.1 (View.reaction_parentReady h.of_nothing.1)
        · exact .still
      · exact .still
  | refilter filter =>
      rw [step]
      split
      · rename_i hfree
        rw [hfree] at h
        exact .refilter hfree (View.reaction_refilter h.of_nothing.1 filter)
      · exact .still
  | take =>
      rw [step]
      split
      · rename_i feed e hfree hpoll
        rw [hfree] at h
        unfold Feed.poll at hpoll
        split at hpoll
        · rename_i rest hnext
          cases hpoll
          exact .take hfree hnext (View.reaction_event h.of_nothing.1 e)
        · rw [Prod.mk.injEq] at hpoll
          split at hpoll
          · cases hpoll.2
          · cases hpoll.2
      · exact .still
  | read =>
      rw [step]
      split
      · rename_i hasked
        exact .read hasked
      · exact .still
  | serve =>
      rw [step]
      split
      · rename_i r hasked
        exact .serve hasked
      · exact .still
  | hear =>
      rw [step]
      split
      · rename_i list htold
        rw [htold] at h
        obtain ⟨job, phase, -⟩ := h.of_contents
        exact .contents htold (View.reaction_contents phase list)
      · rename_i events htold
        rw [htold] at h
        exact .applied htold (View.reaction_applied h)
      · exact .still

/-- **The view and its own store stay in one of the stages**, whatever happens. -/
theorem Change.stage {t t' : Tandem} (hc : t.Change t') (h : t.view.Stage t.own t.errand) :
    t'.view.Stage t'.own t'.errand := by
  cases hc with
  | still => exact h
  | parent r => exact h
  | fire filled => exact h
  | deliver next => exact h
  | sense free fired reaction =>
      rw [free] at h
      exact reaction.stage_of_nothing h
  | refilter free reaction =>
      rw [free] at h
      exact reaction.stage_of_nothing h
  | take free next reaction =>
      rw [free] at h
      exact reaction.stage_of_nothing h
  | read asked =>
      rw [asked] at h
      cases h with
      | reading phase inStep parent apt => exact .read _ phase inStep parent apt
  | serve asked =>
      rw [asked] at h
      exact View.stage_serve h
  | contents told reaction =>
      rw [told] at h
      exact reaction.stage_of_contents h
  | applied told reaction =>
      rw [told] at h
      exact reaction.stage_of_answered h

end Tandem

end Replica
