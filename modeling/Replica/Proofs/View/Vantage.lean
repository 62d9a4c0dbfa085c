import Replica.Proofs.View.Stage

/-! # A view with its own store, and what is seen of it

A `Vantage` is a view with its own store, in surroundings of which nothing is assumed: the parent can be
ready at any time, filters are asked for and events come in any order, and what is read of the parent is
any list of objects.  A `Move` is what can happen next; each answer comes at some later move.

What is seen of a view are `View.Mark`s: that it is done with the parent's being ready or with a change of
filter, which it is when it is idle again, and the events that it offers.  `Change` says what a move of a
view that runs on does, and `change_turn` finds it; every change leads from one of the stages to one of
them (`Change.stage`). -/

namespace Replica

namespace View

/-- What is seen of a view. -/
inductive Mark where
  /-- The view is done with its parent's being ready. -/
  | sensed
  /-- The view is done with a change of filter. -/
  | refiltered (filter : Filter)
  /-- An event was offered to the consumer. -/
  | offered (e : Event)

namespace Mark

/-- The event that is offered. -/
def offered? : Mark → Option Event
  | .offered e => some e
  | _ => none

/-- The filter after a mark. -/
def pick (current : Filter) : Mark → Filter
  | .refiltered filter => filter
  | _ => current

/-- The last filter that a view was done with, `filter` being the one that it began with. -/
def lastFilter (filter : Filter) (t : List Mark) : Filter := t.foldl pick filter

/-- Whether the view was done with some change of filter. -/
def WasRefiltered (t : List Mark) : Prop := ∃ filter, .refiltered filter ∈ t

/-- The events that were offered. -/
def offers (t : List Mark) : List Event := t.filterMap offered?

variable {t u : List Mark}

theorem lastFilter_append (filter : Filter) (t u : List Mark) :
    lastFilter filter (t ++ u) = lastFilter (lastFilter filter t) u := List.foldl_append

theorem wasRefiltered_append : WasRefiltered (t ++ u) ↔ WasRefiltered t ∨ WasRefiltered u := by
  simp [WasRefiltered, exists_or]

theorem offers_append : offers (t ++ u) = offers t ++ offers u := List.filterMap_append

end Mark

/-- Whether the view waits for something to do. -/
def isIdle (v : View) : Bool :=
  match v.phase with
  | .idle => true
  | _ => false

/-- Whether the view has not begun to stop. -/
def isRunning (v : View) : Bool :=
  match v.phase with
  | .stopping | .stopped => false
  | _ => true

/-- The job for which the parent's contents are taken over. -/
def job? (v : View) : Option Job :=
  match v.phase with
  | .reading job | .applying job => some job
  | _ => none

/-- What the view is about when it is told something. -/
def business? (v : View) (i : Input) : Option Mark :=
  match v.phase, i with
  | .idle, .parentReady => some .sensed
  | .idle, .refilter filter => some (.refiltered filter)
  | .applying .seed, .applied _ => some .sensed
  | .applying (.refilter filter _), .applied _ => some (.refiltered filter)
  | .noting filter, .applied _ => some (.refiltered filter)
  | _, _ => none

/-- The events that are offered. -/
def Action.offers : Action → List Event
  | .offer events => events
  | _ => []

/-- What is seen when the view is told something: the events that it offers, and what it is done with. -/
def marks (v : View) (i : Input) : List Mark :=
  ((v.step i).2.flatMap Action.offers).map .offered ++
    if (v.step i).1.isIdle then (v.business? i).toList else []

end View

/-- A view with its own store, and what is under way. -/
structure Vantage where
  view : View
  own : Store
  errand : Errand

namespace Vantage

open View.Mark

/-- What can happen. -/
inductive Move where
  /-- The view is told something by its surroundings. -/
  | tell (i : View.Input)
  /-- The own store does what it is asked for. -/
  | serve
  /-- The view gets the answer of its own store. -/
  | hear

/-- Whether the surroundings can tell a view something.  It learns once that the parent is ready, it gets
the parent's contents when it has asked for them, and a store can only refuse what it was asked for. -/
def canHear (p : Vantage) (i : View.Input) : Bool :=
  match p.errand, i with
  | .nothing, .parentReady => !p.view.parentReady
  | .nothing, .refilter _ | .nothing, .event _ | .nothing, .cancel | .nothing, .parentEnded => true
  | .reading, .contents _ => true
  | .reading, .refused | .asked _, .refused | .answered _, .refused => true
  | _, _ => false

/-- The view is told something; with what is seen of that. -/
def tell (p : Vantage) (i : View.Input) : Vantage × List View.Mark :=
  ({ p with view := (p.view.step i).1, errand := .ofActions (p.view.step i).2 }, p.view.marks i)

/-- A move, with what is seen of it; a move that is not possible changes nothing. -/
def turn (p : Vantage) : Move → Vantage × List View.Mark
  | .tell i => if p.canHear i then p.tell i else (p, [])
  | .serve =>
    match p.errand with
    | .asked r => ({ p with own := (r.run p.own).1, errand := .answered (r.run p.own).2.eventList }, [])
    | _ => (p, [])
  | .hear =>
    match p.errand with
    | .answered events => p.tell (.applied events)
    | _ => (p, [])

/-- What a move does. -/
def step (p : Vantage) (m : Move) : Vantage := (p.turn m).1

/-- What is seen of a move. -/
def marks (p : Vantage) (m : Move) : List View.Mark := (p.turn m).2

/-- Several moves in order. -/
def after (p : Vantage) (moves : List Move) : Vantage := moves.foldl step p

/-- What is seen of several moves. -/
def trace (p : Vantage) : List Move → List View.Mark
  | [] => []
  | m :: moves => p.marks m ++ (p.step m).trace moves

/-- A new view. -/
def start (filter : Filter) (deferred : Bool) : Vantage := ⟨.new filter deferred, .new filter, .nothing⟩

/-! ### What the moves do -/

/-- What a move does while the view runs on. -/
inductive Change (p : Vantage) : Vantage → List View.Mark → Prop
  | still : Change p p []
  | sense {view : View} {errand : Errand} (free : p.errand = .nothing)
      (first : p.view.parentReady = false) (reaction : p.view.Reaction .parentReady view errand) :
      Change p { p with view, errand } (p.view.marks .parentReady)
  | refilter {filter : Filter} {view : View} {errand : Errand} (free : p.errand = .nothing)
      (reaction : p.view.Reaction (.refilter filter) view errand) :
      Change p { p with view, errand } (p.view.marks (.refilter filter))
  | event {e : Event} {view : View} {errand : Errand} (free : p.errand = .nothing)
      (reaction : p.view.Reaction (.event e) view errand) :
      Change p { p with view, errand } (p.view.marks (.event e))
  | contents {list : List Object} {view : View} {errand : Errand} (asked : p.errand = .reading)
      (reaction : p.view.Reaction (.contents list) view errand) :
      Change p { p with view, errand } (p.view.marks (.contents list))
  | serve {r : Request} (asked : p.errand = .asked r) :
      Change p { p with own := (r.run p.own).1, errand := .answered (r.run p.own).2.eventList } []
  | applied {events : List Event} {view : View} {errand : Errand} (told : p.errand = .answered events)
      (reaction : p.view.Reaction (.applied events) view errand) :
      Change p { p with view, errand } (p.view.marks (.applied events))

variable {p : Vantage} {m : Move}

theorem isRunning_of_tell {i : View.Input} (h : (p.tell i).1.view.isRunning = true) :
    p.view.isRunning = true := by
  cases hp : p.view.phase <;> cases i <;> simp_all [tell, View.isRunning, View.step]

theorem isRunning_of_step (h : (p.step m).view.isRunning = true) : p.view.isRunning = true := by
  cases m with
  | tell i =>
      rw [step, turn] at h
      split at h
      · exact isRunning_of_tell h
      · exact h
  | serve =>
      rw [step, turn] at h
      split at h <;> exact h
  | hear =>
      rw [step, turn] at h
      split at h
      · exact isRunning_of_tell h
      · exact h

theorem change_tell (h : p.view.Stage p.own p.errand) {i : View.Input} (hi : p.canHear i = true)
    (hr : (p.tell i).1.view.isRunning = true) : p.Change (p.tell i).1 (p.tell i).2 := by
  -- what stops the view is not heard by a view that runs on
  have hruns : p.view.step i ≠ p.view.stop := by
    intro hstop
    rw [tell, hstop] at hr
    cases hr
  unfold canHear at hi
  split at hi
  · rename_i free
    rw [free] at h
    exact .sense free (by simpa using hi) (View.reaction_parentReady h.of_nothing.1)
  · rename_i filter free
    rw [free] at h
    exact .refilter free (View.reaction_refilter h.of_nothing.1 filter)
  · rename_i e free
    rw [free] at h
    exact .event free (View.reaction_event h.of_nothing.1 e)
  · rename_i free
    rw [free] at h
    exact absurd (by simp only [View.step, h.of_nothing.1]) hruns
  · rename_i free
    rw [free] at h
    exact absurd (by simp only [View.step, h.of_nothing.1]) hruns
  · rename_i list asked
    rw [asked] at h
    cases h with
    | reading phase => exact .contents asked (View.reaction_contents phase list)
  · rename_i asked
    exact absurd (h.step_refused (by simp [asked])) hruns
  · rename_i asked
    exact absurd (h.step_refused (by simp [asked])) hruns
  · rename_i told
    exact absurd (h.step_refused (by simp [told])) hruns
  · cases hi

/-- Every move of a view that runs on is one of the changes. -/
theorem change_turn (h : p.view.Stage p.own p.errand) (hr : (p.step m).view.isRunning = true) :
    p.Change (p.step m) (p.marks m) := by
  unfold step marks at *
  cases m with
  | tell i =>
      rw [turn] at hr ⊢
      split at hr
      · rename_i hi
        rw [if_pos hi]
        exact change_tell h hi hr
      · rename_i hi
        rw [if_neg hi]
        exact .still
  | serve =>
      rw [turn]
      split
      · rename_i r asked
        exact .serve asked
      · exact .still
  | hear =>
      rw [turn]
      split
      · rename_i events told
        rw [told] at h
        exact .applied told (View.reaction_applied h)
      · exact .still

/-- **The view and its own store stay in one of the stages**, as long as the view runs. -/
theorem Change.stage {p' : Vantage} {marks : List View.Mark} (hc : p.Change p' marks)
    (h : p.view.Stage p.own p.errand) : p'.view.Stage p'.own p'.errand := by
  cases hc with
  | still => exact h
  | sense free _ reaction | refilter free reaction | event free reaction =>
      rw [free] at h
      exact reaction.stage_of_nothing h
  | contents asked reaction =>
      rw [asked] at h
      cases h with
      | reading phase inStep parent apt =>
          exact reaction.stage_of_contents (.read _ phase inStep parent apt)
  | serve asked =>
      rw [asked] at h
      exact View.stage_serve h
  | applied told reaction =>
      rw [told] at h
      exact reaction.stage_of_answered h

end Vantage

end Replica
