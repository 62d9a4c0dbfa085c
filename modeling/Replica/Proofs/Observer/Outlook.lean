import Replica.Feed
import Replica.Observer
import Replica.Proofs.Store.Diff

/-! # An observer and what it observes

An `Outlook` is an observer with all that it works on: the store that it observes, the events of the
store that have not reached the observer's feed, the feed, the contents that were read for the observer,
and the calls of its handler.  A `Move` is what can happen next.  The subscription comes first, then
readiness, then the contents, then the events; the store goes its own way all the time.

Two fields are there for the statements only: `backlog` remembers which events were on their way when the
contents were read, and `lost` those that came when nobody read the feed any more.

`Change` says what the moves do (`change_step`), and `Course` how far an observer can have come
(`Change.course`): it is never ahead of readiness, and its handler gets the contents once and first. -/

namespace Replica

/-- An observer with what it observes. -/
structure Outlook where
  store : Store
  /-- Whether the store was told to be ready. -/
  isFired : Bool
  /-- The events of the store that have not reached the observer's feed. -/
  inFlight : List Event
  feed : Feed Event
  phase : Observer.Phase
  /-- The contents that were read for the observer, until it gets them. -/
  answer : Option (List Object)
  calls : List Call
  /-- The events that were on their way when the contents were read. -/
  backlog : List Event
  /-- The events that came after the observer had left its feed. -/
  lost : List Event

namespace Outlook

/-- What can happen. -/
inductive Move where
  /-- A request is made of the store. -/
  | publish (r : Request)
  /-- The store is told to be ready, if it has contents. -/
  | fire
  /-- The oldest event in flight is offered to the feed. -/
  | deliver
  /-- The observer learns that the store is ready. -/
  | sense
  /-- The store is read for the observer. -/
  | read
  /-- The observer gets the contents. -/
  | hear
  /-- The observer takes the next event of its feed. -/
  | take
  /-- The observer is stopped. -/
  | cancel
  /-- The observer learns that its subscription has ended. -/
  | ended
  /-- The observer learns that nobody reads the store for it any more. -/
  | refuse

/-- Does what the observer wants done. -/
def act (o : Outlook) : Observer.Action → Outlook
  | .read => o
  | .call c => { o with calls := o.calls ++ [c] }
  | .finish => { o with feed := o.feed.abandon, answer := none }

/-- The observer is told something. -/
def tell (o : Outlook) (i : Observer.Input) : Outlook :=
  (Observer.step o.phase i).2.foldl act { o with phase := (Observer.step o.phase i).1 }

/-- The events on their way to the observer, the oldest first. -/
def queue (o : Outlook) : List Event := o.feed.items ++ o.inFlight

/-- One move; a move that is not possible changes nothing. -/
def step (o : Outlook) : Move → Outlook
  | .publish r =>
    { o with
      store := (r.run o.store).1
      inFlight := o.inFlight ++ (r.run o.store).2.eventList }
  | .fire => if o.store.items.isSome then { o with isFired := true } else o
  | .deliver =>
    match o.inFlight with
    | [] => o
    | e :: rest =>
      { o with
        inFlight := rest
        feed := (o.feed.offer e).1
        lost := if (o.feed.offer e).2 = .refused then o.lost ++ [e] else o.lost }
  | .sense => if o.isFired then o.tell .ready else o
  | .read =>
    match o.phase, o.answer with
    | .reading, none =>
      { o with answer := some (Request.contents.run o.store).2.objectList, backlog := o.queue }
    | _, _ => o
  | .hear =>
    match o.answer with
    | some list => { o with answer := none }.tell (.contents list)
    | none => o
  | .take =>
    match o.phase, o.feed.poll with
    | .dispatching, (feed, .item e) => { o with feed }.tell (.event e)
    | _, _ => o
  | .cancel => o.tell .cancel
  | .ended => o.tell .ended
  | .refuse => o.tell .refused

/-- Several moves in order. -/
def after (o : Outlook) (moves : List Move) : Outlook := moves.foldl step o

/-- A new observer of a store that has a history; the first `n` events of it are gone. -/
def start (filter : Filter) (history : List Request) (n capacity : Nat) : Outlook where
  store := (Store.new filter).after history
  isFired := false
  inFlight := ((Store.new filter).emitted history).drop n
  feed := .new capacity
  phase := .waiting
  answer := none
  calls := []
  backlog := []
  lost := []

/-- No event has been lost on its way to the observer: the feed had room for all of them, and the
observer was there to read them. -/
def IsLossless (o : Outlook) : Prop := o.feed.dropped = 0 ∧ o.lost = []

instance (o : Outlook) : Decidable o.IsLossless := inferInstanceAs (Decidable (_ ∧ _))

/-! ### What the moves do -/

/-- What a move does, if anything. -/
inductive Change (o : Outlook) : Outlook → Prop
  | still : Change o o
  | publish (r : Request) :
      Change o { o with
        store := (r.run o.store).1
        inFlight := o.inFlight ++ (r.run o.store).2.eventList }
  | fire (filled : o.store.items.isSome = true) : Change o { o with isFired := true }
  | deliver {e : Event} {rest : List Event} (next : o.inFlight = e :: rest) :
      Change o { o with
        inFlight := rest
        feed := (o.feed.offer e).1
        lost := if (o.feed.offer e).2 = .refused then o.lost ++ [e] else o.lost }
  | sense (waiting : o.phase = .waiting) (fired : o.isFired = true) :
      Change o { o with phase := .reading }
  | read (asked : o.phase = .reading) (free : o.answer = none) :
      Change o { o with answer := some o.store.list, backlog := o.queue }
  | hear {list : List Object} (asked : o.phase = .reading) (told : o.answer = some list) :
      Change o { o with
        phase := .dispatching, answer := none, calls := o.calls ++ [.contents list] }
  | take {e : Event} {rest : List Event} (free : o.phase = .dispatching)
      (next : o.feed.items = e :: rest) :
      Change o { o with feed := { o.feed with items := rest }, calls := o.calls ++ [.event e] }
  | leave : Change o { o with phase := .stopped, feed := o.feed.abandon, answer := none }

theorem tell_of_ignored {o : Outlook} {i : Observer.Input}
    (h : Observer.step o.phase i = (o.phase, [])) : o.tell i = o := by
  rw [tell, h]
  rfl

theorem tell_of_finish {o : Outlook} {i : Observer.Input}
    (h : Observer.step o.phase i = (.stopped, [.finish])) :
    o.tell i = { o with phase := .stopped, feed := o.feed.abandon, answer := none } := by
  rw [tell, h]
  rfl

theorem change_tell_of_end (o : Outlook) {i : Observer.Input}
    (h : i = .cancel ∨ i = .ended ∨ i = .refused) : o.Change (o.tell i) := by
  by_cases hfinish : Observer.step o.phase i = (.stopped, [.finish])
  · rw [tell_of_finish hfinish]
    exact .leave
  · have hignored : Observer.step o.phase i = (o.phase, []) := by
      rcases h with rfl | rfl | rfl <;> cases hp : o.phase <;> rw [hp] at hfinish <;>
        first | rfl | exact absurd rfl hfinish
    rw [tell_of_ignored hignored]
    exact .still

/-- Every move is one of the changes, as long as only an observer that reads has an answer. -/
theorem change_step {o : Outlook} (h : o.answer ≠ none → o.phase = .reading) (m : Move) :
    o.Change (o.step m) := by
  cases m with
  | publish r => exact .publish r
  | fire =>
      rw [step]
      split
      · rename_i hfilled
        exact .fire hfilled
      · exact .still
  | deliver =>
      rw [step]
      split
      · exact .still
      · rename_i e rest hnext
        exact .deliver hnext
  | sense =>
      rw [step]
      split
      · rename_i hfired
        by_cases hwaiting : o.phase = .waiting
        · have htell : o.tell .ready = { o with phase := .reading } := by
            rw [tell, hwaiting]
            rfl
          rw [htell]
          exact .sense hwaiting hfired
        · have hignored : Observer.step o.phase .ready = (o.phase, []) := by
            cases hp : o.phase <;> first | rfl | exact absurd hp hwaiting
          rw [tell_of_ignored hignored]
          exact .still
      · exact .still
  | read =>
      rw [step]
      split
      · rename_i hasked hfree
        exact .read hasked hfree
      · exact .still
  | hear =>
      rw [step]
      split
      · rename_i list htold
        have hasked : o.phase = .reading := h (by simp [htold])
        have htell : { o with answer := none }.tell (.contents list) =
            { o with
              phase := .dispatching, answer := none, calls := o.calls ++ [.contents list] } := by
          simp only [tell, hasked]
          rfl
        rw [htell]
        exact .hear hasked htold
      · exact .still
  | take =>
      rw [step]
      split
      · rename_i feed e hfree hpoll
        have htell : { o with feed }.tell (.event e) =
            { o with feed, calls := o.calls ++ [.event e] } := by
          simp only [tell, hfree]
          rfl
        rw [htell]
        unfold Feed.poll at hpoll
        split at hpoll
        · rename_i rest hnext
          cases hpoll
          exact .take hfree hnext
        · rw [Prod.mk.injEq] at hpoll
          split at hpoll
          · cases hpoll.2
          · cases hpoll.2
      · exact .still
  | cancel => exact o.change_tell_of_end (.inl rfl)
  | ended => exact o.change_tell_of_end (.inr (.inl rfl))
  | refuse => exact o.change_tell_of_end (.inr (.inr rfl))

/-! ### How far an observer has come -/

/-- The calls of a handler that got contents, and then events. -/
def Told (calls : List Call) : Prop := ∃ list, ∃ es : List Event, calls = .contents list :: es.map .event

/-- How far an observer has come. -/
inductive Course (o : Outlook) : Prop
  | waiting (phase : o.phase = .waiting) (answer : o.answer = none) (calls : o.calls = [])
  | reading (phase : o.phase = .reading) (fired : o.isFired = true) (calls : o.calls = [])
  | dispatching (phase : o.phase = .dispatching) (fired : o.isFired = true)
      (answer : o.answer = none) (calls : Told o.calls)
  | stopped (phase : o.phase = .stopped) (answer : o.answer = none)
      (calls : o.calls = [] ∨ o.isFired = true ∧ Told o.calls)

namespace Course

variable {o : Outlook}

theorem reading_of_answer (h : o.Course) (hanswer : o.answer ≠ none) : o.phase = .reading := by
  cases h with
  | reading phase => exact phase
  | waiting _ answer | dispatching _ _ answer | stopped _ answer => exact absurd answer hanswer

/-- **The contents come once, before anything else and not before readiness.** -/
theorem calls_cases (h : o.Course) : o.calls = [] ∨ o.isFired = true ∧ Told o.calls := by
  cases h with
  | waiting _ _ calls | reading _ _ calls => exact .inl calls
  | dispatching _ fired _ calls => exact .inr ⟨fired, calls⟩
  | stopped _ _ calls => exact calls

theorem calls_of_waiting (h : o.Course) (hphase : o.phase = .waiting) : o.calls = [] := by
  cases h with
  | waiting _ _ calls => exact calls
  | reading phase | dispatching phase | stopped phase => rw [phase] at hphase; cases hphase

theorem fired_of_reading (h : o.Course) (hphase : o.phase = .reading) : o.isFired = true := by
  cases h with
  | reading _ fired => exact fired
  | waiting phase | dispatching phase | stopped phase => rw [phase] at hphase; cases hphase

theorem calls_of_reading (h : o.Course) (hphase : o.phase = .reading) : o.calls = [] := by
  cases h with
  | reading _ _ calls => exact calls
  | waiting phase | dispatching phase | stopped phase => rw [phase] at hphase; cases hphase

theorem told_of_dispatching (h : o.Course) (hphase : o.phase = .dispatching) :
    o.isFired = true ∧ o.answer = none ∧ Told o.calls := by
  cases h with
  | dispatching _ fired answer calls => exact ⟨fired, answer, calls⟩
  | waiting phase | reading phase | stopped phase => rw [phase] at hphase; cases hphase

theorem of_same {o' : Outlook} (h : o.Course) (phase : o'.phase = o.phase)
    (fired : o.isFired = true → o'.isFired = true)
    (answer : o.phase ≠ .reading → o'.answer = o.answer) (calls : o'.calls = o.calls) :
    o'.Course := by
  cases h with
  | waiting p a c =>
      exact .waiting (phase.trans p) ((answer (by simp [p])).trans a) (calls.trans c)
  | reading p f c => exact .reading (phase.trans p) (fired f) (calls.trans c)
  | dispatching p f a c =>
      exact .dispatching (phase.trans p) (fired f) ((answer (by simp [p])).trans a) (calls ▸ c)
  | stopped p a c =>
      exact .stopped (phase.trans p) ((answer (by simp [p])).trans a)
        (calls ▸ c.imp_right (.imp_left fired))

end Course

/-- **Every change keeps to the course.** -/
theorem Change.course {o o' : Outlook} (hc : o.Change o') (h : o.Course) : o'.Course := by
  cases hc with
  | still => exact h
  | publish | deliver => exact h.of_same rfl id (fun _ => rfl) rfl
  | fire filled => exact h.of_same rfl (fun _ => rfl) (fun _ => rfl) rfl
  | sense waiting fired => exact .reading rfl fired (h.calls_of_waiting waiting)
  | read asked free => exact h.of_same rfl id (absurd asked) rfl
  | @hear list asked told =>
      refine .dispatching rfl (h.fired_of_reading asked) rfl ⟨list, [], ?_⟩
      rw [h.calls_of_reading asked]
      rfl
  | @take e rest free next =>
      obtain ⟨fired, answer, list, es, hcalls⟩ := h.told_of_dispatching free
      refine .dispatching free fired answer ⟨list, es ++ [e], ?_⟩
      simp [hcalls]
  | leave => exact .stopped rfl rfl h.calls_cases

end Outlook

end Replica
