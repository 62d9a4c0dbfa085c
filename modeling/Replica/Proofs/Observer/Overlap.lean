import Replica.Proofs.Feed
import Replica.Proofs.Observer.History
import Replica.Proofs.Observer.Outlook

/-! # Contents and the events on their way to an observer

An observer subscribes before it reads the contents.  Some of the events that it gets were on their way
at that time, and what they tell is in the contents already; the others come after the contents.
`Overlap` says it precisely: what the handler is told and what it has not been told yet is the backlog
followed by fresh events, where the backlog leads each slot to what was read, and the fresh events lead it
from there to what it is now.

* `Sound` is the invariant of an outlook, kept by every change (`sound_change`).
* `Sound.isHistory_iff`: the calls are a history exactly if, under each key, the first event of the
  backlog that the handler was told fits the contents. -/

namespace Replica

namespace Outlook

open Slot

/-- The events that the handler was told. -/
def told (o : Outlook) : List Event := o.calls.filterMap Call.event?

/-- The events that the handler was not told, the oldest first. -/
def due (o : Outlook) : List Event := o.feed.items ++ o.lost ++ o.inFlight

/-- The events of the backlog that the handler was told. -/
def overlap (o : Outlook) : List Event := o.backlog.take o.told.length

/-- The contents that were read for the observer. -/
inductive Knows (o : Outlook) (list : List Object) : Prop
  | answered (answer : o.answer = some list)
  | called (first : o.calls.head? = some (.contents list))

/-- The contents `list` have `slots` in them, the backlog has led to these, and `fresh` are the events
since then. -/
structure Overlap (o : Outlook) (list : List Object) (slots : Key → Option Entry)
    (fresh : List Event) : Prop where
  contents : Mirror.ofList list = Mirror.ofSlots slots
  filed : ∀ k x, slots k = some x → x.FiledAt k
  row : o.told ++ o.due = o.backlog ++ fresh
  old : ∀ k, ∃ s, Path s (eventsOf k o.backlog) (slots k)
  new : ∀ k, Path (slots k) (eventsOf k fresh) (o.store.slot k)

/-- The invariant of an outlook: both ends of the feed are there until the observer stops, the
observer keeps to its course, readiness and events are those of a store with contents, and as long as no
event was dropped, what is due leads to the store, and contents that were read overlap with the
events. -/
structure Sound (o : Outlook) : Prop where
  isRead : o.phase ≠ .stopped → o.feed.isAbandoned = false
  isWritten : o.feed.isSealed = false
  lost : o.feed.isAbandoned = false → o.lost = []
  course : o.Course
  filed : o.store.Filed
  fired : o.isFired = true → o.store.items.isSome = true
  silent : o.store.items = none → o.due = []
  path : o.feed.dropped = 0 → ∀ k, ∃ s, Path s (eventsOf k o.due) (o.store.slot k)
  overlap : o.feed.dropped = 0 → ∀ list, o.Knows list → ∃ slots fresh, o.Overlap list slots fresh

variable {o o' : Outlook} {list : List Object} {slots : Key → Option Entry} {fresh : List Event}

theorem told_eq {es : List Event} (h : o.calls = .contents list :: es.map .event) : o.told = es := by
  rw [told, h, List.filterMap_cons, List.filterMap_map]
  exact List.filterMap_some

theorem Course.fired_of_knows (h : o.Course) (hknows : o.Knows list) : o.isFired = true := by
  cases hknows with
  | answered answer =>
      exact h.fired_of_reading (h.reading_of_answer (by simp [answer]))
  | called first =>
      rcases h.calls_cases with hnil | ⟨hfired, -⟩
      · simp [hnil] at first
      · exact hfired

/-! ### Changes -/

theorem Knows.of_same (h : o'.Knows list) (answer : o'.answer = o.answer)
    (calls : o'.calls = o.calls) : o.Knows list := by
  cases h with
  | answered hanswer => exact .answered (answer ▸ hanswer)
  | called first => exact .called (calls ▸ first)

/-- From `o` to `o'` nothing happens to the store, nothing is read, and what is not due any more has been
told. -/
structure Carries (o o' : Outlook) : Prop where
  store : o'.store = o.store
  backlog : o'.backlog = o.backlog
  dropped : o'.feed.dropped = 0 → o.feed.dropped = 0
  passed : o'.feed.dropped = 0 → ∃ es, o.due = es ++ o'.due ∧ o'.told = o.told ++ es
  silent : o.due = [] → o'.due = []
  knows : ∀ list, o'.Knows list → o.Knows list

theorem Carries.of_same (store : o'.store = o.store) (backlog : o'.backlog = o.backlog)
    (dropped : o'.feed.dropped = o.feed.dropped) (due : o'.due = o.due) (told : o'.told = o.told)
    (knows : ∀ list, o'.Knows list → o.Knows list) : o.Carries o' where
  store := store
  backlog := backlog
  dropped := fun h => dropped ▸ h
  passed := fun _ => ⟨[], by rw [due, List.nil_append], by rw [told, List.append_nil]⟩
  silent := fun h => due.trans h
  knows := knows

theorem Sound.carry (h : o.Sound) (hc : o.Carries o') (course : o'.Course)
    (fired : o'.isFired = true → o.store.items.isSome = true)
    (isRead : o'.phase ≠ .stopped → o'.feed.isAbandoned = false)
    (isWritten : o'.feed.isSealed = false)
    (lost : o'.feed.isAbandoned = false → o'.lost = []) : o'.Sound where
  isRead := isRead
  isWritten := isWritten
  lost := lost
  course := course
  filed := hc.store ▸ h.filed
  fired := hc.store ▸ fired
  silent := fun hnone => hc.silent (h.silent (hc.store ▸ hnone))
  path := by
    intro hdropped k
    obtain ⟨es, hdue, -⟩ := hc.passed hdropped
    obtain ⟨s, hpath⟩ := h.path (hc.dropped hdropped) k
    rw [hdue, eventsOf_append] at hpath
    obtain ⟨t, -, hrest⟩ := hpath.split
    exact ⟨t, hc.store ▸ hrest⟩
  overlap := by
    intro hdropped list hknows
    obtain ⟨es, hdue, htold⟩ := hc.passed hdropped
    obtain ⟨slots, fresh, hover⟩ := h.overlap (hc.dropped hdropped) list (hc.knows list hknows)
    refine ⟨slots, fresh, hover.contents, hover.filed, ?_, hc.backlog ▸ hover.old,
      hc.store ▸ hover.new⟩
    rw [hc.backlog, htold, List.append_assoc, ← hdue]
    exact hover.row

theorem Sound.publish (h : o.Sound) (r : Request) :
    Sound { o with
      store := (r.run o.store).1
      inFlight := o.inFlight ++ (r.run o.store).2.eventList } := by
  have hdue : due { o with
      store := (r.run o.store).1
      inFlight := o.inFlight ++ (r.run o.store).2.eventList } =
      o.due ++ (r.run o.store).2.eventList := by
    simp [due]
  constructor
  case isRead => exact h.isRead
  case isWritten => exact h.isWritten
  case lost => exact h.lost
  case course => exact h.course.of_same rfl id (fun _ => rfl) rfl
  case filed => exact Store.filed_run h.filed r
  case fired => exact fun hfired => Store.isSome_items_run (h.fired hfired) r
  case silent =>
    intro hnone
    obtain ⟨hold, hsilent⟩ := Store.silent_of_items_run hnone
    rw [hdue, h.silent hold, hsilent]
    rfl
  case path =>
    intro hdropped k
    obtain ⟨slot, hslot, hrun⟩ := Store.exists_path_run h.filed r k
    rw [hdue, eventsOf_append]
    cases hi : o.store.items with
    | none =>
        rw [h.silent hi]
        exact ⟨slot, hrun⟩
    | some items =>
        obtain ⟨s, hpath⟩ := h.path hdropped k
        rw [hslot (by simp [hi])] at hrun
        exact ⟨s, hpath.append hrun⟩
  case overlap =>
    intro hdropped list hknows
    have hknew : o.Knows list := hknows.of_same rfl rfl
    have hfilled := h.fired (h.course.fired_of_knows hknew)
    obtain ⟨slots, fresh, hover⟩ := h.overlap hdropped list hknew
    refine ⟨slots, fresh ++ (r.run o.store).2.eventList, hover.contents, hover.filed, ?_, hover.old, ?_⟩
    · rw [hdue, ← List.append_assoc, ← List.append_assoc, ← hover.row]
      rfl
    · intro k
      rw [eventsOf_append]
      exact (hover.new k).append (Store.path_run h.filed hfilled r k)

theorem Sound.deliver (h : o.Sound) {e : Event} {rest : List Event}
    (next : o.inFlight = e :: rest) :
    Sound { o with
      inFlight := rest
      feed := (o.feed.offer e).1
      lost := if (o.feed.offer e).2 = .refused then o.lost ++ [e] else o.lost } := by
  obtain ⟨hab, hcl⟩ := o.feed.flags_offer e
  have hdue : (o.feed.offer e).1.dropped = 0 → due { o with
      inFlight := rest
      feed := (o.feed.offer e).1
      lost := if (o.feed.offer e).2 = .refused then o.lost ++ [e] else o.lost } = o.due := by
    intro hdropped
    cases hread : o.feed.isAbandoned with
    | false =>
        have hitems := Feed.items_offer_of_dropped hread h.isWritten hdropped
        have htaken : (o.feed.offer e).2 ≠ .refused := by
          intro hrefused
          rw [Feed.items_offer, hrefused, if_neg (by simp)] at hitems
          simp at hitems
        simp [due, hitems, htaken, next, h.lost hread]
    | true =>
        have hoffer : o.feed.offer e = (o.feed, .refused) := by
          simp [Feed.offer, Feed.push, hread]
        simp [due, hoffer, next]
  have hcarries : o.Carries { o with
      inFlight := rest
      feed := (o.feed.offer e).1
      lost := if (o.feed.offer e).2 = .refused then o.lost ++ [e] else o.lost } := by
    refine ⟨rfl, rfl, ?_, ?_, ?_, fun list hknows => hknows.of_same rfl rfl⟩
    · intro hdropped
      have := o.feed.dropped_offer e
      rw [hdropped] at this
      omega
    · exact fun hdropped => ⟨[], (hdue hdropped).symm, (List.append_nil _).symm⟩
    · intro hnil
      simp [due, next] at hnil
  refine h.carry hcarries (h.course.of_same rfl id (fun _ => rfl) rfl) h.fired
    (fun hphase => hab.trans (h.isRead hphase)) (hcl.trans h.isWritten) ?_
  intro hread
  rw [hab] at hread
  have hrefused : (o.feed.offer e).2 ≠ .refused := by
    cases hroom : o.feed.hasRoom <;> simp [Feed.offer, Feed.push, hread, h.isWritten, hroom]
  exact (if_neg hrefused).trans (h.lost hread)

/-- The contents are read: what is due is the backlog now, and nothing is fresh. -/
theorem Sound.read (h : o.Sound) (asked : o.phase = .reading) :
    Sound { o with answer := some o.store.list, backlog := o.queue } := by
  have hlost : o.lost = [] := h.lost (h.isRead (by simp [asked]))
  have hdue : o.queue = o.due := by simp [queue, due, hlost]
  refine ⟨h.isRead, h.isWritten, h.lost, h.course.of_same rfl id (absurd asked) rfl, h.filed, h.fired,
    h.silent, h.path, ?_⟩
  intro hdropped list hknows
  cases hknows with
  | answered answer =>
      obtain rfl : o.store.list = list := Option.some.inj answer
      refine ⟨o.store.slot, [], ?_, fun k x => h.filed (k := k) (e := x), ?_, ?_, fun k => .nil _⟩
      · rw [Store.ofList_list h.filed, Store.get?_eq_ofSlots]
      · show o.told ++ o.due = o.queue ++ []
        rw [told, h.course.calls_of_reading asked, hdue, List.append_nil]
        rfl
      · show ∀ k, ∃ s, Path s (eventsOf k o.queue) (o.store.slot k)
        rw [hdue]
        exact h.path hdropped
  | called first => simp [h.course.calls_of_reading asked] at first

theorem Sound.hear (h : o.Sound) {list : List Object} (asked : o.phase = .reading)
    (answered : o.answer = some list) :
    Sound { o with
      phase := .dispatching, answer := none, calls := o.calls ++ [.contents list] } := by
  have hcalls := h.course.calls_of_reading asked
  have hcarries : o.Carries { o with
      phase := .dispatching, answer := none, calls := o.calls ++ [.contents list] } := by
    refine .of_same rfl rfl rfl rfl ?_ fun list' hknows => ?_
    · simp [told, Call.event?]
    · cases hknows with
      | answered answer => cases answer
      | called first =>
          simp only [hcalls, List.nil_append, List.head?_cons, Option.some.injEq,
            Call.contents.injEq] at first
          exact .answered (first ▸ answered)
  exact h.carry hcarries ((Change.hear asked answered).course h.course) h.fired
    (fun _ => h.isRead (by simp [asked])) h.isWritten h.lost

theorem Sound.take (h : o.Sound) {e : Event} {rest : List Event} (free : o.phase = .dispatching)
    (next : o.feed.items = e :: rest) :
    Sound { o with feed := { o.feed with items := rest }, calls := o.calls ++ [.event e] } := by
  obtain ⟨-, -, list, es, hcalls⟩ := h.course.told_of_dispatching free
  have hdue : o.due = e :: (rest ++ o.lost ++ o.inFlight) := by simp [due, next]
  have hcarries : o.Carries
      { o with feed := { o.feed with items := rest }, calls := o.calls ++ [.event e] } := by
    refine ⟨rfl, rfl, id, fun _ => ⟨[e], hdue, ?_⟩, ?_, fun list' hknows => ?_⟩
    · simp [told, Call.event?]
    · intro hnil
      rw [hdue] at hnil
      cases hnil
    · cases hknows with
      | answered answer => exact .answered answer
      | called first => exact .called (by simpa [hcalls] using first)
  exact h.carry hcarries ((Change.take free next).course h.course) h.fired h.isRead h.isWritten h.lost

theorem Sound.leave (h : o.Sound) :
    Sound { o with phase := .stopped, feed := o.feed.abandon, answer := none } := by
  refine h.carry (.of_same rfl rfl rfl rfl rfl fun list hknows => ?_) (Change.leave.course h.course)
    h.fired (absurd rfl) h.isWritten nofun
  cases hknows with
  | answered answer => cases answer
  | called first => exact .called first

/-- **Every change keeps the invariant.** -/
theorem sound_change (hc : o.Change o') (h : o.Sound) : o'.Sound := by
  have hcourse := hc.course h.course
  cases hc with
  | still => exact h
  | publish r => exact h.publish r
  | fire filled =>
      exact h.carry (.of_same rfl rfl rfl rfl rfl fun _ hknows => hknows.of_same rfl rfl) hcourse
        (fun _ => filled) h.isRead h.isWritten h.lost
  | deliver next => exact h.deliver next
  | sense waiting fired =>
      exact h.carry (.of_same rfl rfl rfl rfl rfl fun _ hknows => hknows.of_same rfl rfl) hcourse
        h.fired (fun _ => h.isRead (by simp [waiting])) h.isWritten h.lost
  | read asked => exact h.read asked
  | hear asked answered => exact h.hear asked answered
  | take free next => exact h.take free next
  | leave => exact h.leave

/-- **The invariant holds at the start**, with any end of the store's events still in flight. -/
theorem sound_start (filter : Filter) (history : List Request) (n capacity : Nat) :
    (start filter history n capacity).Sound := by
  have hfiled : (Store.new filter).Filed := Store.filed_new filter
  have hdue : (start filter history n capacity).due =
      ((Store.new filter).emitted history).drop n := by
    simp [due, start, Feed.new]
  constructor
  case isRead => exact fun _ => rfl
  case isWritten => rfl
  case lost => exact fun _ => rfl
  case course => exact .waiting rfl rfl rfl
  case filed => exact Store.filed_after hfiled history
  case fired => exact nofun
  case silent =>
    intro hnone
    rw [hdue, Store.emitted_eq_nil hnone, List.drop_nil]
  case path =>
    intro _ k
    obtain ⟨s, hpath⟩ := Store.exists_path_emitted hfiled history k
    rw [← List.take_append_drop n ((Store.new filter).emitted history), eventsOf_append] at hpath
    obtain ⟨t, -, hrest⟩ := hpath.split
    exact ⟨t, hdue ▸ hrest⟩
  case overlap =>
    intro _ list hknows
    cases hknows with
    | answered answer => cases answer
    | called first => cases first

/-- **The invariant holds after any moves.** -/
theorem sound_after (h : o.Sound) (moves : List Move) : (o.after moves).Sound := by
  induction moves generalizing o with
  | nil => exact h
  | cons m moves ih => exact ih (sound_change (change_step h.course.reading_of_answer m) h)

end Outlook

end Replica
