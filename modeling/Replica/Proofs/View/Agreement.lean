import Replica.Proofs.Feed
import Replica.Proofs.View.Lag
import Replica.Proofs.View.Tandem

/-! # A view agrees with its parent when nothing is on its way

At any moment the view's own store may be behind its parent, or ahead of the events in its queue.
What never fails is that the queue will put it right.  For one key, `Linked` splits the queue in
two: the events `es` lead the parent's slot to some `t`, and the events `fs` lead it from `t` to
what it is now.  If the parent's contents were read for the view and have not been taken over yet,
then `t` is what was read, and otherwise `fs` can be empty.

* `Linked.replay`: replaying the queue on the own store gives what the filter shows of the parent.
* `Linked.run_parent`, `Linked.take_list`, `Linked.relist`, `Linked.update`, `Linked.drop`: the
  link is kept when the parent changes, when it is read, when the contents read are taken over, and
  when an event is applied or thrown away.
* `Sound` is the invariant of the whole tandem, kept by every change (`sound_change`).
* `contents_agree`: so in a tandem with nothing on its way, the contents of a view that is ready
  are exactly what its filter accepts of the parent's. -/

namespace Replica

namespace Store

open Slot

theorem entries_map_object {es : List Entry} (h : ∀ e ∈ es, e.FiledAt e.object.key)
    (filter : Filter) : entries filter (es.map Entry.object) =
      (es.filter (filter.accepts ·.object)).map fun e => (e.object.key, e) := by
  induction es with
  | nil => rfl
  | cons e es ih =>
      obtain ⟨he, hes⟩ := List.forall_mem_cons.1 h
      rw [entries] at ih ⊢
      cases ha : filter.accepts e.object with
      | true =>
          have hentry : entryOf? filter e.object = some (e.object.key, e) := by
            simp [entryOf?_eq, ha, he.named, he.version]
          rw [List.map_cons, List.filterMap_cons, hentry,
            List.filter_cons_of_pos (by simpa using ha)]
          simp only [ih hes, List.map_cons]
      | false =>
          have hentry : entryOf? filter e.object = none := by simp [entryOf?_eq, ha]
          rw [List.map_cons, List.filterMap_cons, hentry, List.filter_cons_of_neg (by simp [ha])]
          exact ih hes

theorem offers_list {s : Store} (hs : s.Filed) (filter : Filter) (k : Key) :
    offers k (entries filter s.list) = (through filter (s.slot k)).toList := by
  obtain ⟨items, bound⟩ := s
  cases items with
  | none => rfl
  | some items =>
      have hfiled : ∀ k e, items.get? k = some e → e.FiledAt k := fun k e he => @hs k e he
      have hvalues : ∀ e ∈ items.values, e.FiledAt e.object.key := by
        intro e he
        obtain ⟨x, hx, rfl⟩ := List.mem_map.1 he
        have hx := hfiled x.1 x.2 (SortedMap.mem_toList.1 hx)
        rwa [hx.key]
      have hkeyed : ∀ es : List Entry,
          offers k (es.map fun e => (e.object.key, e)) = es.filter (·.object.key = k) := by
        intro es
        simp [offers, List.filter_map, Function.comp_def]
      change offers k (entries filter (items.values.map Entry.object)) =
        (through filter (items.get? k)).toList
      rw [entries_map_object hvalues, hkeyed, List.filter_filter]
      simp only [Bool.and_comm]
      rw [← List.filter_filter, filter_values_key fun k e he => (hfiled k e he).key, through]
      cases items.get? k with
      | none => rfl
      | some e => cases ha : filter.accepts e.object <;> simp [Option.filter_some, ha]

end Store

/-! ### One key -/

/-- The queue will put the own store right under the key `k`.  It consists of events that lead the
parent's slot to `t`, and of events that lead it on to what it is now; the own store will be right
at `t`; and if contents of the parent are to be taken over, they were read at `t`. -/
def Linked (own parent : Store) (queue : List Event) (listing? : Option (List Object)) (k : Key) :
    Prop :=
  ∃ s t es fs, Slot.eventsOf k queue = es ++ fs ∧ Slot.Path s es t ∧ Slot.Path t fs (parent.slot k) ∧
    (own.items.isSome = true →
      Slot.replay own.filter (own.slot k) es = Slot.through own.filter t) ∧
    ∀ list, listing? = some list →
      ∀ filter, Slot.offers k (Store.entries filter list) = (Slot.through filter t).toList

namespace Linked

open Slot

variable {own own' parent : Store} {queue : List Event} {listing? : Option (List Object)} {k : Key}

theorem of_replay {s : Option Entry} (hpath : Path s (eventsOf k queue) (parent.slot k))
    (hown : own.items.isSome = true →
      Slot.replay own.filter (own.slot k) (eventsOf k queue) = through own.filter (parent.slot k)) :
    Linked own parent queue none k :=
  ⟨s, parent.slot k, eventsOf k queue, [], by simp, hpath, .nil _, hown, by simp⟩

theorem path (h : Linked own parent queue listing? k) :
    ∃ s, Path s (eventsOf k queue) (parent.slot k) := by
  obtain ⟨s, t, es, fs, hqueue, hpath, hpath', -⟩ := h
  exact ⟨s, hqueue ▸ hpath.append hpath'⟩

/-- **The queue puts the own store right.** -/
theorem replay (h : Linked own parent queue listing? k) (hfilled : own.items.isSome = true) :
    Slot.replay own.filter (own.slot k) (eventsOf k queue) = through own.filter (parent.slot k) := by
  obtain ⟨s, t, es, fs, hqueue, -, hpath', hown, -⟩ := h
  rw [hqueue, replay_append, hown hfilled, replay_through hpath']

theorem forget (h : Linked own parent queue listing? k) : Linked own parent queue none k := by
  obtain ⟨s, hpath⟩ := h.path
  exact of_replay hpath h.replay

theorem run_parent (h : Linked own parent queue listing? k) (hfiled : parent.Filed) (r : Request)
    (hnew : parent.items = none → queue = [] ∧ own.items = none ∧ listing? = none) :
    Linked own (r.run parent).1 (queue ++ (r.run parent).2.eventList) listing? k := by
  obtain ⟨slot, hslot, hrun⟩ := Store.exists_path_run hfiled r k
  cases hi : parent.items with
  | none =>
      obtain ⟨rfl, hempty, rfl⟩ := hnew hi
      exact of_replay hrun (by simp [hempty])
  | some items =>
      obtain ⟨s, t, es, fs, hqueue, hpath, hpath', hown, hlist⟩ := h
      rw [hslot (by simp [hi])] at hrun
      refine ⟨s, t, es, fs ++ eventsOf k (r.run parent).2.eventList, ?_, hpath, hpath'.append hrun,
        hown, hlist⟩
      rw [eventsOf_append, hqueue, List.append_assoc]

theorem take_list (h : Linked own parent queue listing? k) (hfiled : parent.Filed) :
    Linked own parent queue (some parent.list) k := by
  obtain ⟨s, hpath⟩ := h.path
  refine ⟨s, parent.slot k, eventsOf k queue, [], by simp, hpath, .nil _, h.replay, ?_⟩
  intro list hlist filter
  rw [Option.some.injEq] at hlist
  subst hlist
  exact Store.offers_list hfiled filter k

/-- **The contents that were read are taken over**, under any filter. -/
theorem relist {list : List Object} (h : Linked own parent queue (some list) k) {filter : Filter}
    (hfilter : own'.filter = filter) (hslot : own'.slot k = own.relist filter list k) :
    Linked own' parent queue none k := by
  obtain ⟨s, hall⟩ := h.path
  obtain ⟨_, t, es, fs, hqueue, hpath, hpath', hown, hlist⟩ := h
  refine of_replay hall fun _ => ?_
  have hes : Slot.replay filter (own'.slot k) es = through filter t := by
    rw [hslot, Store.relist, hlist list rfl filter]
    split
    · rename_i hfilled
      exact replay_settle hpath (hown hfilled) filter
    · have hlast : (through filter t).toList.getLast? = through filter t := by
        cases through filter t <;> rfl
      rw [hlast]
      exact replay_adopt hpath filter
  rw [hfilter, hqueue, replay_append, hes, replay_through hpath']

theorem of_empty (h : Linked own parent queue listing? k) (hempty : own'.items = none) :
    Linked own' parent queue none k := by
  obtain ⟨s, hpath⟩ := h.path
  exact of_replay hpath (by simp [hempty])

theorem drop {e : Event} (h : Linked own parent (e :: queue) listing? k)
    (hempty : own.items = none) : Linked own parent queue none k := by
  obtain ⟨s, hpath⟩ := h.path
  rw [eventsOf_cons] at hpath
  split at hpath
  · cases hpath with
    | cons hturn hrest => exact of_replay hrest (by simp [hempty])
  · exact of_replay hpath (by simp [hempty])

theorem update {e : Event} (h : Linked own parent (e :: queue) listing? k)
    (hfilled : own.items.isSome = true) : Linked (own.update e).1 parent queue none k := by
  obtain ⟨s, hpath⟩ := h.path
  have hreplay := h.replay hfilled
  rw [eventsOf_cons] at hpath hreplay
  by_cases hk : e.object.key = k
  · rw [if_pos hk] at hpath hreplay
    cases hpath with
    | cons hturn hrest =>
        refine of_replay hrest fun _ => ?_
        have hslot : (own.update e).1.slot k = advance own.filter (own.slot k) e := by
          rw [Store.slot_update, if_pos ⟨hturn.named, hk⟩]
        rw [hslot, Store.filter_update]
        exact hreplay
  · rw [if_neg hk] at hpath hreplay
    refine of_replay hpath fun _ => ?_
    have hslot : (own.update e).1.slot k = own.slot k := by
      rw [Store.slot_update, if_neg fun h => hk h.2]
    rw [hslot, Store.filter_update]
    exact hreplay

end Linked

/-! ### The whole tandem -/

namespace Tandem

open Slot

/-- The invariant of a tandem: both ends of the feed are there, the view and its own store are in a
stage, whoever takes the parent for ready is right, a parent without contents has given nothing,
and as long as no event was dropped, every key is linked. -/
structure Sound (t : Tandem) : Prop where
  isRead : t.feed.isAbandoned = false
  isWritten : t.feed.isSealed = false
  stage : t.view.Stage t.own t.errand
  filed : t.parent.Filed
  fired : t.isFired = true → t.parent.items.isSome = true
  ready : t.view.parentReady = true → t.parent.items.isSome = true
  silent : t.parent.items = none → t.queue = []
  linked : t.feed.dropped = 0 → ∀ k, Linked t.own t.parent t.queue t.errand.listing? k

theorem Sound.empty {t : Tandem} (h : t.Sound) (hp : t.parent.items = none) :
    t.own.items = none ∧ t.errand.listing? = none ∧ t.errand.events = [] := by
  refine h.stage.of_unready ?_
  cases hready : t.view.parentReady with
  | false => rfl
  | true =>
      have := h.ready hready
      rw [hp] at this
      cases this

theorem queue_eq_nil {t : Tandem} (h : t.queue = []) :
    t.errand.events = [] ∧ t.feed.items = [] ∧ t.inFlight = [] := by
  rw [queue, List.append_eq_nil_iff, List.append_eq_nil_iff] at h
  exact ⟨h.1.1, h.1.2, h.2⟩

theorem Sound.parent {t : Tandem} (h : t.Sound) (r : Request) :
    Sound { t with
      parent := (r.run t.parent).1
      inFlight := t.inFlight ++ (r.run t.parent).2.eventList } := by
  have hqueue : queue { t with
      parent := (r.run t.parent).1
      inFlight := t.inFlight ++ (r.run t.parent).2.eventList } =
      t.queue ++ (r.run t.parent).2.eventList := by
    simp [queue]
  refine ⟨h.isRead, h.isWritten, h.stage, Store.filed_run h.filed r, ?_, ?_, ?_, ?_⟩
  · exact fun hf => Store.isSome_items_run (h.fired hf) r
  · exact fun hr => Store.isSome_items_run (h.ready hr) r
  · intro hnone
    obtain ⟨hold, hsilent⟩ := Store.silent_of_items_run hnone
    rw [hqueue, h.silent hold, hsilent]
    rfl
  · intro hdropped k
    rw [hqueue]
    refine (h.linked hdropped k).run_parent h.filed r fun hnone => ?_
    obtain ⟨hown, hlist, -⟩ := h.empty hnone
    exact ⟨h.silent hnone, hown, hlist⟩

theorem Sound.deliver {t : Tandem} (h : t.Sound) {e : Event} {rest : List Event}
    (next : t.inFlight = e :: rest) :
    Sound { t with inFlight := rest, feed := (t.feed.offer e).1 } := by
  obtain ⟨hab, hcl⟩ := t.feed.flags_offer e
  refine ⟨hab.trans h.isRead, hcl.trans h.isWritten, h.stage, h.filed, h.fired, h.ready, ?_, ?_⟩
  · intro hnone
    have hflight := (queue_eq_nil (h.silent hnone)).2.2
    rw [next] at hflight
    cases hflight
  · intro hdropped k
    have hitems := Feed.items_offer_of_dropped h.isRead h.isWritten hdropped
    have hqueue : queue { t with inFlight := rest, feed := (t.feed.offer e).1 } = t.queue := by
      simp only [queue, hitems, next]
      simp
    have hold : t.feed.dropped = 0 := by
      have := t.feed.dropped_offer e
      rw [hdropped] at this
      omega
    rw [hqueue]
    exact h.linked hold k

theorem Sound.react {t : Tandem} (h : t.Sound) {view : View} {errand : Errand}
    (stage : view.Stage t.own errand)
    (ready : view.parentReady = true → t.parent.items.isSome = true)
    (events : errand.events = t.errand.events)
    (listing : errand.listing? = none ∨ errand.listing? = t.errand.listing?) :
    Sound { t with view, errand } := by
  have hqueue : queue { t with view, errand } = t.queue := by
    simp only [queue, events]
  refine ⟨h.isRead, h.isWritten, stage, h.filed, h.fired, ready, ?_, ?_⟩
  · intro hnone
    rw [hqueue]
    exact h.silent hnone
  · intro hdropped k
    rw [hqueue]
    show Linked t.own t.parent t.queue errand.listing? k
    rcases listing with hl | hl
    · rw [hl]
      exact (h.linked hdropped k).forget
    · rw [hl]
      exact h.linked hdropped k

theorem Sound.take {t : Tandem} (h : t.Sound) {e : Event} {rest : List Event} {view : View}
    {errand : Errand} (free : t.errand = .nothing) (next : t.feed.items = e :: rest)
    (reaction : t.view.Reaction (.event e) view errand) (stage : view.Stage t.own errand) :
    Sound { t with feed := { t.feed with items := rest }, view, errand } := by
  have hqueue : t.queue = e :: (rest ++ t.inFlight) := by
    simp [queue, free, next, Errand.events]
  have hfilled : t.parent.items = none → False := by
    intro hnone
    have := h.silent hnone
    rw [hqueue] at this
    cases this
  have hidle := h.stage
  rw [free] at hidle
  cases reaction with
  | ignore phase unready =>
      have hempty : t.own.items = none := hidle.of_nothing.2.empty unready
      refine ⟨h.isRead, h.isWritten, stage, h.filed, h.fired, h.ready,
        fun hnone => (hfilled hnone).elim, ?_⟩
      intro hdropped k
      have hlink := h.linked hdropped k
      rw [hqueue] at hlink
      exact hlink.drop hempty
  | update phase ready =>
      refine ⟨h.isRead, h.isWritten, stage, h.filed, h.fired, h.ready,
        fun hnone => (hfilled hnone).elim, ?_⟩
      intro hdropped k
      have hlink := h.linked hdropped k
      rw [hqueue] at hlink
      exact hlink.forget

theorem Sound.read {t : Tandem} (h : t.Sound) (asked : t.errand = .reading)
    (stage : t.view.Stage t.own (.contents t.parent.list)) :
    Sound { t with errand := .contents t.parent.list } := by
  have hqueue : queue { t with errand := .contents t.parent.list } = t.queue := by
    simp [queue, asked, Errand.events]
  refine ⟨h.isRead, h.isWritten, stage, h.filed, h.fired, h.ready, ?_, ?_⟩
  · intro hnone
    rw [hqueue]
    exact h.silent hnone
  · intro hdropped k
    rw [hqueue]
    exact (h.linked hdropped k).take_list h.filed

theorem Sound.serve {t : Tandem} (h : t.Sound) {r : Request} (asked : t.errand = .asked r) :
    Sound { t with own := (r.run t.own).1, errand := .answered (r.run t.own).2.eventList } := by
  have hstage := h.stage
  rw [asked] at hstage
  have hafter := View.stage_serve hstage
  have hqueue :
      queue { t with own := (r.run t.own).1, errand := .answered (r.run t.own).2.eventList } =
        t.feed.items ++ t.inFlight := by
    simp [queue, Errand.events]
  refine ⟨h.isRead, h.isWritten, hafter, h.filed, h.fired, h.ready, ?_, ?_⟩
  · intro hnone
    obtain ⟨-, hitems, hflight⟩ := queue_eq_nil (h.silent hnone)
    rw [hqueue, hitems, hflight]
    rfl
  · intro hdropped k
    have hlink := h.linked hdropped k
    rw [hqueue]
    show Linked (r.run t.own).1 t.parent (t.feed.items ++ t.inFlight) none k
    generalize herrand : Errand.asked r = errand at hstage
    cases hstage with
    | @applying job list phase inStep parent apt =>
        cases herrand
        have hbefore : t.queue = t.feed.items ++ t.inFlight := by
          rw [queue, asked, job.events_request list, List.nil_append]
        rw [hbefore, asked, job.listing?_request list] at hlink
        rw [← inStep.filter] at apt
        obtain ⟨hfilter, -, hslot⟩ := View.run_request apt list
        exact hlink.relist hfilter (hslot k)
    | noting phase inStep unready apt =>
        cases herrand
        have hbefore : t.queue = t.feed.items ++ t.inFlight := by
          simp [queue, asked, Errand.events]
        rw [hbefore] at hlink
        exact hlink.of_empty (View.items_run_note (inStep.empty unready) _)
    | updating e phase inStep ready =>
        cases herrand
        have hbefore : t.queue = e :: (t.feed.items ++ t.inFlight) := by
          simp [queue, asked, Errand.events]
        rw [hbefore] at hlink
        exact hlink.update (inStep.ready ▸ ready)
    | _ => cases herrand

/-- **Every change keeps the invariant.** -/
theorem sound_change {t t' : Tandem} (hc : t.Change t') (h : t.Sound) : t'.Sound := by
  have hstage := hc.stage h.stage
  cases hc with
  | still => exact h
  | parent r => exact h.parent r
  | fire filled =>
      exact ⟨h.isRead, h.isWritten, h.stage, h.filed, fun _ => filled, h.ready, h.silent, h.linked⟩
  | deliver next => exact h.deliver next
  | sense free fired reaction =>
      refine h.react hstage (fun _ => h.fired fired) ?_ ?_
      · cases reaction <;> simp [free, Errand.events]
      · cases reaction <;> exact .inl rfl
  | refilter free reaction =>
      refine h.react hstage ?_ ?_ ?_
      · cases reaction <;> exact h.ready
      · cases reaction <;> simp [free, Errand.events]
      · cases reaction <;> exact .inl rfl
  | take free next reaction => exact h.take free next reaction hstage
  | read asked => exact h.read asked hstage
  | serve asked => exact h.serve asked
  | contents told reaction =>
      refine h.react hstage ?_ ?_ ?_
      · cases reaction with
        | take phase => exact h.ready
      · cases reaction with
        | take phase =>
            rw [View.Job.events_request, told]
            rfl
      · cases reaction with
        | take phase => exact .inr (by rw [View.Job.listing?_request, told, Errand.listing?])
  | applied told reaction =>
      refine h.react hstage ?_ ?_ ?_
      · cases reaction <;> exact h.ready
      · cases reaction <;> simp [told, Errand.events]
      · cases reaction <;> exact .inl rfl

/-- **The invariant holds at the start**, with any end of the parent's events still in flight. -/
theorem sound_start (parentFilter : Filter) (history : List Request) (n : Nat) (filter : Filter)
    (deferred : Bool) (capacity : Nat) :
    (start parentFilter history n filter deferred capacity).Sound := by
  have hfiled : (Store.new parentFilter).Filed := Store.filed_new parentFilter
  refine ⟨rfl, rfl, .idle rfl ⟨rfl, rfl, nofun⟩, Store.filed_after hfiled history, nofun, nofun,
    ?_, ?_⟩
  · intro hnone
    show [] ++ [] ++ ((Store.new parentFilter).emitted history).drop n = []
    rw [Store.emitted_eq_nil hnone]
    simp
  · intro _ k
    obtain ⟨s, hpath⟩ := Store.exists_path_emitted hfiled history k
    rw [← List.take_append_drop n ((Store.new parentFilter).emitted history),
      eventsOf_append] at hpath
    obtain ⟨t, -, hrest⟩ := hpath.split
    exact Linked.of_replay hrest nofun

/-- **The invariant holds after any moves.** -/
theorem sound_after {t : Tandem} (h : t.Sound) (moves : List Move) : (t.after moves).Sound := by
  induction moves generalizing t with
  | nil => exact h
  | cons m moves ih => exact ih (sound_change (change_step h.stage m) h)

/-- **A view agrees with its parent when nothing is on its way.**  Whatever has happened to the
parent and to the view, in any order, if the view is ready, no event of the parent is on its way to
it and none was dropped, then its contents are exactly the parent's as far as its filter accepts
them.  The filter is the one that the view goes by, or the one that its own store has just taken
over for it. -/
theorem contents_agree (parentFilter : Filter) (history : List Request) (n : Nat) (filter : Filter)
    (deferred : Bool) (capacity : Nat) (moves : List Move) :
    let t := (start parentFilter history n filter deferred capacity).after moves
    t.view.isReady = true → t.queue = [] → t.feed.dropped = 0 →
      t.own.items = t.parent.items.map (·.filter fun _ e => t.own.filter.accepts e.object) ∧
        (t.own.filter = t.view.filter ∨
          ∃ events, t.errand = .answered events ∧
            t.view.phase = .applying (.refilter t.own.filter true)) := by
  intro t hready hqueue hdropped
  have h : t.Sound := sound_after (sound_start parentFilter history n filter deferred capacity) moves
  obtain ⟨hfilled, hparent, hfilter⟩ := h.stage.of_ready hready
  refine ⟨?_, hfilter⟩
  obtain ⟨items, hitems⟩ := Option.isSome_iff_exists.1 hfilled
  obtain ⟨current, hcurrent⟩ := Option.isSome_iff_exists.1 (h.ready hparent)
  rw [hitems, hcurrent, Option.map_some, Option.some.injEq]
  apply SortedMap.ext_get?
  intro k
  have hreplay := (h.linked hdropped k).replay hfilled
  rw [hqueue, eventsOf_nil, replay_nil] at hreplay
  simp only [Store.slot, hitems, hcurrent, Option.getD_some] at hreplay
  rw [SortedMap.get?_filter, hreplay, through]

/-- The parent changes between being read and the contents being taken over; a stale event and a
new one are applied, and at last the view is given another filter. -/
theorem contents_agree_of_overtaking :
    let history := [Request.sync [.tagged "a" "x" "1"], .update ⟨.update, .tagged "a" "x" "2"⟩]
    let t := (start .acceptAll history 0 (.labels .app) false 4).after
      [.fire, .sense, .read, .parent (.update ⟨.create, .tagged "a" "y" "3"⟩), .hear, .serve, .hear,
        .deliver, .take, .serve, .hear, .deliver, .take, .serve, .hear,
        .parent (.update ⟨.create, .bare "a" "z" "4"⟩), .refilter .acceptAll, .read, .hear, .serve,
        .hear, .deliver, .take, .serve, .hear]
    t.view.isReady = true ∧ t.queue = [] ∧ t.feed.dropped = 0 ∧
      t.own.items = t.parent.items.map (·.filter fun _ e => t.own.filter.accepts e.object) ∧
        (t.own.filter = t.view.filter ∨
          ∃ events, t.errand = .answered events ∧
            t.view.phase = .applying (.refilter t.own.filter true)) :=
  have hready := by decide +kernel
  have hqueue := by decide +kernel
  have hdropped := by decide +kernel
  ⟨hready, hqueue, hdropped, contents_agree _ _ _ _ _ _ _ hready hqueue hdropped⟩

end Tandem

end Replica
