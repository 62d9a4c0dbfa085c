import Replica.Proofs.Observer.Overlap

/-! # What a handler knows

A handler that keeps a mirror of what it is told may go back in time: events that were on their way when
the contents were read tell it again what it knows.  But it never goes wrong for good.

* `calls_converge`: the handler gets the contents once, first, and not before readiness; and when nothing
  is on its way and nothing was lost, its mirror is the store.
* `isHistory_iff`: every event fits the mirror exactly if, under each key, the first event that was on its
  way when the contents were read, and that the handler was told, fits the contents. -/

namespace Replica

namespace Outlook

open Slot

variable {o : Outlook} {list : List Object} {slots : Key → Option Entry} {fresh : List Event}

namespace Overlap

theorem told_eq_append (h : o.Overlap list slots fresh) :
    o.told = o.overlap ++ fresh.take (o.told.length - o.backlog.length) := by
  have htake : o.told = (o.told ++ o.due).take o.told.length := List.take_left.symm
  rwa [h.row, List.take_append] at htake

theorem exists_path (h : o.Overlap list slots fresh) (k : Key) :
    ∃ s, Path s (eventsOf k (o.told ++ o.due)) (o.store.slot k) := by
  obtain ⟨s, hold⟩ := h.old k
  refine ⟨s, ?_⟩
  rw [h.row, eventsOf_append]
  exact hold.append (h.new k)

/-- **When nothing is due, the mirror is the store.**  Under a key without events the contents are
right still; under any other key the last event puts it right, whatever was there. -/
theorem replay_told (h : o.Overlap list slots fresh) (hdue : o.due = []) :
    (Mirror.ofList list).replay o.told = o.store.get? := by
  rw [Store.get?_eq_ofSlots]
  refine Mirror.replay_eq_of_path (fun k => ?_) fun k hnone => ?_
  · simpa [hdue] using h.exists_path k
  · have hrow := h.row
    rw [hdue, List.append_nil] at hrow
    rw [hrow, eventsOf_append, List.append_eq_nil_iff] at hnone
    have hnew := h.new k
    rw [hnone.2] at hnew
    rw [h.contents, Mirror.ofSlots, hnew.eq_of_nil]

theorem fits_of_fresh (h : o.Overlap list slots fresh) {k : Key} {e : Event}
    (hnone : eventsOf k o.overlap = []) (hhead : (eventsOf k o.told).head? = some e) :
    (Mirror.ofList list).Fits e := by
  have hk : e.object.key = k := by
    simpa using (List.mem_filter.1 (List.mem_of_mem_head? hhead)).2
  rw [h.told_eq_append, eventsOf_append, hnone, List.nil_append] at hhead
  obtain ⟨es, hes⟩ := List.head?_eq_some_iff.1 hhead
  have hpath := h.new k
  rw [← List.take_append_drop (o.told.length - o.backlog.length) fresh, eventsOf_append, hes] at hpath
  cases hpath with
  | cons hturn _ =>
      rw [h.contents]
      exact (Mirror.fits_of_turn h.filed (hk ▸ hturn)).1

/-- **Only the overlap can fail to fit**, and of this only the first event on each key. -/
theorem fitting_told_iff (h : o.Overlap list slots fresh) :
    (Mirror.ofList list).Fitting o.told ↔
      ∀ k e, (eventsOf k o.overlap).head? = some e → (Mirror.ofList list).Fits e := by
  have hpaths : ∀ k, ∃ s t, Path s (eventsOf k o.told) t := by
    intro k
    obtain ⟨s, hpath⟩ := h.exists_path k
    rw [eventsOf_append] at hpath
    obtain ⟨t, htold, -⟩ := hpath.split
    exact ⟨s, t, htold⟩
  rw [Mirror.fitting_iff hpaths]
  have hfirst : ∀ k e, (eventsOf k o.overlap).head? = some e → (eventsOf k o.told).head? = some e := by
    intro k e hhead
    rw [h.told_eq_append, eventsOf_append, List.head?_append, hhead]
    rfl
  constructor
  · exact fun hfits k e hhead => hfits k e (hfirst k e hhead)
  · intro hfits k e hhead
    cases hover : (eventsOf k o.overlap).head? with
    | none => exact h.fits_of_fresh (List.head?_eq_none_iff.1 hover) hhead
    | some e' =>
        rw [hfirst k e' hover] at hhead
        exact hfits k e (hover.trans hhead)

end Overlap

/-! ### A sound outlook -/

theorem Sound.exists_overlap (h : o.Sound) (hcalls : o.calls ≠ []) (hdropped : o.feed.dropped = 0) :
    ∃ list slots fresh, o.calls = .contents list :: o.told.map .event ∧
      o.Overlap list slots fresh := by
  rcases h.course.calls_cases with hnil | ⟨-, list, es, htold⟩
  · exact absurd hnil hcalls
  · obtain ⟨slots, fresh, hover⟩ := h.overlap hdropped list (.called (by rw [htold]; rfl))
    exact ⟨list, slots, fresh, told_eq htold ▸ htold, hover⟩

theorem Sound.ofCalls_eq (h : o.Sound) (hcalls : o.calls ≠ []) (hqueue : o.queue = [])
    (hlossless : o.IsLossless) : Mirror.ofCalls o.calls = o.store.get? := by
  obtain ⟨list, slots, fresh, heq, hover⟩ := h.exists_overlap hcalls hlossless.1
  have hdue : o.due = [] := by
    rw [queue, List.append_eq_nil_iff] at hqueue
    simp [due, hqueue, hlossless.2]
  rw [heq, Mirror.ofCalls_eq_replay]
  exact hover.replay_told hdue

theorem Sound.isHistory_iff_overlap (h : o.Sound) (hdropped : o.feed.dropped = 0) :
    Mirror.IsHistory o.calls ↔
      ∀ k e, (eventsOf k o.overlap).head? = some e → (Mirror.ofCalls (o.calls.take 1)).Fits e := by
  by_cases hcalls : o.calls = []
  · have hover : o.overlap = [] := by simp [Outlook.overlap, told, hcalls]
    rw [hcalls, hover]
    exact iff_of_true Mirror.isHistory_nil (fun k e hhead => by cases hhead)
  · obtain ⟨list, slots, fresh, heq, hover⟩ := h.exists_overlap hcalls hdropped
    rw [heq, Mirror.isHistory_iff_fitting]
    exact hover.fitting_told_iff

/-! ### Any run -/

/-- **A handler converges to the store.**  Whatever happens to the store and to the observer, in any
order: the handler gets the contents at most once, before any event and not before readiness; and when
it has got them, no event is on its way and none was lost, then the contents changed by each event in
turn are what the store has. -/
theorem calls_converge (filter : Filter) (history : List Request) (n capacity : Nat)
    (moves : List Move) :
    let o := (start filter history n capacity).after moves
    (o.calls = [] ∨
        o.isFired = true ∧ ∃ list, ∃ es : List Event, o.calls = .contents list :: es.map .event) ∧
      (o.calls ≠ [] → o.queue = [] → o.IsLossless → Mirror.ofCalls o.calls = o.store.get?) :=
  have h := sound_after (sound_start filter history n capacity) moves
  ⟨h.course.calls_cases, h.ofCalls_eq⟩

/-- The contents are read when two events are on their way; one of these deletes an object that is back
by then, so for a while the handler has lost it. -/
theorem calls_converge_of_overlap :
    let history := [Request.sync [.bare "a" "x" "1", .bare "a" "y" "2"]]
    let o := (start .acceptAll history 0 4).after
      [.fire, .publish (.update ⟨.delete, .bare "a" "x" "3"⟩), .deliver,
        .publish (.update ⟨.create, .bare "a" "x" "4"⟩), .sense, .read,
        .publish (.update ⟨.update, .bare "a" "y" "5"⟩), .hear, .take, .deliver, .take, .deliver,
        .take]
    (o.calls = [] ∨
        o.isFired = true ∧ ∃ list, ∃ es : List Event, o.calls = .contents list :: es.map .event) ∧
      o.calls.length = 4 ∧ o.queue = [] ∧ o.IsLossless ∧ Mirror.ofCalls o.calls = o.store.get? := by
  intro history o
  have hlength : o.calls.length = 4 := by decide +kernel
  have hqueue : o.queue = [] := by decide +kernel
  have hlossless : o.IsLossless := by decide +kernel
  have hcalls : o.calls ≠ [] := by
    intro hnil
    rw [hnil] at hlength
    cases hlength
  have hconverge := calls_converge .acceptAll history 0 4
    [.fire, .publish (.update ⟨.delete, .bare "a" "x" "3"⟩), .deliver,
      .publish (.update ⟨.create, .bare "a" "x" "4"⟩), .sense, .read,
      .publish (.update ⟨.update, .bare "a" "y" "5"⟩), .hear, .take, .deliver, .take, .deliver, .take]
  exact ⟨hconverge.1, hlength, hqueue, hlossless, hconverge.2 hcalls hqueue hlossless⟩

/-- **When what a handler is told is a history.**  Whatever happens to the store and to the observer, in
any order, as long as no event is dropped: every event fits what the handler knows by then if and only
if, under each key, the first event that was on its way when the contents were read, and that the
handler was told, fits the contents. -/
theorem isHistory_iff (filter : Filter) (history : List Request) (n capacity : Nat)
    (moves : List Move) :
    let o := (start filter history n capacity).after moves
    o.feed.dropped = 0 →
      (Mirror.IsHistory o.calls ↔
        ∀ k e, (eventsOf k o.overlap).head? = some e →
          (Mirror.ofCalls (o.calls.take 1)).Fits e) :=
  (sound_after (sound_start filter history n capacity) moves).isHistory_iff_overlap

/-- An object is created and deleted again before the contents are read: both events are told after
that, and both fit. -/
theorem isHistory_of_fleeting :
    let o := (start .acceptAll [.sync [.bare "a" "x" "1"]] 0 4).after
      [.fire, .publish (.update ⟨.create, .bare "a" "y" "2"⟩),
        .publish (.update ⟨.delete, .bare "a" "y" "3"⟩), .sense, .read, .hear, .deliver, .take,
        .deliver, .take]
    o.feed.dropped = 0 ∧ o.overlap.length = 2 ∧ Mirror.IsHistory o.calls := by
  intro o
  have hdropped : o.feed.dropped = 0 := by decide +kernel
  have hoverlap : o.overlap =
      [⟨.create, .bare "a" "y" "2"⟩, ⟨.delete, .bare "a" "y" "3"⟩] := by decide +kernel
  have hfirst : ∀ k e, (eventsOf k o.overlap).head? = some e → e = ⟨.create, .bare "a" "y" "2"⟩ := by
    intro k e hhead
    rw [hoverlap, eventsOf_cons] at hhead
    split at hhead
    · exact (Option.some.inj hhead).symm
    · rename_i hk
      rw [eventsOf_cons, if_neg (show (Object.bare "a" "y" "3").key ≠ k from hk)] at hhead
      cases hhead
  have hnew : Mirror.ofCalls (o.calls.take 1) (Object.bare "a" "y" "2").key = none := by
    decide +kernel
  refine ⟨hdropped, by rw [hoverlap]; rfl,
    (isHistory_iff .acceptAll [.sync [.bare "a" "x" "1"]] 0 4 _ hdropped).2 fun k e hhead => ?_⟩
  rw [hfirst k e hhead]
  exact hnew

/-- An object is created after the observer has subscribed and before the contents are read: the handler
is told to create what it has. -/
theorem not_isHistory_of_overlap :
    let o := (start .acceptAll [.sync [.bare "a" "x" "1"]] 0 4).after
      [.fire, .publish (.update ⟨.create, .bare "a" "y" "2"⟩), .sense, .read, .hear, .deliver, .take]
    o.feed.dropped = 0 ∧ o.queue = [] ∧ ¬ Mirror.IsHistory o.calls := by
  intro o
  have hcalls : o.calls =
      [.contents [.bare "a" "x" "1", .bare "a" "y" "2"], .event ⟨.create, .bare "a" "y" "2"⟩] := by
    decide +kernel
  refine ⟨by decide +kernel, by decide +kernel, fun h => ?_⟩
  have hfits : Mirror.ofCalls [.contents [.bare "a" "x" "1", .bare "a" "y" "2"]]
      (Object.bare "a" "y" "2").key = none :=
    h [.contents [.bare "a" "x" "1", .bare "a" "y" "2"]] ⟨.create, .bare "a" "y" "2"⟩ [] hcalls
  exact absurd hfits (by decide +kernel)

theorem isHistory_of_backlog (filter : Filter) (history : List Request) (n capacity : Nat)
    (moves : List Move) (hdropped : ((start filter history n capacity).after moves).feed.dropped = 0)
    (hbacklog : ((start filter history n capacity).after moves).backlog = []) :
    Mirror.IsHistory ((start filter history n capacity).after moves).calls := by
  have h := sound_after (sound_start filter history n capacity) moves
  refine (h.isHistory_iff_overlap hdropped).2 fun k e hhead => ?_
  rw [Outlook.overlap, hbacklog, List.take_nil] at hhead
  cases hhead

end Outlook

end Replica
