import Replica.Network.Access
import Replica.Proofs.Hub.Run

/-! # Fan-out

Whatever happens at a hub and in whatever order, each subscription gets the events of the source in
their order, without those for which it had no room, and counts these; and what it gets depends on
nothing but the events and what its own reader does.

* `FanOut` says this of one subscription, and `Fan.Seats.fanOut_alone` shows it from the moment at which
  the subscription joins.
* A hub starts without subscriptions, and so it holds for every subscription (`fanOut`). -/

namespace Replica

namespace Network

/-- A hub that has just started. -/
def Fan.fresh (n : Network) (source : Source) (capacity : Nat) : Fan :=
  let parts := (source.parts? n).getD default
  let (scopes, scope) := n.scopes.addRoot
  let (scopes, done) := scopes.addRoot
  { number := n.hubs.length
    task := ⟨.new capacity, source, scope, parts.ready, done, parts.keeper, [], false, none, true, false⟩
    feeds := n.feeds
    scopes
    subscriptions := n.subscriptions }

theorem fan?_startHub (n : Network) (source : Source) (capacity : Nat) :
    ((startHub source capacity).run n).2.fan? n.hubs.length = some (Fan.fresh n source capacity) := by
  have hdata : ((startHub source capacity).run n).2.data =
      { n with
        scopes := (Fan.fresh n source capacity).scopes
        hubs := n.hubs ++ [(Fan.fresh n source capacity).task] }.data := rfl
  rw [fan?_eq_of_data hdata]
  simp [fan?, Fan.fresh]

section Fresh

variable {n : Network} (hn : ∀ sub ∈ n.subscriptions, sub.hub ≠ some n.hubs.length)
include hn

/-- A hub starts without subscriptions. -/
theorem member?_fresh (source : Source) (capacity s : Nat) :
    (Fan.fresh n source capacity).member? s = none := by
  cases hs : (Fan.fresh n source capacity).member? s with
  | none => rfl
  | some sub =>
      obtain ⟨hsub, hhub⟩ := Fan.member?_eq_some_iff.1 hs
      exact absurd hhub (hn sub (List.mem_of_getElem? hsub))

theorem sound_fresh (source : Source) (capacity : Nat) :
    (Fan.fresh n source capacity).Sound (max capacity 1) where
  room_pos := Nat.le_max_right capacity 1
  capacity := rfl
  scope_lt := by simp [Fan.fresh, Scopes.addRoot]
  root := by simp [Fan.fresh, Scopes.parent?, Scopes.addRoot]
  running := by
    simpa [Fan.fresh] using n.scopes.isFired_of_length_le (Nat.le_refl n.scopes.addRoot.2)
  nodup := .nil
  live_lt := nofun
  leaving_lt := nofun
  placed := fun hs =>
    absurd (hs.symm.trans (member?_fresh hn source capacity _)) (Option.some_ne_none _)
  apart := fun hs =>
    absurd (hs.symm.trans (member?_fresh hn source capacity _)) (Option.some_ne_none _)

end Fresh

/-- What a subscription to the hub `i` has come to after `moves`, of which `later` were made since it
joined: its feed, with room for `room` events, and what is seen of it. -/
structure FanOut (i s room : Nat) (start : Network) (moves later : List HubMove)
    (feed : Feed Event) (seen : SourceStatus) : Prop where
  /-- There are never more events in the feed than it has room for. -/
  bounded : feed.capacity = room ∧ feed.items.length ≤ room
  /-- What was delivered and what waits are the events that came, without those that found the feed
  full. -/
  ordered : seen.done = false → received i s start moves ++ feed.items =
    ((arrivals i s start moves).filter (·.2 < room)).map Prod.fst
  /-- The others are counted. -/
  counted : seen.done = false → seen.dropped = (arrivals i s start moves).countP (room ≤ ·.2)
  /-- All events come that are distributed after the subscription has joined. -/
  complete : seen.done = false →
    (arrivals i s start moves).map Prod.fst = later.filterMap HubMove.event?
  /-- When the subscription is closed nothing more is delivered. -/
  final : seen.done = true → ∀ more, received i s start (moves ++ more) = received i s start moves
  /-- Nothing depends on moves that do not concern the subscription. -/
  isolated :
    let alone := (Reader.new room).run (later.filterMap (HubMove.own s))
    received i s start moves = alone.received ∧ seen.done = alone.isClosed ∧
      (seen.done = false → feed = alone.feed)

/-- Moves before which nothing was delivered and nothing came make no difference. -/
theorem FanOut.of_silent {i s room : Nat} {n : Network} {earlier moves later : List HubMove}
    {feed : Feed Event} {seen : SourceStatus}
    (h : FanOut i s room (after i n earlier) moves later feed seen)
    (hreceived : received i s n earlier = []) (harrivals : arrivals i s n earlier = []) :
    FanOut i s room n (earlier ++ moves) later feed seen := by
  have hreceived : ∀ ms, received i s n (earlier ++ ms) = received i s (after i n earlier) ms :=
    fun ms => by rw [received_append, hreceived, List.nil_append]
  have harrivals : arrivals i s n (earlier ++ moves) = arrivals i s (after i n earlier) moves := by
    rw [arrivals_append, harrivals, List.nil_append]
  constructor
  case bounded => exact h.bounded
  case ordered => simpa only [hreceived, harrivals] using h.ordered
  case counted => simpa only [harrivals] using h.counted
  case complete => simpa only [harrivals] using h.complete
  case final => simpa only [List.append_assoc, hreceived] using h.final
  case isolated => simpa only [hreceived] using h.isolated

/-- What is seen of a subscription. -/
theorem run_status {n : Network} {s : Nat} {sub : Subscription} {feed : Feed Event}
    (hs : n.subscriptions[s]? = some sub) (hfeed : n.feeds[sub.feed]? = some feed) :
    ((Source.subscription s).status.run n).1 =
      ⟨n.scopes.isFired sub.ready, n.scopes.isFired sub.scope, feed.dropped⟩ := by
  simp only [Source.status, StateT.run_bind, StateT.run_get, pure_bind, Source.parts?, hs, hfeed,
    Option.map_some, Option.getD_some]
  rfl

/-- From the moment at which it joins a subscription is like a reader by itself. -/
theorem Fan.Seats.fanOut_alone {n : Network} {i s room : Nat} {x : Fan} {sub : Subscription}
    (hn : n.fan? i = some x) (hx : x.Sound room) (h : x.Seats s sub (Reader.new room))
    (later : List HubMove) :
    ∃ feed, (after i n later).feeds[sub.feed]? = some feed ∧
      FanOut i s room n later later feed
        ((Source.subscription s).status.run (after i n later)).1 := by
  -- The reader after its own moves is `r`.
  obtain ⟨r, hr⟩ : ∃ r, (Reader.new room).run (later.filterMap (HubMove.own s)) = r := ⟨_, rfl⟩
  have hseat : (x.run later).Seats s sub r := hr ▸ h.run hx later
  have hbalanced : r.Balanced room := hr ▸ (Reader.balanced_new hx.room_pos).run _
  have hreceived : r.received = received i s n later := hr ▸ h.received_run hn hx later
  have harrived : r.isClosed = false → r.arrived = arrivals i s n later := by
    subst hr
    exact h.arrived_run hn hx
  obtain ⟨hfeeds, hscopes, hsubs⟩ := eq_of_fan? (fan?_after hn later)
  obtain ⟨feed, hfeed, hbounded⟩ := ((hx.run later).placed hseat.member).feed
  have hqueue : r.isClosed = false → r.feed = feed := fun hopen =>
    Option.some.inj ((hseat.serves hopen).reached.symm.trans hfeed)
  have hsub : (after i n later).subscriptions[s]? = some sub :=
    hsubs ▸ (member?_eq_some_iff.1 hseat.member).1
  have hfired : (after i n later).scopes.isFired sub.scope = r.isClosed := hscopes ▸ hseat.isFired
  rw [hfeeds] at hfeed
  refine ⟨feed, hfeed, ?_⟩
  rw [run_status hsub hfeed, hfired]
  constructor
  case bounded => exact hbounded
  case ordered =>
    intro hopen
    rw [← hreceived, ← harrived hopen, ← hqueue hopen, hbalanced.kept]
  case counted =>
    intro hopen
    rw [← harrived hopen, ← hqueue hopen, hbalanced.lost]
  case complete =>
    intro hopen
    rw [← harrived hopen, ← hr, Reader.arrived_run (hr ▸ hopen), List.filterMap_filterMap]
    simp only [HubMove.own_bind_event?]
    rfl
  case final =>
    intro hclosed more
    have hmore := h.received_run hn hx (later ++ more)
    rw [List.filterMap_append, Reader.run_append, hr, Reader.run_of_isClosed hclosed, hreceived]
      at hmore
    exact hmore.symm
  case isolated =>
    rw [hr]
    exact ⟨hreceived.symm, rfl, fun hopen => (hqueue hopen).symm⟩

/-- **Fan-out is ordered, accounts for what is lost, and keeps subscriptions apart**, in any network in
which nobody subscribes to a hub that is not there yet. -/
theorem fanOut {n : Network} (hn : ∀ sub ∈ n.subscriptions, sub.hub ≠ some n.hubs.length)
    (source : Source) (capacity : Nat) (moves : List HubMove) {s : Nat} {sub : Subscription}
    (hs : (after n.hubs.length ((startHub source capacity).run n).2 moves).member?
      n.hubs.length s = some sub) :
    let i := n.hubs.length
    let start := ((startHub source capacity).run n).2
    let now := after i start moves
    ∃ earlier later feed, moves = earlier ++ .join :: later ∧
      (after i start earlier).subscriptions.length = s ∧ now.feeds[sub.feed]? = some feed ∧
      FanOut i s (max capacity 1) start moves later feed
        ((Source.subscription s).status.run now).1 := by
  intro i start now
  have hstart : start.fan? i = some (.fresh n source capacity) := fan?_startHub n source capacity
  have hfresh := sound_fresh hn source capacity
  obtain ⟨earlier, later, rfl, hnone, rfl, rfl⟩ := Fan.exists_join
    (member?_fresh hn source capacity s) ((member?_of_fan? (fan?_after hstart moves) s).symm.trans hs)
  -- The subscription joins when the hub is `x`.
  obtain ⟨x, hx⟩ : ∃ x, (Fan.fresh n source capacity).run earlier = x := ⟨_, rfl⟩
  have hbefore : (after i start earlier).fan? i = some x := hx ▸ fan?_after hstart earlier
  have hsound : x.Sound (max capacity 1) := hx ▸ hfresh.run earlier
  have hjoined : (after i start (earlier ++ [.join])).fan? i = some x.join := by
    rw [after_append]
    exact (fan?_run hbefore .join).2
  obtain ⟨hreceived, harrivals⟩ := Fan.silent_run hstart hnone
  obtain ⟨feed, hfeed, hfanOut⟩ := hsound.seats_newcomer.fanOut_alone hjoined hsound.join later
  have hmoves : earlier ++ HubMove.join :: later = earlier ++ [.join] ++ later := by simp
  rw [← after_append, ← hmoves] at hfeed hfanOut
  subst hx
  refine ⟨earlier, later, feed, rfl, ?_, hfeed, ?_⟩
  · rw [(eq_of_fan? hbefore).2.2]
  · rw [hmoves]
    refine hfanOut.of_silent ?_ ?_
    · rw [received_append, hreceived]
      rfl
    · rw [arrivals_append, harrivals]
      rfl

/-- A hub with two subscriptions, each with room for one event.  The first one is full twice; the
second one is closed with an event that was not read, and another event comes before the hub knows. -/
theorem fanOut_of_overflow :
    let n := ((addSubscription 0 0 0 1 none).run
      (newRoot.run (newRoot.run (.new default)).2).2).2
    let i := n.hubs.length
    let start := ((startHub (.subscription 0) 0).run n).2
    let moves : List HubMove :=
      [.join, .join, .event ⟨.create, default⟩, .event ⟨.update, default⟩, .receive 1, .close 2,
        .event ⟨.delete, default⟩, .receive 2, .forget, .event ⟨.create, default⟩, .receive 1]
    let now := after i start moves
    (∀ sub ∈ n.subscriptions, sub.hub ≠ some n.hubs.length) ∧
      now.member? i 1 = some ⟨0, 5, 0, 0, some 0⟩ ∧
      received i 1 start moves = [⟨.create, default⟩, ⟨.delete, default⟩] ∧
      ∃ earlier later feed, moves = earlier ++ .join :: later ∧
        (after i start earlier).subscriptions.length = 1 ∧ now.feeds[0]? = some feed ∧
        FanOut i 1 (max 0 1) start moves later feed
          ((Source.subscription 1).status.run now).1 := by
  intro n i start moves now
  have hn : ∀ sub ∈ n.subscriptions, sub.hub ≠ some n.hubs.length := by decide
  have hmember : now.member? i 1 = some ⟨0, 5, 0, 0, some 0⟩ := by decide +kernel
  have hreceived : received i 1 start moves = [⟨.create, default⟩, ⟨.delete, default⟩] := by
    decide +kernel
  have hfanOut := fanOut hn (.subscription 0) 0 moves hmember
  refine ⟨hn, hmember, hreceived, ?_⟩
  simp only [now, start, i]
  exact hfanOut

end Network

end Replica
