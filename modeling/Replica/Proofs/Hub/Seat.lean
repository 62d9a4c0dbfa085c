import Replica.Proofs.Hub.Membership
import Replica.Proofs.Hub.Reader

/-! # A subscription among others

`Fan.Seats` says that a subscription to a hub is just like a `Reader`, and as long as it is not closed the
hub serves it through that reader's feed.  Every move at the hub, of whomever, keeps this, where the
reader takes only its own moves (`Fan.Seats.step`).  What the hub delivers to the subscription is what
the reader reads (`Fan.Seats.received_take`), and what comes to the one comes to the other
(`Fan.Seats.arrived_take`). -/

namespace Replica

namespace Network

/-- The feed through which a hub serves a subscription. -/
def served? (n : Network) (i s : Nat) : Option (Feed Event) := do
  let sub ← n.member? i s
  let h ← n.hubs[i]?
  if sub.feed ∈ h.hub.live then n.feeds[sub.feed]? else none

/-- The part of a delivery that is for one subscription. -/
def deliveredTo (s : Nat) (delivery : Option (Nat × Event)) : Option Event :=
  (delivery.filter (·.1 == s)).map Prod.snd

@[simp] theorem deliveredTo_none (s : Nat) : deliveredTo s none = none := rfl

theorem deliveredTo_map (s s' : Nat) (e? : Option Event) :
    deliveredTo s (e?.map (s', ·)) = if s' = s then e? else none := by
  cases e? with
  | none => simp [deliveredTo]
  | some e => by_cases h : s' = s <;> simp [deliveredTo, h]

/-- The event that a move brings to a subscription, with the number of those that wait there. -/
def arrival (n : Network) (i s : Nat) (m : HubMove) : Option (Event × Nat) := do
  let e ← m.event?
  let feed ← n.served? i s
  return (e, feed.items.length)

namespace Fan

variable {x : Fan} {room s s' : Nat} {sub sub' : Subscription} {r : Reader} {feed : Feed Event}

/-- The hub passes events on to the subscription through this feed. -/
structure Serves (x : Fan) (sub : Subscription) (feed : Feed Event) : Prop where
  live : sub.feed ∈ x.task.hub.live
  staying : sub.feed ∉ x.task.leaving
  reached : x.feeds[sub.feed]? = some feed
  isOpen : feed.IsOpen

/-- The subscription is like the reader. -/
structure Seats (x : Fan) (s : Nat) (sub : Subscription) (r : Reader) : Prop where
  member : x.member? s = some sub
  isFired : x.scopes.isFired sub.scope = r.isClosed
  serves : r.isClosed = false → x.Serves sub r.feed

/-- Whoever joins is served from then on. -/
theorem Sound.seats_newcomer (h : x.Sound room) :
    x.join.Seats x.subscriptions.length x.newcomer (Reader.new room) where
  member := by rw [member?_join, if_pos rfl]
  isFired := (Scopes.isFired_addChild ..).trans ((if_pos rfl).trans h.running)
  serves := fun _ =>
    { live := by simp [Fan.join, newcomer, Hub.subscribe]
      staying := fun hf => Nat.lt_irrefl _ (h.leaving_lt _ hf)
      reached := by simp [Fan.join, newcomer, Hub.subscribe, h.capacity, Reader.new]
      isOpen := ⟨rfl, rfl⟩ }

/-! ### Moves of the hub -/

theorem Seats.join (hx : x.Sound room) (h : x.Seats s sub r) : x.join.Seats s sub r where
  member := by rw [member?_join, if_neg (Nat.ne_of_lt (member?_lt h.member)), h.member]
  isFired := by
    have hne : sub.scope ≠ x.scopes.list.length := Nat.ne_of_lt (hx.placed h.member).scope_lt
    simpa [Fan.join, Scopes.isFired_addChild, hne] using h.isFired
  serves := fun hopen =>
    { live := List.mem_append_left _ (h.serves hopen).live
      staying := (h.serves hopen).staying
      reached :=
        (List.getElem?_append_left (hx.placed h.member).feed_lt).trans (h.serves hopen).reached
      isOpen := (h.serves hopen).isOpen }

theorem Seats.distribute (hx : x.Sound room) (h : x.Seats s sub r) (e : Event) :
    (x.distribute e).Seats s sub (r.step (.event e)) := by
  cases hr : r.isClosed with
  | true =>
      rw [Reader.step_of_isClosed hr]
      exact ⟨h.member, h.isFired, fun hopen => by simp [hr] at hopen⟩
  | false =>
      obtain ⟨hlive, hstaying, hfeed, hisOpen⟩ := h.serves hr
      have htaken : (r.feed.offer e).2 ≠ .refused := by
        rw [Feed.offer_of_isOpen hisOpen]
        split <;> simp
      rw [Reader.step_event hr]
      refine ⟨h.member, h.isFired, fun _ => ⟨?_, hstaying, ?_, hisOpen.offer e⟩⟩
      · exact (Hub.mem_offerAll hx.nodup).2 ⟨hlive, r.feed, hfeed, htaken⟩
      · exact (Hub.getElem?_offerAll hx.nodup).trans (by rw [if_pos hlive, hfeed]; rfl)

theorem Seats.forget (h : x.Seats s sub r) : x.forget.Seats s sub r := by
  unfold Fan.forget
  split
  · exact h
  · rename_i f rest hleaving
    refine ⟨h.member, h.isFired, fun hopen => ?_⟩
    obtain ⟨hlive, hstaying, hfeed, hisOpen⟩ := h.serves hopen
    rw [hleaving, List.mem_cons, not_or] at hstaying
    exact ⟨Hub.mem_live_unsubscribe.2 ⟨hlive, hstaying.1⟩, hstaying.2,
      (List.getElem?_modify_ne _ _ (Ne.symm hstaying.1)).trans hfeed, hisOpen⟩

/-! ### Moves of subscribers -/

/-- What happens to other feeds does not matter, nor what happens to one that is not read any more. -/
theorem Seats.modifyFeed (h : x.Seats s sub r) {f : FeedId} (change : Feed Event → Feed Event)
    (hf : r.isClosed = false → f ≠ sub.feed) :
    Seats { x with feeds := x.feeds.modify f change } s sub r :=
  ⟨h.member, h.isFired, fun hopen =>
    { h.serves hopen with
      reached := (List.getElem?_modify_ne _ _ (hf hopen)).trans (h.serves hopen).reached }⟩

theorem Seats.read_self (h : x.Seats s sub r) : (x.read sub).Seats s sub (r.step .receive) := by
  unfold Fan.read
  rw [h.isFired]
  cases hr : r.isClosed with
  | true => exact (Reader.step_of_isClosed hr _).symm ▸ h
  | false =>
      obtain ⟨hlive, hstaying, hfeed, hisOpen⟩ := h.serves hr
      rw [if_neg Bool.false_ne_true, Reader.step_receive hr]
      refine ⟨h.member, h.isFired, fun _ => ⟨hlive, hstaying, ?_, hisOpen.poll⟩⟩
      exact (List.getElem?_modify_eq _ _ _).trans (by rw [hfeed]; rfl)

theorem Seats.read_other (h : x.Seats s sub r) (hne : sub'.feed ≠ sub.feed) :
    (x.read sub').Seats s sub r := by
  unfold Fan.read
  split
  · exact h
  · exact h.modifyFeed _ fun _ => hne

theorem Seats.close_self (hx : x.Sound room) (h : x.Seats s sub r) :
    (x.close sub).Seats s sub (r.step .close) := by
  unfold Fan.close
  rw [h.isFired]
  cases hr : r.isClosed with
  | true => exact (Reader.step_of_isClosed hr _).symm ▸ h
  | false =>
      rw [if_neg Bool.false_ne_true, Reader.step_close hr]
      refine ⟨h.member, ?_, fun hopen => by simp at hopen⟩
      exact Scopes.isFired_fire_self (hx.placed h.member).scope_lt

theorem Seats.close_other (hx : x.Sound room) (h : x.Seats s sub r) (hs' : x.member? s' = some sub')
    (hne : s' ≠ s) : (x.close sub').Seats s sub r := by
  unfold Fan.close
  split
  · exact h
  · refine ⟨h.member, ?_, fun hopen => { h.serves hopen with staying := ?_ }⟩
    · exact (Scopes.isFired_fire_of_not_below (hx.not_below hs' h.member hne)).trans h.isFired
    · simpa [(hx.apart hs' h.member hne).1.symm] using (h.serves hopen).staying

/-- **A move at the hub is to a subscription what it would be to the reader alone.** -/
theorem Seats.step (hx : x.Sound room) (h : x.Seats s sub r) (m : HubMove) :
    (x.step m).Seats s sub (r.take (m.own s)) := by
  cases m with
  | join => exact h.join hx
  | event e => exact h.distribute hx e
  | forget => exact h.forget
  | receive s' =>
      rw [Fan.step, HubMove.own]
      split
      · rename_i hself
        rw [hself, h.member]
        exact h.read_self
      · rename_i hne
        cases hs' : x.member? s' with
        | none => exact h
        | some sub' => exact h.read_other (hx.apart hs' h.member hne).1
  | close s' =>
      rw [Fan.step, HubMove.own]
      split
      · rename_i hself
        rw [hself, h.member]
        exact h.close_self hx
      · rename_i hne
        cases hs' : x.member? s' with
        | none => exact h
        | some sub' => exact h.close_other hx hs' hne
  | drop s' =>
      rw [Fan.step, HubMove.own]
      split
      · rename_i hself
        rw [hself, h.member]
        exact (h.close_self hx).modifyFeed _ fun hopen => by
          simp [Reader.isClosed_step_close] at hopen
      · rename_i hne
        cases hs' : x.member? s' with
        | none => exact h
        | some sub' =>
            exact (h.close_other hx hs' hne).modifyFeed _ fun _ => (hx.apart hs' h.member hne).1

/-! ### What is seen of a subscription -/

/-- What there is to read on a subscription is what the reader reads. -/
theorem Seats.received_receive (h : x.Seats s sub r) :
    (r.step .receive).received = r.received ++ (x.polled sub).item?.toList := by
  unfold polled
  rw [h.isFired]
  cases hr : r.isClosed with
  | true =>
      simp [Reader.step_of_isClosed hr, Polled.item?]
  | false =>
      rw [Reader.step_receive hr, if_neg Bool.false_ne_true, (h.serves hr).reached]
      rfl

/-- **What is delivered to a subscription is what the reader reads.** -/
theorem Seats.received_take (h : x.Seats s sub r) (m : HubMove) :
    (r.take (m.own s)).received = r.received ++ (deliveredTo s (x.delivery m)).toList := by
  cases m with
  | join | forget => simp [HubMove.own, delivery]
  | event e => simp [HubMove.own, delivery, Reader.received_step_of_ne (m := .event e)]
  | close s' | drop s' =>
      rw [HubMove.own]
      split
      · simp [delivery, Reader.received_step_of_ne (m := .close)]
      · simp [delivery]
  | receive s' =>
      rw [HubMove.own, delivery]
      cases hs' : x.member? s' with
      | none =>
          have hne : s' ≠ s := by
            rintro rfl
            simp [h.member] at hs'
          simp [hne]
      | some sub' =>
          rw [Option.bind_some, deliveredTo_map]
          split
          · rename_i hself
            obtain rfl : sub = sub' := by simpa [hself, h.member] using hs'
            exact h.received_receive
          · simp

/-- **What comes to a subscription that is not closed comes to the reader.** -/
theorem Seats.arrived_take {n : Network} {i : Nat} (hn : n.fan? i = some x) (h : x.Seats s sub r)
    (hopen : r.isClosed = false) (m : HubMove) :
    (r.take (m.own s)).arrived = r.arrived ++ (n.arrival i s m).toList := by
  have hserved : n.served? i s = some r.feed := by
    obtain ⟨task, hi, rfl⟩ := Option.map_eq_some_iff.1 hn
    have hmember : n.member? i s = some sub := h.member
    have hserves := h.serves hopen
    have hlive : sub.feed ∈ task.hub.live := hserves.live
    simpa [served?, hmember, hi, hlive] using hserves.reached
  cases m with
  | join | forget => simp [HubMove.own, arrival, HubMove.event?]
  | event e => simp [HubMove.own, Reader.step_event hopen, arrival, HubMove.event?, hserved]
  | receive s' =>
      rw [HubMove.own]
      split
      · simp [arrival, HubMove.event?, Reader.arrived_step_of_event? (m := .receive) rfl]
      · simp [arrival, HubMove.event?]
  | close s' | drop s' =>
      rw [HubMove.own]
      split
      · simp [arrival, HubMove.event?, Reader.arrived_step_of_event? (m := .close) rfl]
      · simp [arrival, HubMove.event?]

end Fan

end Network

end Replica
