import Replica.Proofs.Hub.Moves
import Replica.Proofs.Network.Scopes

/-! # What all moves at a hub keep

The subscriptions to a hub do not share anything: each has a feed of its own, which never holds more
than it has room for, and a scope of its own right below the hub's, so that none is below another
(`Fan.Sound.not_below`).  Together with the bounds that make new feeds and scopes really new this is
`Fan.Sound`, and every move keeps it (`Fan.Sound.step`). -/

namespace Replica

namespace Network

namespace Fan

variable {x : Fan} {room s s' : Nat} {sub sub' : Subscription}

/-- The subscription has a scope right below the hub's, and a feed with at most `room` events. -/
structure Placed (x : Fan) (room : Nat) (sub : Subscription) : Prop where
  parent : x.scopes.parent? sub.scope = some x.task.scope
  feed : ∃ feed, x.feeds[sub.feed]? = some feed ∧ feed.capacity = room ∧ feed.items.length ≤ room

/-- The hub runs, and its subscriptions have nothing in common. -/
structure Sound (x : Fan) (room : Nat) : Prop where
  room_pos : 0 < room
  capacity : x.task.hub.capacity = room
  scope_lt : x.task.scope < x.scopes.list.length
  root : x.scopes.parent? x.task.scope = none
  running : x.scopes.isFired x.task.scope = false
  nodup : x.task.hub.live.Nodup
  live_lt : ∀ f ∈ x.task.hub.live, f < x.feeds.length
  leaving_lt : ∀ f ∈ x.task.leaving, f < x.feeds.length
  placed : ∀ {s sub}, x.member? s = some sub → x.Placed room sub
  apart : ∀ {s s' sub sub'}, x.member? s = some sub → x.member? s' = some sub' → s ≠ s' →
    sub.feed ≠ sub'.feed ∧ sub.scope ≠ sub'.scope

/-! ### Parts of moves -/

/-- Feeds may change, as long as none holds more than it has room for. -/
theorem Sound.withFeeds (h : x.Sound room) {feeds : Feeds} (hlength : feeds.length = x.feeds.length)
    (hfeeds : ∀ (f : Nat) (feed : Feed Event), x.feeds[f]? = some feed →
      ∃ feed', feeds[f]? = some feed' ∧ feed'.capacity = feed.capacity ∧
        (feed.items.length ≤ feed.capacity → feed'.items.length ≤ feed.capacity)) :
    Sound { x with feeds } room :=
  { h with
    live_lt := fun f hf => hlength ▸ h.live_lt f hf
    leaving_lt := fun f hf => hlength ▸ h.leaving_lt f hf
    placed := by
      intro s sub hs
      obtain ⟨feed, hfeed, hcapacity, hle⟩ := (h.placed hs).feed
      obtain ⟨feed', hfeed', hcapacity', hle'⟩ := hfeeds _ feed hfeed
      have hle'' : feed'.items.length ≤ room := by omega
      exact { h.placed hs with feed := ⟨feed', hfeed', hcapacity'.trans hcapacity, hle''⟩ } }

theorem Sound.modifyFeed (h : x.Sound room) (f : FeedId) {change : Feed Event → Feed Event}
    (hchange : ∀ feed, (change feed).capacity = feed.capacity ∧
      (change feed).items.length ≤ feed.items.length) :
    Sound { x with feeds := x.feeds.modify f change } room := by
  refine h.withFeeds (List.length_modify ..) fun f' feed hfeed => ?_
  rw [List.getElem?_modify, hfeed]
  by_cases hf : f = f'
  · exact ⟨change feed, by simp [hf], (hchange feed).1, fun hle => Nat.le_trans (hchange feed).2 hle⟩
  · exact ⟨feed, by simp [hf], rfl, id⟩

/-- Whom the hub serves and who is leaving may change, as long as all of them have feeds. -/
theorem Sound.withTask (h : x.Sound room) {hub : Hub} {leaving : List FeedId}
    (hcapacity : hub.capacity = x.task.hub.capacity) (hlive : hub.live.Sublist x.task.hub.live)
    (hleaving : ∀ f ∈ leaving, f < x.feeds.length) :
    Sound { x with task := { x.task with hub, leaving } } room :=
  { h with
    capacity := hcapacity.trans h.capacity
    nodup := hlive.nodup h.nodup
    live_lt := fun f hf => h.live_lt f (hlive.subset hf)
    leaving_lt := hleaving
    placed := fun hs => { h.placed hs with } }

theorem Placed.scope_lt (h : x.Placed room sub) : sub.scope < x.scopes.list.length :=
  Scopes.lt_of_parent? h.parent

theorem Placed.feed_lt (h : x.Placed room sub) : sub.feed < x.feeds.length := by
  obtain ⟨feed, hfeed, -⟩ := h.feed
  exact (List.getElem?_eq_some_iff.1 hfeed).1

/-- The hub's scope is not below that of a subscription. -/
theorem Sound.hub_not_below (h : x.Sound room) (hs : x.member? s = some sub) :
    ¬ x.scopes.Below sub.scope x.task.scope := by
  intro hbelow
  have hparent := (h.placed hs).parent
  generalize hhub : x.task.scope = hub at hbelow
  cases hbelow with
  | refl => exact Option.some_ne_none _ (hparent.symm.trans (hhub ▸ h.root))
  | child _ hk => exact Option.some_ne_none _ (hk.symm.trans (hhub ▸ h.root))

/-- No subscription's scope is below that of another one. -/
theorem Sound.not_below (h : x.Sound room) (hs : x.member? s = some sub)
    (hs' : x.member? s' = some sub') (hne : s ≠ s') : ¬ x.scopes.Below sub.scope sub'.scope := by
  intro hbelow
  have hparent := (h.placed hs').parent
  generalize hscope : sub'.scope = scope at hbelow
  cases hbelow with
  | refl => exact (h.apart hs hs' hne).2 hscope.symm
  | child hj hk =>
      have hhub := Option.some.inj (hk.symm.trans (hscope ▸ hparent))
      exact h.hub_not_below hs (hhub ▸ hj)

theorem Sound.fire (h : x.Sound room) (hs : x.member? s = some sub) :
    Sound { x with scopes := (x.scopes.fire sub.scope).1 } room :=
  { h with
    scope_lt := by simpa only [Scopes.length_fire] using h.scope_lt
    root := (Scopes.parent?_fire ..).trans h.root
    running := (Scopes.isFired_fire_of_not_below (h.hub_not_below hs)).trans h.running
    placed := fun hs' =>
      { h.placed hs' with parent := (Scopes.parent?_fire ..).trans (h.placed hs').parent } }

/-! ### Moves -/

theorem member?_lt (hs : x.member? s = some sub) : s < x.subscriptions.length :=
  (List.getElem?_eq_some_iff.1 (member?_eq_some_iff.1 hs).1).1

theorem member?_join (x : Fan) (s : Nat) : x.join.member? s =
    if s = x.subscriptions.length then some x.newcomer else x.member? s := by
  unfold member? join
  rcases Nat.lt_trichotomy s x.subscriptions.length with h | h | h
  · simp [List.getElem?_append_left h, Nat.ne_of_lt h]
  · simp [h, newcomer]
  · rw [if_neg (Nat.ne_of_gt h), List.getElem?_eq_none (by simpa [Nat.succ_le_iff] using h),
      List.getElem?_eq_none (Nat.le_of_lt h)]

/-- Who joins gets a place of their own. -/
theorem Sound.placed_newcomer (h : x.Sound room) : x.join.Placed room x.newcomer where
  parent := (Scopes.parent?_addChild ..).trans (if_pos rfl)
  feed := by
    refine ⟨.new room, ?_, Nat.max_eq_left h.room_pos, Nat.zero_le _⟩
    simp [Fan.join, newcomer, Hub.subscribe, h.capacity]

/-- Who was there before keeps their place when somebody joins. -/
theorem Placed.join (h : x.Placed room sub) : x.join.Placed room sub where
  parent := (Scopes.parent?_addChild ..).trans ((if_neg (Nat.ne_of_lt h.scope_lt)).trans h.parent)
  feed := by
    obtain ⟨feed, hfeed, hrest⟩ := h.feed
    exact ⟨feed, (List.getElem?_append_left h.feed_lt).trans hfeed, hrest⟩

theorem Sound.join (h : x.Sound room) : x.join.Sound room where
  room_pos := h.room_pos
  capacity := h.capacity
  scope_lt := by
    simpa only [Fan.join, Scopes.length_addChild] using Nat.lt_succ_of_lt h.scope_lt
  root := (Scopes.parent?_addChild ..).trans ((if_neg (Nat.ne_of_lt h.scope_lt)).trans h.root)
  running := by
    simpa [Fan.join, Scopes.isFired_addChild, Nat.ne_of_lt h.scope_lt] using h.running
  nodup := by
    have hnew : x.feeds.length ∉ x.task.hub.live := fun hf => Nat.lt_irrefl _ (h.live_lt _ hf)
    simpa [Fan.join, Hub.subscribe, List.nodup_append, h.nodup] using
      fun f hf (heq : f = x.feeds.length) => hnew (heq ▸ hf)
  live_lt := by
    intro f hf
    simp only [Fan.join, Hub.subscribe, List.mem_append, List.mem_singleton] at hf
    simp only [Fan.join, Hub.subscribe, List.length_append, List.length_singleton]
    rcases hf with hf | rfl
    · exact Nat.lt_succ_of_lt (h.live_lt f hf)
    · exact Nat.lt_succ_self _
  leaving_lt := by
    intro f hf
    simpa [Fan.join, Hub.subscribe] using Nat.lt_succ_of_lt (h.leaving_lt f hf)
  placed := by
    intro s sub hs
    rw [member?_join] at hs
    split at hs
    · exact Option.some.inj hs ▸ h.placed_newcomer
    · exact (h.placed hs).join
  apart := by
    -- Whoever was there before has a lower feed and a lower scope.
    have hlower : ∀ {s sub}, x.member? s = some sub →
        sub.feed < x.newcomer.feed ∧ sub.scope < x.newcomer.scope := fun hs =>
      ⟨(h.placed hs).feed_lt, (h.placed hs).scope_lt⟩
    intro s s' sub sub' hs hs' hne
    rw [member?_join] at hs hs'
    split at hs <;> split at hs'
    · omega
    · obtain rfl := Option.some.inj hs
      exact ⟨Nat.ne_of_gt (hlower hs').1, Nat.ne_of_gt (hlower hs').2⟩
    · obtain rfl := Option.some.inj hs'
      exact ⟨Nat.ne_of_lt (hlower hs).1, Nat.ne_of_lt (hlower hs).2⟩
    · exact h.apart hs hs' hne

theorem Sound.distribute (h : x.Sound room) (e : Event) : (x.distribute e).Sound room := by
  have hfeeds := h.withFeeds (Hub.length_offerAll e x.task.hub.live x.feeds) fun f feed hfeed => by
    rw [Hub.getElem?_offerAll h.nodup, hfeed]
    split
    · exact ⟨(feed.offer e).1, rfl, feed.capacity_offer e, Feed.length_offer_le⟩
    · exact ⟨feed, rfl, rfl, id⟩
  exact hfeeds.withTask rfl Hub.offerAll_sublist hfeeds.leaving_lt

theorem Sound.forget (h : x.Sound room) : x.forget.Sound room := by
  unfold Fan.forget
  split
  · exact h
  · rename_i f rest hleaving
    have hfeeds : Sound { x with feeds := x.feeds.modify f Feed.close } room :=
      h.modifyFeed f fun _ => ⟨rfl, Nat.le_refl _⟩
    exact hfeeds.withTask rfl List.filter_sublist fun f' hf' =>
      hfeeds.leaving_lt f' (hleaving ▸ List.mem_cons_of_mem f hf')

theorem Sound.read (h : x.Sound room) (sub : Subscription) : (x.read sub).Sound room := by
  unfold Fan.read
  split
  · exact h
  · exact h.modifyFeed sub.feed fun feed => ⟨feed.capacity_poll, feed.length_poll_le⟩

theorem Sound.close (h : x.Sound room) (hs : x.member? s = some sub) :
    (x.close sub).Sound room := by
  unfold Fan.close
  split
  · exact h
  · refine (h.fire hs).withTask rfl (.refl _) fun f hf => ?_
    rcases List.mem_append.1 hf with hf | hf
    · exact h.leaving_lt f hf
    · exact List.mem_singleton.1 hf ▸ (h.placed hs).feed_lt

theorem Sound.abandon (h : x.Sound room) (sub : Subscription) : (x.abandon sub).Sound room :=
  h.modifyFeed sub.feed fun _ => ⟨rfl, Nat.le_refl _⟩

/-- **Every move keeps the subscriptions apart and the feeds within their bounds.** -/
theorem Sound.step (h : x.Sound room) (m : HubMove) : (x.step m).Sound room := by
  cases m with
  | join => exact h.join
  | event e => exact h.distribute e
  | forget => exact h.forget
  | receive s =>
      rw [Fan.step]
      cases x.member? s with
      | none => exact h
      | some sub => exact h.read sub
  | close s =>
      rw [Fan.step]
      cases hs : x.member? s with
      | none => exact h
      | some sub => exact h.close hs
  | drop s =>
      rw [Fan.step]
      cases hs : x.member? s with
      | none => exact h
      | some sub => exact (h.close hs).abandon sub

end Fan

end Network

end Replica
