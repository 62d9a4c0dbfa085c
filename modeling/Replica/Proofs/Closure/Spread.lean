import Replica.Proofs.Closure.Beginning
import Replica.Proofs.Closure.Shutdown

/-! # Closing spreads downwards

What is closed, is cancelled or fails is a cause, and what is `Caused` to close is at a cause or below it.

* All other nodes are `Running`: nothing of them is closed, and they deliver (`Sound.running`).
* Once the network has `Settled`, whatever is caused to close has `Ended`: it is closed as a whole, no event is
  read of it any more, and nobody can subscribe to it (`Sound.ended`).

A task learns from its own scope, or from the source that it reads, that it is to stop.  Before it tells that it
has stopped it has closed its source, and so a node ends as a whole whichever part of it was told first
(`Sound.closes_of_ends`).  From node to node, closing gets by the scopes of the subscriptions, which are below that
of their hub (`Sound.closes_of_up`). -/

namespace Replica

namespace Network

/-! ### What can be said of a node -/

/-- Some cause is at the node or above it. -/
def Caused (n : Network) (causes : List Node) (x : Node) : Prop := ∃ a ∈ causes, n.tree.Within a x

/-- Nothing of the node is closed. -/
structure Running (n : Network) (x : Node) : Prop where
  /-- A subscription or a view is open, and reading it gives what has arrived. -/
  source : ∀ (s : Source) (p : SourceParts), n.tree.source? s = some x → s.parts? n = some p →
    n.scopes.isFired p.scope = false ∧ n.scopes.isFired p.done = false ∧
      ∃ feed, n.feeds[p.feed]? = some feed ∧ feed.IsOpen ∧ (s.next.run n).1 = feed.poll.2
  /-- Every event that a hub distributes is offered to its subscription. -/
  event : ∀ (s i : Nat) (sub : Subscription) (e : Event), n.subscriptions[s]? = some sub →
    n.tree.subscription? s = some x → sub.hub = some i →
      ((actForHub i (.event e)).run n).2.feeds[sub.feed]? = n.feeds[sub.feed]?.map fun feed => (feed.offer e).1
  hub : ∀ (i : Nat) (t : HubTask), n.hubs[i]? = some t → n.tree.hub? i = some x →
    n.scopes.isFired t.scope = false ∧ n.scopes.isFired t.done = false ∧ t.isStopped = false
  view : ∀ (i : Nat) (v : ViewTask), n.views[i]? = some v → n.tree.view? i = some x → v.view.isRunning = true
  observer : ∀ (i : Nat) (o : ObserverTask), n.observers[i]? = some o → n.tree.observer? i = some x →
    n.scopes.isFired o.scope = false ∧ n.scopes.isFired o.done = false ∧ o.phase ≠ .stopped
  coordinator : x = .pipeline → ∀ c, n.coordinator = some c →
    n.scopes.isFired c.scope = false ∧ n.scopes.isFired c.done = false ∧ c.coordinator.isRunning = true
  poller : x = .pipeline → ∀ p, n.poller = some p → p.poller.phase ≠ .stopped
  follower : x = .pipeline → ∀ f, n.follower = some f → f.follower.isStopped = false

/-- Everything of the node is closed. -/
structure Ended (n : Network) (x : Node) : Prop where
  /-- A subscription or a view is closed, and no event is read of it. -/
  source : ∀ (s : Source) (p : SourceParts), n.tree.source? s = some x → s.parts? n = some p →
    n.scopes.isFired p.scope = true ∧ n.scopes.isFired p.done = true ∧ (s.next.run n).1 = .ended
  hub : ∀ (i : Nat) (t : HubTask), n.hubs[i]? = some t → n.tree.hub? i = some x →
    n.scopes.isFired t.scope = true ∧ n.scopes.isFired t.done = true
  observer : ∀ (i : Nat) (o : ObserverTask), n.observers[i]? = some o → n.tree.observer? i = some x →
    n.scopes.isFired o.done = true
  coordinator : x = .pipeline → ∀ c, n.coordinator = some c →
    n.scopes.isFired c.scope = true ∧ n.scopes.isFired c.done = true
  /-- Nobody can subscribe to a branch. -/
  branch : ∀ b : Branch, b.At n x → b.subscribe.run.run n = (.error .notRunning, n)

variable {w : Plan} {causes : List Node} {marks : List Mark} {n : Network} {x y : Node}

namespace Sound

theorem caused_iff (h : Sound w causes marks none n) : n.Caused causes x ↔ w.Caused causes x := by
  rw [Network.Caused, Plan.Caused, h.tree_eq]

theorem hubPlan (h : Sound w causes marks none n) {i : Nat} {t : HubTask} (hi : n.hubs[i]? = some t)
    (hx : n.tree.hub? i = some x) : w.Distributes i t.bare x := by
  obtain ⟨y, hy, hlaid⟩ := h.laid.hub i t.bare (h.hubAt hi)
  obtain rfl : y = x := Option.some.inj (hy.symm.trans (h.tree_eq ▸ hx))
  exact hlaid

theorem viewPlan (h : Sound w causes marks none n) {i : Nat} {v : ViewTask} (hi : n.views[i]? = some v)
    (hx : n.tree.view? i = some x) : w.Filters i v.bare x := by
  obtain ⟨y, hy, hlaid⟩ := h.laid.view i v.bare (h.viewAt hi)
  obtain rfl : y = x := Option.some.inj (hy.symm.trans (h.tree_eq ▸ hx))
  exact hlaid

theorem observerPlan (h : Sound w causes marks none n) {i : Nat} {o : ObserverTask} (hi : n.observers[i]? = some o)
    (hx : n.tree.observer? i = some x) : w.Observes i o.bare x := by
  obtain ⟨y, hy, hlaid⟩ := h.laid.observer i o.bare (h.observerAt hi)
  obtain rfl : y = x := Option.some.inj (hy.symm.trans (h.tree_eq ▸ hx))
  exact hlaid

theorem subscriptionPlan (h : Sound w causes marks none n) {s : Nat} {sub : Subscription} (hs : n.subscriptions[s]? = some sub)
    (hx : n.tree.subscription? s = some x) : w.Subscribes sub x := by
  obtain ⟨y, hy, hlaid⟩ := h.laid.subscription s sub (h.subscriptionAt hs)
  obtain rfl : y = x := Option.some.inj (hy.symm.trans (h.tree_eq ▸ hx))
  exact hlaid

end Sound

/-! ### What is not caused to close runs -/

/-- Nobody subscribes to a branch whose scope has fired. -/
theorem run_subscribe_of_fired {b : Branch} {l : ScopeId × ScopeId} (hl : b.life? n = some l)
    (hfired : n.scopes.isFired l.1 = true) : b.subscribe.run.run n = (.error .notRunning, n) := by
  have hget : (MonadState.get : Op Network).run.run n = (.ok n, n) := rfl
  rw [Branch.subscribe, ExceptT.run_bind, run_bind, hget]
  dsimp only
  rw [hl]
  cases b.hub? n with
  | none => rfl
  | some t =>
      dsimp only
      rw [if_pos (by simp [hfired])]
      rfl

namespace Sound

variable {s i : Nat} {sub : Subscription} {e : Event}

theorem unfired (h : Sound w causes marks none n) (hx : ¬ w.Caused causes x) {j : ScopeId} (hj : w.owner? j = some x) :
    n.scopes.isFired j = false :=
  Bool.eq_false_iff.2 fun hfired => hx (h.fired j x hfired hj)

/-- What tells that a source has ended belongs to the node of the source. -/
theorem owner?_done (h : Sound w causes marks none n) {s : Source} {p : SourceParts} (hx : n.tree.source? s = some x)
    (hp : s.parts? n = some p) : w.owner? p.done = some x := by
  cases s with
  | subscription i =>
      obtain ⟨sub, hsub, rfl⟩ := Option.map_eq_some_iff.1 hp
      exact Plan.owner?_of_life (h.subscriptionPlan hsub hx).scope
  | view i =>
      obtain ⟨v, hv, rfl⟩ := Option.map_eq_some_iff.1 hp
      exact (Plan.owner?_of_done (h.viewPlan hv hx).done).trans (h.tree_eq ▸ hx)

/-- A hub offers every event to a subscription that is not caused to close. -/
theorem offered (h : Sound w causes marks none n) (hx : ¬ w.Caused causes x) (hs : n.subscriptions[s]? = some sub)
    (hnode : n.tree.subscription? s = some x) (hhub : sub.hub = some i) :
    ((actForHub i (.event e)).run n).2.feeds[sub.feed]? = n.feeds[sub.feed]?.map fun feed => (feed.offer e).1 := by
  obtain rfl : x = .grown s := by
    obtain ⟨sub', hsub', rfl⟩ := Option.map_eq_some_iff.1 hnode
    obtain rfl : sub = sub' := Option.some.inj (hs.symm.trans hsub')
    simp [hhub]
  have habove := (h.subscriptionPlan hs hnode).above
  rw [hhub] at habove
  obtain ⟨t', ht', -⟩ := habove
  obtain ⟨t, hi, -⟩ := h.exists_hub ht'
  have hlive : sub.feed ∈ t.hub.live := (h.seated s sub i t hs hhub hi).resolve_right hx
  have hfeeds := congrArg Network.feeds (data_event hi e)
  rw [show ((actForHub i (.event e)).run n).2.feeds = (t.hub.distribute n.feeds e).2 from hfeeds]
  exact (Hub.getElem?_offerAll (h.hub i t hi).nodup).trans (if_pos hlive)

/-- **What is not caused to close runs.** -/
theorem running (h : Sound w causes marks none n) (hx : ¬ w.Caused causes x) : n.Running x where
  source s p hnode hp := by
    have hemits := h.laid.emits (h.tree_eq ▸ hnode) (h.parts? s ▸ hp)
    have hscope := h.unfired hx (Plan.owner?_of_life hemits.scope)
    have hbound : p.feed < n.feeds.length := h.length_feeds ▸ hemits.bound
    have hfeed := List.getElem?_eq_getElem hbound
    refine ⟨hscope, h.unfired hx (h.owner?_done hnode hp), n.feeds[p.feed], hfeed, ?_, ?_⟩
    · exact Classical.byContradiction fun hopen => hx (hemits.feed ▸ h.feed p.feed _ hfeed hopen)
    · rw [run_next_of_open hp hscope, (data_readFeed p.feed n).1, hfeed]
      rfl
  event s i sub e hs hnode hhub := h.offered hx hs hnode hhub
  hub i t hi hnode := by
    have hlaid := h.hubPlan hi hnode
    refine ⟨h.unfired hx (Plan.owner?_of_life hlaid.scope), h.unfired hx ?_, Bool.eq_false_iff.2 fun hstopped => hx ?_⟩
    · exact (Plan.owner?_of_done hlaid.done).trans (h.tree_eq ▸ hnode)
    · exact (h.hub i t hi).stopped hstopped x (h.tree_eq ▸ hnode)
  view i v hi hnode := by
    refine eq_true_of_ne_false fun hstopped => hx ?_
    exact (h.view i v hi hstopped).caused x (h.tree_eq ▸ hnode)
  observer i o hi hnode := by
    have hlaid := h.observerPlan hi hnode
    refine ⟨h.unfired hx (Plan.owner?_of_life hlaid.scope), h.unfired hx ?_, fun hstopped => hx ?_⟩
    · exact (Plan.owner?_of_done hlaid.done).trans (h.tree_eq ▸ hnode)
    · exact h.observer i o hi hstopped x (h.tree_eq ▸ hnode)
  coordinator hroot c hc := by
    subst hroot
    have hlaid := h.coordinates hc
    refine ⟨h.unfired hx (Plan.owner?_of_life hlaid.scope), h.unfired hx (Plan.owner?_of_done hlaid.done), ?_⟩
    exact eq_true_of_ne_false fun hstopped => hx ((h.coordinator c hc hstopped).caused .pipeline rfl)
  poller hroot p hp hstopped := hx (hroot ▸ h.poller p hp hstopped)
  follower hroot f hf := Bool.eq_false_iff.2 fun hstopped => hx (hroot ▸ h.follower f hf hstopped)

end Sound

/-! ### What is caused to close ends -/

namespace Sound

variable {s i : Nat} {sub : Subscription}

theorem fired_needs (h : Sound w causes marks none n) {j k : ScopeId} {t : TaskId} (hrole : w.role j = .done t)
    (hj : n.scopes.isFired j = true) (hk : k ∈ w.needs t) : n.scopes.isFired k = true :=
  h.done j t hrole hj k hk

/-- Where the subscription at a node is closed, everything that was made of it closes. -/
structure Closes (n : Network) (x : Node) : Prop where
  subscription : ∀ (s : Nat) (sub : Subscription), n.subscriptions[s]? = some sub → n.tree.subscription? s = some x →
    n.scopes.isFired sub.scope = true
  coordinator : x = .pipeline → ∀ c, n.coordinator = some c → n.scopes.isFired c.scope = true

variable (hsettled : n.Settled)
include hsettled

/-! #### What has been told to stop has told that it has stopped -/

theorem done_of_hub (h : Sound w causes marks none n) {t : HubTask} {p : SourceParts} (hi : n.hubs[i]? = some t)
    (hp : t.source.parts? n = some p)
    (fired : n.scopes.isFired t.scope = true ∨ n.scopes.isFired p.scope = true) : n.scopes.isFired t.done = true :=
  h.isFired_of_over (t := .hub i) ⟨t, hi, hsettled.hub hi hp fired, rfl⟩

/-- A view that waits for the end of its store waits in vain only as long as the store has not stopped. -/
theorem done_of_view (h : Sound w causes marks none n) {v : ViewTask} (hi : n.views[i]? = some v)
    (hs : n.subscriptions[v.parent]? = some sub)
    (fired : n.scopes.isFired v.scope = true ∨ n.scopes.isFired sub.scope = true) : n.scopes.isFired v.done = true := by
  rcases hsettled.view hi hs fired with hstopped | ⟨hstopping, hunfired⟩
  · exact h.isFired_of_over (t := .view i) ⟨v, hi, hstopped, rfl⟩
  · obtain ⟨x, -, hlaid⟩ := h.laid.view i v.bare (h.viewAt hi)
    obtain ⟨sub', -, hneeds⟩ := hlaid.needs
    obtain ⟨k', hk', hrole, habove⟩ := hlaid.keeper
    obtain ⟨k, hk, rfl⟩ := h.exists_keeper hk'
    have hstops := h.view i v hi (by rw [View.isRunning, hstopping])
    have hscope : n.scopes.isFired v.scope = true := hstops.isFired (by simp [hneeds, ViewTask.bare])
    rw [← h.above k.bare.scope (by simp [hrole])] at habove
    have hstore : n.scopes.isFired k.scope = true := h.down _ _ habove hscope
    cases (hunfired k hk).symm.trans (hsettled.keeper hk hstore)

theorem done_of_observer (h : Sound w causes marks none n) {o : ObserverTask} (hi : n.observers[i]? = some o)
    (hs : n.subscriptions[o.subscription]? = some sub)
    (fired : n.scopes.isFired o.scope = true ∨ n.scopes.isFired sub.scope = true) : n.scopes.isFired o.done = true :=
  h.isFired_of_over (t := .observer i) ⟨o, hi, hsettled.observer hi hs fired, rfl⟩

/-! #### From the subscription at a node to the whole node -/

/-- A view ends with its subscription. -/
theorem view_of_subscription (h : Sound w causes marks none n) (hcloses : Closes n x) {v : ViewTask}
    (hi : n.views[i]? = some v) (hx : n.tree.view? i = some x) :
    n.scopes.isFired v.scope = true ∧ n.scopes.isFired v.done = true := by
  have hlaid := h.viewPlan hi hx
  obtain ⟨sub, hsub, hneeds⟩ := hlaid.needs
  rw [← h.skeleton] at hsub
  have hnode : n.tree.subscription? v.parent = some x := by
    simpa [Tree.view?, Network.tree, hi] using hx
  have hdone := done_of_view hsettled h hi hsub (.inr (hcloses.subscription _ sub hsub hnode))
  exact ⟨h.fired_needs hlaid.done hdone (by simp [hneeds, ViewTask.bare]), hdone⟩

/-- A source ends with the subscription at its node. -/
theorem source_of_subscription (h : Sound w causes marks none n) (hcloses : Closes n x) {s : Source} {p : SourceParts}
    (hx : n.tree.source? s = some x) (hp : s.parts? n = some p) :
    n.scopes.isFired p.scope = true ∧ n.scopes.isFired p.done = true := by
  cases s with
  | subscription i =>
      obtain ⟨sub, hsub, rfl⟩ := Option.map_eq_some_iff.1 hp
      have hscope := hcloses.subscription i sub hsub hx
      exact ⟨hscope, hscope⟩
  | view i =>
      obtain ⟨v, hv, rfl⟩ := Option.map_eq_some_iff.1 hp
      exact view_of_subscription hsettled h hcloses hv hx

/-- A hub ends with the subscription at its node. -/
theorem hub_of_subscription (h : Sound w causes marks none n) (hcloses : Closes n x) {t : HubTask}
    (hi : n.hubs[i]? = some t) (hx : n.tree.hub? i = some x) :
    n.scopes.isFired t.scope = true ∧ n.scopes.isFired t.done = true := by
  have hlaid := h.hubPlan hi hx
  obtain ⟨p, hp, hneeds⟩ := hlaid.needs
  rw [← h.parts?] at hp
  have hsource : n.tree.source? t.source = some x := by
    simpa [Tree.hub?, Network.tree, hi] using hx
  have hdone := done_of_hub hsettled h hi hp (.inr (source_of_subscription hsettled h hcloses hsource hp).1)
  exact ⟨h.fired_needs hlaid.done hdone (by simp [hneeds, HubTask.bare]), hdone⟩

omit hsettled in
/-- All subscriptions at the root close with the coordinator. -/
theorem closes_of_coordinator (h : Sound w causes marks none n) {c : CoordinatorTask} (hc : n.coordinator = some c)
    (hfired : n.scopes.isFired c.scope = true) : Closes n .pipeline where
  subscription s sub hs hx := by
    have hlaid := h.subscriptionPlan hs hx
    have hnone : sub.hub = none := by
      obtain ⟨sub', hsub', hnode⟩ := Option.map_eq_some_iff.1 hx
      obtain rfl : sub = sub' := Option.some.inj (hs.symm.trans hsub')
      split at hnode
      · cases hnode
      · rename_i hnone
        simpa using hnone
    have habove := hlaid.above
    rw [hnone] at habove
    obtain ⟨c', hc', hparent⟩ := habove
    obtain rfl : c.bare = c' := by simpa [← h.skeleton, Network.skeleton, hc] using hc'
    rw [← h.above sub.scope (by simp [hlaid.scope])] at hparent
    exact h.down sub.scope c.scope hparent hfired
  coordinator _ c' hc' := by
    obtain rfl : c = c' := Option.some.inj (hc.symm.trans hc')
    exact hfired

/-- The coordinator that has been told to stop has told that it has stopped.  It waits for the end of its hub, and
that has stopped when the pipeline's scope has fired. -/
theorem done_of_coordinator (h : Sound w causes marks none n) {c : CoordinatorTask} (hc : n.coordinator = some c)
    (htold : n.scopes.isFired c.scope = true ∨
      ∃ f out, n.follower = some f ∧ f.follower.output = some out ∧ out.isSealed = true) :
    n.scopes.isFired c.done = true := by
  rcases hsettled.coordinator hc htold with hclosed | ⟨hclosing, hunfired⟩
  · exact h.isFired_of_over (t := .coordinator) ⟨c, hc, hclosed, rfl⟩
  · have hlaid := h.coordinates hc
    have hstops := h.coordinator c hc (by rw [Coordinator.isRunning, hclosing])
    have hscope : n.scopes.isFired c.scope = true := hstops.isFired (by simp [hlaid.needs, CoordinatorTask.bare])
    have hnode : n.tree.hub? c.hub = some .pipeline := h.tree_eq ▸ hlaid.hub
    obtain ⟨source, hsource, -⟩ := Option.bind_eq_some_iff.1 hnode
    rw [tree, List.getElem?_map] at hsource
    obtain ⟨t, ht, -⟩ := Option.map_eq_some_iff.1 hsource
    have hdone := (hub_of_subscription hsettled h (closes_of_coordinator h hc hscope) ht hnode).2
    cases (hunfired t ht).symm.trans hdone

/-- **A node at which the subscription is closed ends as a whole.** -/
theorem ended_of_subscription (h : Sound w causes marks none n) (hcloses : Closes n x) : n.Ended x where
  source s p hx hp := by
    obtain ⟨hscope, hdone⟩ := source_of_subscription hsettled h hcloses hx hp
    exact ⟨hscope, hdone, by rw [run_next_of_closed hp hscope]⟩
  hub i t hi hx := hub_of_subscription hsettled h hcloses hi hx
  observer i o hi hx := by
    obtain ⟨sub, hsub, -⟩ := (h.observerPlan hi hx).needs
    rw [← h.skeleton] at hsub
    have hnode : n.tree.subscription? o.subscription = some x := by
      simpa [Tree.observer?, Network.tree, hi] using hx
    exact done_of_observer hsettled h hi hsub (.inr (hcloses.subscription _ sub hsub hnode))
  coordinator hroot c hc := by
    have hscope := hcloses.coordinator hroot c hc
    exact ⟨hscope, done_of_coordinator hsettled h hc (.inl hscope)⟩
  branch b hb := by
    have hlife : ∃ l, b.life? n = some l ∧ n.scopes.isFired l.1 = true := by
      cases hb with
      | pipeline hpipeline =>
          obtain ⟨c, hc, -⟩ := h.exists_coordinator
          exact ⟨(c.scope, c.done), by simp [Branch.life?, hpipeline, hc], hcloses.coordinator rfl c hc⟩
      | grown hgrown hx =>
          obtain ⟨source, hsource, -⟩ := Option.bind_eq_some_iff.1 hx
          rw [tree, List.getElem?_map] at hsource
          obtain ⟨t, ht, -⟩ := Option.map_eq_some_iff.1 hsource
          exact ⟨(t.scope, t.done), by simp [Branch.life?, hgrown, Branch.hub?, ht],
            (hub_of_subscription hsettled h hcloses ht hx).1⟩
    obtain ⟨l, hl, hfired⟩ := hlife
    exact run_subscribe_of_fired hl hfired

/-! ### From what is told to the whole node -/

omit hsettled in
theorem closes_of_fired {k : Nat} (hs : n.subscriptions[s]? = some sub) (hx : n.tree.subscription? s = some (.grown k))
    (hfired : n.scopes.isFired sub.scope = true) : Closes n (.grown k) where
  subscription s' sub' hs' hx' := by
    have hnode : ∀ {s : Nat}, n.tree.subscription? s = some (.grown k) → s = k := by
      intro s hs
      obtain ⟨sub, -, hsub⟩ := Option.map_eq_some_iff.1 hs
      split at hsub
      · exact Node.grown.inj hsub
      · cases hsub
    obtain rfl : s = s' := (hnode hx).trans (hnode hx').symm
    obtain rfl : sub = sub' := Option.some.inj (hs.symm.trans hs')
    exact hfired
  coordinator := nofun

/-- A source that is told to close closes the subscription at its node. -/
theorem closes_of_source (h : Sound w causes marks none n) {s : Source} {p : SourceParts} {k : Nat}
    (hx : n.tree.source? s = some (.grown k)) (hp : s.parts? n = some p) (hfired : n.scopes.isFired p.scope = true) :
    Closes n (.grown k) := by
  cases s with
  | subscription i =>
      obtain ⟨sub, hsub, rfl⟩ := Option.map_eq_some_iff.1 hp
      exact closes_of_fired hsub hx hfired
  | view i =>
      obtain ⟨v, hv, rfl⟩ := Option.map_eq_some_iff.1 hp
      have hlaid := h.viewPlan hv hx
      obtain ⟨sub, hsub, hneeds⟩ := hlaid.needs
      rw [← h.skeleton] at hsub
      have hnode : n.tree.subscription? v.parent = some (.grown k) := by
        simpa [Tree.source?, Tree.view?, Network.tree, hv] using hx
      have hdone := done_of_view hsettled h hv hsub (.inl hfired)
      exact closes_of_fired hsub hnode (h.fired_needs hlaid.done hdone (by simp [hneeds]))

/-- **Whichever part of a node is told to close, the subscription at the node is closed.** -/
theorem closes_of_ends (h : Sound w causes marks none n) {a : Node} {m : Mark} (hends : w.Ends a m) (hm : m.Holds n) :
    Closes n a := by
  cases hends with
  | @subscription s sub hs hx =>
      rw [← h.skeleton] at hs
      exact closes_of_fired hs (h.tree_eq ▸ hx) hm
  | @view i s v' hi hx =>
      obtain ⟨v, hv, rfl⟩ := h.exists_view hi
      have hp : (Source.view i).parts? n = some ⟨v.feed, v.scope, v.keeper, v.ready, v.done⟩ :=
        Option.map_eq_some_iff.2 ⟨v, hv, rfl⟩
      exact closes_of_source hsettled h (s := .view i) (h.tree_eq ▸ hx) hp hm
  | @hub i s t' hi hx =>
      obtain ⟨t, ht, rfl⟩ := h.exists_hub hi
      rw [← h.tree_eq] at hx
      have hlaid := h.hubPlan ht hx
      obtain ⟨p, hp, hneeds⟩ := hlaid.needs
      rw [← h.parts?] at hp
      have hsource : n.tree.source? t.source = some (.grown s) := by
        simpa [Tree.hub?, Network.tree, ht] using hx
      have hdone := done_of_hub hsettled h ht hp (.inl hm)
      exact closes_of_source hsettled h hsource hp (h.fired_needs hlaid.done hdone (by simp [hneeds]))
  | @observer i s o' hi hx =>
      obtain ⟨o, ho, rfl⟩ := h.exists_observer hi
      rw [← h.tree_eq] at hx
      have hlaid := h.observerPlan ho hx
      obtain ⟨sub, hsub, hneeds⟩ := hlaid.needs
      rw [← h.skeleton] at hsub
      have hnode : n.tree.subscription? o.subscription = some (.grown s) := by
        simpa [Tree.observer?, Network.tree, ho] using hx
      have hdone := done_of_observer hsettled h ho hsub (.inl hm)
      exact closes_of_fired hsub hnode (h.fired_needs hlaid.done hdone (by simp [hneeds]))
  | @pipeline c' hc' =>
      rw [← h.skeleton] at hc'
      obtain ⟨c, hc, rfl⟩ := Option.map_eq_some_iff.1 hc'
      exact closes_of_coordinator h hc hm
  | halted =>
      obtain ⟨c, hc, hlaid⟩ := h.exists_coordinator
      obtain ⟨f, hf, -⟩ := h.exists_follower
      obtain ⟨out, hout, hsealed⟩ := (hm f hf).output
      have hdone := done_of_coordinator hsettled h hc (.inr ⟨f, out, hf, hout, hsealed⟩)
      exact closes_of_coordinator h hc (h.fired_needs hlaid.done hdone (by simp [hlaid.needs, CoordinatorTask.bare]))

omit hsettled in
/-- **A node closes with the one right above it.** -/
theorem closes_of_up (h : Sound w causes marks none n) (hup : w.tree.up? x = some y) (hy : n.Ended y) : Closes n x := by
  rw [← h.tree_eq] at hup
  cases x with
  | pipeline => cases hup
  | grown s =>
      obtain ⟨i, hi, hhub⟩ := Option.bind_eq_some_iff.1 hup
      obtain ⟨sub, hs, hsub⟩ := Option.bind_eq_some_iff.1 hi
      have hx : n.tree.subscription? s = some (.grown s) :=
        Option.map_eq_some_iff.2 ⟨sub, hs, by simp [hsub]⟩
      have hlaid := h.subscriptionPlan hs hx
      have habove := hlaid.above
      rw [hsub] at habove
      obtain ⟨t', ht', hparent⟩ := habove
      obtain ⟨t, ht, rfl⟩ := h.exists_hub ht'
      rw [← h.above sub.scope (by simp [hlaid.scope])] at hparent
      exact closes_of_fired hs hx (h.down sub.scope t.scope hparent (hy.hub i t ht hhub).1)

/-- **What is caused to close ends as a whole.** -/
theorem ended (h : Sound w causes marks none n) (hends : ∀ a ∈ causes, ∃ m ∈ marks, w.Ends a m)
    (hx : w.Caused causes x) : n.Ended x := by
  obtain ⟨a, ha, hwithin⟩ := hx
  obtain ⟨m, hm, hend⟩ := hends a ha
  induction hwithin with
  | refl => exact ended_of_subscription hsettled h (closes_of_ends hsettled h hend (h.marked m hm))
  | grow _ hup ih => exact ended_of_subscription hsettled h (closes_of_up h hup ih)

end Sound

/-! ### Runs -/

/-- **Closing spreads downwards, and nowhere else.**  After any run of a pipeline with everything that has grown
from it, what is not caused to close runs; and once the network has settled, what is caused to close has ended. -/
theorem closure_spreads_down {server : Option Server} {settings : Settings} {detached : Bool} {n₀ n : Network}
    {above : ScopeId} {branch : Branch} {causes : List Node}
    (h₀ : ofPipeline server settings detached = .ok (n₀, above, branch)) (h : n₀.Run causes n) :
    (∀ x, ¬ n.Caused causes x → n.Running x) ∧ (n.Settled → ∀ x, n.Caused causes x → n.Ended x) := by
  obtain ⟨w, marks, hsound, hends⟩ := (closing_ofPipeline h₀).run h
  constructor
  · intro x hx
    exact hsound.running (mt hsound.caused_iff.2 hx)
  · intro hsettled x hx
    exact hsound.ended hsettled hends (hsound.caused_iff.1 hx)

/-- A pipeline that has just been started. -/
def started : Network :=
  match ofPipeline (some default) default false with
  | .ok (n, _) => n
  | .error _ => default

theorem ofPipeline_started : ofPipeline (some default) default false = .ok (started, 0, ⟨0, none, true⟩) := rfl

/-- The pipeline gives two subscriptions, a view is made of the first one and an observer of the second one.  The
view is closed, and goes through its end. -/
theorem closure_spreads_down_of_siblings : ∃ n : Network, started.Run [.grown 1] n ∧
    n.tree.view? 0 = some (.grown 1) ∧ n.tree.observer? 0 = some (.grown 2) ∧
      n.Running .pipeline ∧ n.Running (.grown 2) ∧ n.Settled ∧ n.Ended (.grown 1) := by
  have hstart : started.Run [] started := .start
  have hfirst := (hstart.happen (.apply 0)).proceed (.hub 0)
  have hsecond := (hfirst.happen (.apply 0)).proceed (.hub 0)
  have hview := hsecond.happen (.startView (s := 1) (k := 1) (by decide +kernel) .acceptAll false)
  have hobserver := hview.happen (.startObserver (s := 2) (k := 2) (by decide +kernel) default)
  have hclosed := hobserver.happen (.close (s := .view 0) (k := 1) (by decide +kernel))
  have hended := ((hclosed.proceed (.view 0)).proceed (.keeper 1)).proceed (.view 0)
  obtain ⟨hruns, hends⟩ := closure_spreads_down ofPipeline_started hended
  refine ⟨_, hended, by decide +kernel, by decide +kernel, hruns _ ?_, hruns _ ?_, ?_, hends ?_ _ ?_⟩
  · rintro ⟨a, ha, hwithin⟩
    obtain rfl := List.mem_singleton.1 ha
    cases hwithin with
    | grow _ hup => cases hup
  · rintro ⟨a, ha, hwithin⟩
    obtain rfl := List.mem_singleton.1 ha
    cases hwithin with
    | grow hy hup =>
        -- right above the second subscription is the pipeline, and nothing is above that
        obtain rfl := Option.some.inj (hup.symm.trans (by decide +kernel : _ = some Node.pipeline))
        cases hy with
        | grow _ hup => cases hup
  · decide +kernel
  · decide +kernel
  · exact ⟨.grown 1, List.mem_singleton_self _, .refl⟩

end Network

end Replica
