import Replica.Proofs.Closure.Acts

/-! # Plans that are extended

When something is made of a node, or a hub gives a new subscription, the plan is extended.  What was built after
the old plan is built after the new one (`Extends.subscribes` and its kin), and what is caused to close stays so
(`Extends.caused`).

`Sound.extend` says what has to be shown of that which is new, and nothing else, for a network that has grown to
be sound. -/

namespace Replica

namespace Network

namespace Plan

/-- One plan is another one with more in it; so many scopes are old. -/
structure Extends (w w' : Plan) (scopes : Nat) : Prop where
  subscriptions : w.parts.subscriptions <+: w'.parts.subscriptions
  keepers : w.parts.keepers <+: w'.parts.keepers
  hubs : w.parts.hubs <+: w'.parts.hubs
  views : w.parts.views <+: w'.parts.views
  observers : w.parts.observers <+: w'.parts.observers
  feeds : w.parts.feeds.length ≤ w'.parts.feeds.length
  poller : w'.parts.poller = w.parts.poller
  follower : w'.parts.follower = w.parts.follower
  coordinator : w'.parts.coordinator = w.parts.coordinator
  known : ∀ j, w.role j ≠ .neutral → j < scopes
  role : ∀ j < scopes, w'.role j = w.role j
  above : ∀ j < scopes, w'.above j = w.above j
  feed : ∀ f < w.parts.feeds.length, w'.feed f = w.feed f
  needs : ∀ t x, w.tree.task? t = some x → w'.needs t = w.needs t

namespace Extends

variable {w w' : Plan} {scopes : Nat} {x : Node} {j : ScopeId}

theorem grows (h : w.Extends w' scopes) : w.tree.Grows w'.tree :=
  ⟨h.subscriptions, h.hubs.map HubTask.source, h.views.map ViewTask.parent, h.observers.map ObserverTask.subscription⟩

theorem role_eq (h : w.Extends w' scopes) (hj : w.role j ≠ .neutral) : w'.role j = w.role j := h.role j (h.known j hj)

theorem life (h : w.Extends w' scopes) (hj : w.role j = .life x) : w'.role j = .life x :=
  (h.role_eq (by simp [hj])).trans hj

theorem done (h : w.Extends w' scopes) {t : TaskId} (hj : w.role j = .done t) : w'.role j = .done t :=
  (h.role_eq (by simp [hj])).trans hj

theorem ready (h : w.Extends w' scopes) (hj : w.role j = .ready) : w'.role j = .ready :=
  (h.role_eq (by simp [hj])).trans hj

theorem above_eq (h : w.Extends w' scopes) (hj : w.role j ≠ .neutral) : w'.above j = w.above j :=
  h.above j (h.known j hj)

theorem caused (h : w.Extends w' scopes) {causes : List Node} (hx : w.Caused causes x) : w'.Caused causes x := by
  obtain ⟨a, ha, hx⟩ := hx
  exact ⟨a, ha, h.grows.within hx⟩

theorem serves (h : w.Extends w' scopes) {keeper : Nat} (hs : w.Serves keeper x) : w'.Serves keeper x := by
  obtain ⟨k, y, hk, hrole, hwithin⟩ := hs
  exact ⟨k, y, Tree.getElem?_of_prefix h.keepers hk, h.life hrole, h.grows.within hwithin⟩

theorem subscribes (h : w.Extends w' scopes) {sub : Subscription} (hs : w.Subscribes sub x) : w'.Subscribes sub x where
  scope := h.life hs.scope
  ready := h.ready hs.ready
  feed := (h.feed _ hs.bound).trans hs.feed
  bound := Nat.lt_of_lt_of_le hs.bound h.feeds
  keeper := h.serves hs.keeper
  above := by
    have habove := hs.above
    rw [h.above_eq (by simp [hs.scope]), h.coordinator]
    split
    · rename_i i hi
      rw [hi] at habove
      obtain ⟨t, ht, hparent⟩ := habove
      exact ⟨t, Tree.getElem?_of_prefix h.hubs ht, hparent⟩
    · rename_i hnone
      rw [hnone] at habove
      exact habove

theorem parts? (h : w.Extends w' scopes) {s : Source} {p : SourceParts} (hp : s.parts? w.parts = some p) :
    s.parts? w'.parts = some p := by
  cases s with
  | subscription i =>
      obtain ⟨sub, hsub, rfl⟩ := Option.map_eq_some_iff.1 hp
      exact Option.map_eq_some_iff.2 ⟨sub, Tree.getElem?_of_prefix h.subscriptions hsub, rfl⟩
  | view i =>
      obtain ⟨v, hv, rfl⟩ := Option.map_eq_some_iff.1 hp
      exact Option.map_eq_some_iff.2 ⟨v, Tree.getElem?_of_prefix h.views hv, rfl⟩

theorem distributes (h : w.Extends w' scopes) {i : Nat} {t : HubTask} (hi : w.tree.hub? i = some x)
    (ht : w.Distributes i t x) : w'.Distributes i t x where
  scope := h.life ht.scope
  done := h.done ht.done
  ready := h.ready ht.ready
  keeper := h.serves ht.keeper
  needs := by
    obtain ⟨p, hp, hneeds⟩ := ht.needs
    exact ⟨p, h.parts? hp, (h.needs (.hub i) x hi).trans hneeds⟩

theorem filters (h : w.Extends w' scopes) {i : Nat} {v : ViewTask} (hi : w.tree.view? i = some x)
    (hv : w.Filters i v x) : w'.Filters i v x where
  scope := h.life hv.scope
  done := h.done hv.done
  ready := h.ready hv.ready
  feed := (h.feed _ hv.bound).trans hv.feed
  bound := Nat.lt_of_lt_of_le hv.bound h.feeds
  keeper := by
    obtain ⟨k, hk, hrole, habove⟩ := hv.keeper
    refine ⟨k, Tree.getElem?_of_prefix h.keepers hk, h.life hrole, ?_⟩
    rw [h.above_eq (by simp [hrole]), habove]
  needs := by
    obtain ⟨sub, hsub, hneeds⟩ := hv.needs
    exact ⟨sub, Tree.getElem?_of_prefix h.subscriptions hsub, (h.needs (.view i) x hi).trans hneeds⟩

theorem observes (h : w.Extends w' scopes) {i : Nat} {o : ObserverTask} (hi : w.tree.observer? i = some x)
    (ho : w.Observes i o x) : w'.Observes i o x where
  scope := h.life ho.scope
  done := h.done ho.done
  needs := by
    obtain ⟨sub, hsub, hneeds⟩ := ho.needs
    exact ⟨sub, Tree.getElem?_of_prefix h.subscriptions hsub, (h.needs (.observer i) x hi).trans hneeds⟩

theorem coordinates (h : w.Extends w' scopes) {c : CoordinatorTask} (hc : w.Coordinates c) : w'.Coordinates c where
  scope := h.life hc.scope
  done := h.done hc.done
  ready := h.ready hc.ready
  feed := (h.feed _ hc.bound).trans hc.feed
  bound := Nat.lt_of_lt_of_le hc.bound h.feeds
  keeper := by
    obtain ⟨k, hk, hrole⟩ := hc.keeper
    exact ⟨k, Tree.getElem?_of_prefix h.keepers hk, h.life hrole⟩
  hub := h.grows.hub? hc.hub
  needs := (h.needs .coordinator .pipeline rfl).trans hc.needs

theorem task? (h : w.Extends w' scopes) {t : TaskId} (ht : w.tree.task? t = some x) : w'.tree.task? t = some x := by
  cases t with
  | hub i => exact h.grows.hub? ht
  | view i => exact h.grows.view? ht
  | observer i => exact h.grows.observer? ht
  | coordinator => exact ht
  | _ => cases ht

theorem owner? (h : w.Extends w' scopes) (laid : w.Laid) (hj : j < scopes) : w'.owner? j = w.owner? j := by
  unfold Plan.owner?
  rw [h.role j hj]
  cases hrole : w.role j with
  | done t =>
      obtain ⟨x, hx⟩ := laid.told j t hrole
      exact (h.task? hx).trans hx.symm
  | _ => rfl

end Extends

/-- What is new is built after the plan. -/
structure Adds (w w' : Plan) (scopes : Nat) : Prop where
  above : ∀ j p, scopes ≤ j → w'.role j ≠ .neutral → w'.above j = some p →
    ∃ x y, w'.role j = .life x ∧ w'.role p = .life y ∧ (x = y ∨ w'.tree.up? x = some y)
  told : ∀ j t, scopes ≤ j → w'.role j = .done t → ∃ x, w'.tree.task? t = some x
  keeper : ∀ (i : Nat) (k : KeeperTask), w'.parts.keepers[i]? = some k →
    w.parts.keepers[i]? = some k ∨ ∃ x, w'.role k.scope = .life x ∧ w'.role k.done = .life x
  subscription : ∀ (s : Nat) (sub : Subscription), w'.parts.subscriptions[s]? = some sub →
    w.parts.subscriptions[s]? = some sub ∨ ∃ x, w'.tree.subscription? s = some x ∧ w'.Subscribes sub x
  hub : ∀ (i : Nat) (h : HubTask), w'.parts.hubs[i]? = some h →
    w.parts.hubs[i]? = some h ∨ ∃ x, w'.tree.hub? i = some x ∧ w'.Distributes i h x
  view : ∀ (i : Nat) (v : ViewTask), w'.parts.views[i]? = some v →
    w.parts.views[i]? = some v ∨ ∃ x, w'.tree.view? i = some x ∧ w'.Filters i v x
  observer : ∀ (i : Nat) (o : ObserverTask), w'.parts.observers[i]? = some o →
    w.parts.observers[i]? = some o ∨ ∃ x, w'.tree.observer? i = some x ∧ w'.Observes i o x

theorem Laid.extend {w w' : Plan} {scopes : Nat} (h : w.Laid) (he : w.Extends w' scopes) (ha : w.Adds w' scopes) :
    w'.Laid where
  above j p hj hp := by
    rcases Nat.lt_or_ge j scopes with hlt | hge
    · rw [he.role j hlt] at hj
      rw [he.above j hlt] at hp
      obtain ⟨x, y, hx, hy, hup⟩ := h.above j p hj hp
      exact ⟨x, y, he.life hx, he.life hy, hup.imp id he.grows.up?⟩
    · exact ha.above j p hge hj hp
  told j t hj := by
    rcases Nat.lt_or_ge j scopes with hlt | hge
    · rw [he.role j hlt] at hj
      obtain ⟨x, hx⟩ := h.told j t hj
      exact ⟨x, he.task? hx⟩
    · exact ha.told j t hge hj
  keeper i k hk := by
    rcases ha.keeper i k hk with hold | hnew
    · obtain ⟨x, hscope, hdone⟩ := h.keeper i k hold
      exact ⟨x, he.life hscope, he.life hdone⟩
    · exact hnew
  subscription s sub hs := by
    rcases ha.subscription s sub hs with hold | hnew
    · obtain ⟨x, hx, hlaid⟩ := h.subscription s sub hold
      exact ⟨x, he.grows.subscription? hx, he.subscribes hlaid⟩
    · exact hnew
  hub i t hi := by
    rcases ha.hub i t hi with hold | hnew
    · obtain ⟨x, hx, hlaid⟩ := h.hub i t hold
      exact ⟨x, he.grows.hub? hx, he.distributes hx hlaid⟩
    · exact hnew
  view i v hi := by
    rcases ha.view i v hi with hold | hnew
    · obtain ⟨x, hx, hlaid⟩ := h.view i v hold
      exact ⟨x, he.grows.view? hx, he.filters hx hlaid⟩
    · exact hnew
  observer i o hi := by
    rcases ha.observer i o hi with hold | hnew
    · obtain ⟨x, hx, hlaid⟩ := h.observer i o hold
      exact ⟨x, he.grows.observer? hx, he.observes hx hlaid⟩
    · exact hnew
  poller := by
    obtain ⟨p, hp, hrole⟩ := h.poller
    exact ⟨p, he.poller.trans hp, he.life hrole⟩
  follower := by
    obtain ⟨f, hf, hrole⟩ := h.follower
    exact ⟨f, he.follower.trans hf, he.life hrole⟩
  coordinator := by
    obtain ⟨c, hc, hlaid⟩ := h.coordinator
    exact ⟨c, he.coordinator.trans hc, he.coordinates hlaid⟩

end Plan

/-! ### Networks that have grown -/

/-- A network is another one with more in it; all that is new is open and runs. -/
structure Grown (n n' : Network) : Prop where
  subscriptions : n.subscriptions <+: n'.subscriptions
  keepers : n.keepers <+: n'.keepers
  hubs : n.hubs.map HubTask.bare <+: n'.hubs.map HubTask.bare
  views : n.views <+: n'.views
  observers : n.observers <+: n'.observers
  feeds : n.feeds.length ≤ n'.feeds.length
  scopes : n.scopes.list <+: n'.scopes.list
  ordered : n'.scopes.Ordered
  down : n'.scopes.Down
  stopped : ∀ t j, n'.Over t j → n.Over t j
  feed : ∀ (f : Nat) (feed : Feed Event), n'.feeds[f]? = some feed → ¬ feed.IsOpen → n.feeds[f]? = some feed
  view : ∀ (i : Nat) (v : ViewTask), n'.views[i]? = some v → v.view.isRunning = false → n.views[i]? = some v
  observer : ∀ (i : Nat) (o : ObserverTask), n'.observers[i]? = some o → o.phase = .stopped → n.observers[i]? = some o
  sessions : n'.sessions = n.sessions
  poller : n'.poller = n.poller
  follower : n'.follower = n.follower
  coordinator : n'.coordinator = n.coordinator

/-- What is new among the scopes fits the plan, and has not fired but where this is caused. -/
structure Fits (w w' : Plan) (causes : List Node) (scopes : Nat) (n' : Network) : Prop where
  known : ∀ j, scopes ≤ j → w'.role j ≠ .neutral → j < n'.scopes.list.length
  above : ∀ j, scopes ≤ j → w'.role j ≠ .neutral → n'.scopes.parent? j = w'.above j
  fired : ∀ j, scopes ≤ j → n'.scopes.isFired j = true → ∃ x, w'.role j = .life x ∧ w'.Caused causes x

section extend

variable {w w' : Plan} {causes : List Node} {marks : List Mark} {busy : Option Activity} {n n' : Network}
  {x : Node}

theorem Grown.isFired (hg : n.Grown n') {j : ScopeId} (hj : j < n.scopes.list.length) :
    n'.scopes.isFired j = n.scopes.isFired j := by
  have hlist := Tree.getElem?_of_prefix hg.scopes (List.getElem?_eq_getElem hj)
  simp only [Scopes.isFired, hlist, List.getElem?_eq_getElem hj]

theorem Grown.parent? (hg : n.Grown n') {j : ScopeId} (hj : j < n.scopes.list.length) :
    n'.scopes.parent? j = n.scopes.parent? j := by
  have hlist := Tree.getElem?_of_prefix hg.scopes (List.getElem?_eq_getElem hj)
  simp only [Scopes.parent?, hlist, List.getElem?_eq_getElem hj]

theorem Grown.isFired_of (hg : n.Grown n') {j : ScopeId} (h : n.scopes.isFired j = true) : n'.scopes.isFired j = true := by
  rw [hg.isFired ?_]
  · exact h
  · refine Nat.lt_of_not_le fun hle => ?_
    rw [Scopes.isFired_of_length_le _ hle] at h
    cases h

theorem Mark.Holds.grown (hg : n.Grown n') {m : Mark} (h : m.Holds n) : m.Holds n' := by
  cases m with
  | fired j => exact hg.isFired_of h
  | halted => exact fun f hf => h f (hg.follower ▸ hf)

theorem HubSound.extend {subscriptions subscriptions' : List Subscription} {i : Nat} {t : HubTask}
    (h : HubSound w causes subscriptions i t) (he : w.Extends w' n.scopes.list.length)
    (hsubscriptions : subscriptions <+: subscriptions') (hx : w.tree.hub? i = some x) :
    HubSound w' causes subscriptions' i t where
  stopped hstopped y hy := by
    obtain rfl : x = y := Option.some.inj ((he.grows.hub? hx).symm.trans hy)
    exact he.caused (h.stopped hstopped x hx)
  leaving f hf := by
    obtain ⟨hbound, hcaused⟩ := h.leaving f hf
    exact ⟨Nat.lt_of_lt_of_le hbound he.feeds, he.feed f hbound ▸ he.caused hcaused⟩
  live f hf := by
    obtain ⟨s, sub, hs, hsub, hfeed⟩ := h.live f hf
    exact ⟨s, sub, Tree.getElem?_of_prefix hsubscriptions hs, hsub, hfeed⟩
  nodup := h.nodup
  granted s hs := by
    obtain ⟨sub, hsub, hhub⟩ := h.granted s hs
    exact ⟨sub, Tree.getElem?_of_prefix hsubscriptions hsub, hhub⟩

/-- **A network that has grown is sound if what is new in it fits the plan.** -/
theorem Sound.extend (h : Sound w causes marks busy n) (hg : n.Grown n')
    (he : w.Extends w' n.scopes.list.length) (ha : w.Adds w' n.scopes.list.length)
    (hf : Fits w w' causes n.scopes.list.length n') (hskeleton : n'.skeleton = w'.parts)
    (hub : ∀ (i : Nat) (t : HubTask), n'.hubs[i]? = some t → HubSound w' causes n'.subscriptions i t)
    (seated : ∀ (s : Nat) (sub : Subscription) (i : Nat) (t : HubTask), n'.subscriptions[s]? = some sub →
      sub.hub = some i → n'.hubs[i]? = some t → sub.feed ∈ t.hub.live ∨ w'.Caused causes (.grown s)) :
    Sound w' causes marks busy n' := by
  have hstops : ∀ t x, w.tree.task? t = some x → Stops w causes n.scopes busy t →
      Stops w' causes n'.scopes busy t := by
    refine fun t x hx ht => ⟨fun y hy => ?_, fun hb j hj => hg.isFired_of (ht.fired hb j (he.needs t x hx ▸ hj))⟩
    obtain rfl : x = y := Option.some.inj ((he.task? hx).symm.trans hy)
    exact he.caused (ht.caused x hx)
  have hlength : n.scopes.list.length ≤ n'.scopes.list.length := hg.scopes.length_le
  exact
    { laid := h.laid.extend he ha
      skeleton := hskeleton
      marked := fun m hm => (h.marked m hm).grown hg
      ordered := hg.ordered
      down := hg.down
      known := by
        intro j hj
        rcases Nat.lt_or_ge j n.scopes.list.length with hlt | hge
        · exact Nat.lt_of_lt_of_le hlt hlength
        · exact hf.known j hge hj
      above := by
        intro j hj
        rcases Nat.lt_or_ge j n.scopes.list.length with hlt | hge
        · rw [he.role j hlt] at hj
          rw [hg.parent? hlt, h.above j hj, he.above j hlt]
        · exact hf.above j hge hj
      fired := by
        intro j x hj hx
        rcases Nat.lt_or_ge j n.scopes.list.length with hlt | hge
        · rw [he.owner? h.laid hlt] at hx
          exact he.caused (h.fired j x (hg.isFired hlt ▸ hj) hx)
        · obtain ⟨y, hy, hcaused⟩ := hf.fired j hge hj
          obtain rfl : y = x := Option.some.inj ((Plan.owner?_of_life hy).symm.trans hx)
          exact hcaused
      done := by
        intro j t hrole hj k hk
        rcases Nat.lt_or_ge j n.scopes.list.length with hlt | hge
        · rw [he.role j hlt] at hrole
          obtain ⟨x, hx⟩ := h.laid.told j t hrole
          exact hg.isFired_of (h.done j t hrole (hg.isFired hlt ▸ hj) k (he.needs t x hx ▸ hk))
        · obtain ⟨y, hy, -⟩ := hf.fired j hge hj
          cases hrole.symm.trans hy
      stopped := fun t j ho => (h.stopped t j (hg.stopped t j ho)).imp id hg.isFired_of
      feed := by
        intro f feed hfeed hopen
        have hold := hg.feed f feed hfeed hopen
        have hbound : f < w.parts.feeds.length := h.length_feeds ▸ (List.getElem?_eq_some_iff.1 hold).1
        exact he.feed f hbound ▸ he.caused (h.feed f feed hold hopen)
      hub := hub
      seated := seated
      view := by
        intro i v hi hr
        have hold := hg.view i v hi hr
        obtain ⟨x, hx, -⟩ := h.laid.view i v.bare (h.viewAt hold)
        exact hstops (.view i) x hx (h.view i v hold hr)
      observer := by
        intro i o hi hr y hy
        have hold := hg.observer i o hi hr
        obtain ⟨x, hx, -⟩ := h.laid.observer i o.bare (h.observerAt hold)
        obtain rfl : x = y := Option.some.inj ((he.grows.observer? hx).symm.trans hy)
        exact he.caused (h.observer i o hold hr x hx)
      coordinator := fun c hc hr => hstops .coordinator .pipeline rfl (h.coordinator c (hg.coordinator ▸ hc) hr)
      poller := fun p hp hr => he.caused (h.poller p (hg.poller ▸ hp) hr)
      follower := fun f hf hr => he.caused (h.follower f (hg.follower ▸ hf) hr)
      proper := fun f hf => h.proper f (hg.follower ▸ hf)
      session := by
        intro i s hi
        obtain ⟨hneutral, hbound⟩ := h.session i s (hg.sessions ▸ hi)
        exact ⟨(he.role _ hbound).trans hneutral, Nat.lt_of_lt_of_le hbound hlength⟩ }

end extend

end Network

end Replica
