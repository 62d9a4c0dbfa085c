import Replica.Proofs.Closure.Growth
import Replica.Proofs.View.Turn

/-! # What is made of a source

Of a source a hub, a view or an observer is made.  Each is a part with scopes of its own (`Part`) that is open
and runs when it is made (`Part.IsNew`), and the network with it is sound if it fits the plan (`Sound.extend_made`).
The three parts do: `grow_hubbed`, `grow_observed` and `grow_viewed`. -/

namespace Replica

namespace Network

variable {w : Plan} {causes : List Node} {marks : List Mark} {busy : Option Activity} {n : Network} {x : Node}

/-- What is made of a source, with what is planned of it. -/
structure Part where
  node : Node
  /-- All scopes, those that are made for it last. -/
  scopes : Scopes
  /-- What the new scopes are for. -/
  roles : List Role
  task : TaskId
  /-- The scopes that have fired when the task tells that it has stopped. -/
  needs : List ScopeId
  feed : Option (Feed Event) := none
  keeper : Option KeeperTask := none
  hub : Option HubTask := none
  view : Option ViewTask := none
  observer : Option ObserverTask := none

/-- The network with the part. -/
def made (n : Network) (p : Part) : Network :=
  { n with
    scopes := p.scopes
    feeds := n.feeds ++ p.feed.toList
    keepers := n.keepers ++ p.keeper.toList
    hubs := n.hubs ++ p.hub.toList
    views := n.views ++ p.view.toList
    observers := n.observers ++ p.observer.toList }

/-- A hub that has just started. -/
def HubTask.IsFresh (t : HubTask) : Prop :=
  t.isStopped = false ∧ t.leaving = [] ∧ t.hub.live = [] ∧ t.granted = none

/-- Nothing of the part has been there, and it is open and runs. -/
structure Part.IsNew (p : Part) (n : Network) : Prop where
  scopes : n.scopes.Widens p.scopes
  roles : n.scopes.list.length + p.roles.length ≤ p.scopes.list.length
  task : n.tree.task? p.task = none
  feed : ∀ f ∈ p.feed, f.IsOpen
  hub : ∀ t ∈ p.hub, t.IsFresh
  view : ∀ v ∈ p.view, v.view.isRunning = true
  observer : ∀ o ∈ p.observer, o.phase ≠ .stopped

namespace Plan

/-- The plan with the part. -/
def make (w : Plan) (n : Network) (p : Part) : Plan := w.grow n (n.made p) p.node p.roles (some p.task) p.needs

/-- The part is built after the plan. -/
structure Places (w : Plan) (n : Network) (p : Part) : Prop where
  above : ∀ j k, n.scopes.list.length ≤ j → p.scopes.parent? j = some k →
    w.role j = .life p.node ∧ w.role k = .life p.node
  told : ∀ t, .done t ∈ p.roles → w.tree.task? t = some p.node
  keeper : ∀ k ∈ p.keeper, w.role k.scope = .life p.node ∧ w.role k.done = .life p.node
  hub : ∀ t ∈ p.hub, w.tree.hub? n.hubs.length = some p.node ∧ w.Distributes n.hubs.length t.bare p.node
  view : ∀ v ∈ p.view, w.tree.view? n.views.length = some p.node ∧ w.Filters n.views.length v.bare p.node
  observer : ∀ o ∈ p.observer,
    w.tree.observer? n.observers.length = some p.node ∧ w.Observes n.observers.length o.bare p.node

end Plan

/-- What is there when one thing more may have been made is what was there, or new. -/
theorem mem_of_getElem?_made {α : Type} {l : List α} {o : Option α} {i : Nat} {a : α}
    (hi : (l ++ o.toList)[i]? = some a) : l[i]? = some a ∨ i = l.length ∧ a ∈ o := by
  cases o with
  | none => exact .inl (by simpa using hi)
  | some b =>
      rcases Tree.getElem?_of_concat hi with hold | ⟨hlast, rfl⟩
      · exact .inl hold
      · exact .inr ⟨hlast, rfl⟩

theorem mem_of_getElem?_bare {α : Type} {l : List α} {o : Option α} {bare : α → α} {i : Nat} {a : α}
    (hi : ((l ++ o.toList).map bare)[i]? = some a) :
    (l.map bare)[i]? = some a ∨ i = l.length ∧ ∃ b ∈ o, bare b = a := by
  rw [List.getElem?_map] at hi ⊢
  obtain ⟨b, hb, rfl⟩ := Option.map_eq_some_iff.1 hi
  rcases mem_of_getElem?_made hb with hold | ⟨hlast, hnew⟩
  · exact .inl (by rw [hold]; rfl)
  · exact .inr ⟨hlast, b, hnew, rfl⟩

section made

variable {p : Part}

theorem grown_made (hp : p.IsNew n) : n.Grown (n.made p) where
  subscriptions := List.prefix_refl _
  keepers := List.prefix_append _ _
  hubs := (List.prefix_append _ _).map HubTask.bare
  views := List.prefix_append _ _
  observers := List.prefix_append _ _
  feeds := by simp [made]
  scopes := hp.scopes.list
  ordered := hp.scopes.ordered
  down := hp.scopes.down
  stopped := by
    intro u j ho
    cases u with
    | hub k =>
        obtain ⟨t, hk, hr, rfl⟩ := ho
        rcases mem_of_getElem?_made hk with hold | ⟨-, hnew⟩
        · exact ⟨t, hold, hr, rfl⟩
        · cases (hp.hub t hnew).1.symm.trans hr
    | view k =>
        obtain ⟨v, hk, hr, rfl⟩ := ho
        rcases mem_of_getElem?_made hk with hold | ⟨-, hnew⟩
        · exact ⟨v, hold, hr, rfl⟩
        · have hrunning := hp.view v hnew
          rw [View.isRunning, hr] at hrunning
          cases hrunning
    | observer k =>
        obtain ⟨o, hk, hr, rfl⟩ := ho
        rcases mem_of_getElem?_made hk with hold | ⟨-, hnew⟩
        · exact ⟨o, hold, hr, rfl⟩
        · exact absurd hr (hp.observer o hnew)
    | _ => exact ho
  feed f feed hf hopen := by
    rcases mem_of_getElem?_made hf with hold | ⟨-, hnew⟩
    · exact hold
    · exact absurd (hp.feed feed hnew) hopen
  view i v hi hr := by
    rcases mem_of_getElem?_made hi with hold | ⟨-, hnew⟩
    · exact hold
    · cases (hp.view v hnew).symm.trans hr
  observer i o hi hr := by
    rcases mem_of_getElem?_made hi with hold | ⟨-, hnew⟩
    · exact hold
    · exact absurd hr (hp.observer o hnew)
  sessions := rfl
  poller := rfl
  follower := rfl
  coordinator := rfl

theorem Sound.extends_make (h : Sound w causes marks busy n) (hp : p.IsNew n) :
    w.Extends (w.make n p) n.scopes.list.length := by
  refine h.extends_grow (grown_made hp) fun t y ht heq => ?_
  obtain rfl := Option.some.inj heq
  rw [← h.tree_eq, hp.task] at ht
  cases ht

theorem Sound.adds_make (h : Sound w causes marks busy n) (hplaces : (w.make n p).Places n p) :
    w.Adds (w.make n p) n.scopes.list.length where
  above j k hge _ hk := by
    rw [show (w.make n p).above j = p.scopes.parent? j from if_neg (Nat.not_lt.2 hge)] at hk
    obtain ⟨hj, hk⟩ := hplaces.above j k hge hk
    exact ⟨p.node, p.node, hj, hk, .inl rfl⟩
  told j t hge hj := ⟨p.node, hplaces.told t (Plan.mem_of_role_grow hge hj (by simp))⟩
  keeper i k hi := by
    rcases mem_of_getElem?_bare hi with hold | ⟨-, k, hk, rfl⟩
    · exact .inl (h.skeleton ▸ hold)
    · exact .inr ⟨p.node, hplaces.keeper k hk⟩
  subscription s sub hs := .inl (h.skeleton ▸ hs)
  hub i t hi := by
    rcases mem_of_getElem?_bare hi with hold | ⟨rfl, t, ht, rfl⟩
    · exact .inl (h.skeleton ▸ hold)
    · exact .inr ⟨p.node, hplaces.hub t ht⟩
  view i v hi := by
    rcases mem_of_getElem?_bare hi with hold | ⟨rfl, v, hv, rfl⟩
    · exact .inl (h.skeleton ▸ hold)
    · exact .inr ⟨p.node, hplaces.view v hv⟩
  observer i o hi := by
    rcases mem_of_getElem?_bare hi with hold | ⟨rfl, o, ho, rfl⟩
    · exact .inl (h.skeleton ▸ hold)
    · exact .inr ⟨p.node, hplaces.observer o ho⟩

theorem fits_make (hp : p.IsNew n) : Fits w (w.make n p) causes n.scopes.list.length (n.made p) where
  known j hge hj := by
    obtain ⟨k, rfl, hk⟩ := Plan.exists_of_role_grow hge hj
    exact Nat.lt_of_lt_of_le (Nat.add_lt_add_left hk _) hp.roles
  above j hge _ := (if_neg (Nat.not_lt.2 hge)).symm
  fired j hge hj := by cases (hp.scopes.unfired j hge).symm.trans hj

/-- **A network in which something is made of a source stays sound.**  Nobody subscribes to what is new. -/
theorem Sound.extend_made (h : Sound w causes marks busy n) (hp : p.IsNew n) (hplaces : (w.make n p).Places n p) :
    Sound (w.make n p) causes marks busy (n.made p) := by
  have hg := grown_made hp
  have he := h.extends_make hp
  refine h.extend hg he (h.adds_make hplaces) (fits_make hp) rfl (fun i t hi => ?_) fun s sub i t hs hsub hi => ?_
  · rcases mem_of_getElem?_made hi with hold | ⟨-, hnew⟩
    · obtain ⟨x, hx, -⟩ := h.laid.hub i t.bare (h.hubAt hold)
      exact (h.hub i t hold).extend he hg.subscriptions hx
    · obtain ⟨hstopped, hleaving, hlive, hgranted⟩ := hp.hub t hnew
      exact
        { stopped := fun hr => absurd hr (by simp [hstopped])
          leaving := by simp [hleaving]
          live := by simp [hlive]
          nodup := by simp [hlive]
          granted := by simp [hgranted] }
  · rcases mem_of_getElem?_made hi with hold | ⟨rfl, -⟩
    · exact (h.seated s sub i t hs hsub hold).imp id he.caused
    · have habove := (h.subscribes_of_hub hs hsub).1.above
      rw [hsub] at habove
      obtain ⟨t', ht', -⟩ := habove
      rw [← h.skeleton] at ht'
      have hlt : n.hubs.length < n.hubs.length := by
        simpa [Network.skeleton] using (List.getElem?_eq_some_iff.1 ht').1
      exact absurd hlt (Nat.lt_irrefl _)

end made

/-! ### Hubs and observers

Each of them has a lifetime and a signal that it has stopped, and both stand alone. -/

theorem widens_roots (h : Sound w causes marks busy n) : n.scopes.Widens n.scopes.addRoot.1.addRoot.1 :=
  (Scopes.Widens.refl h.ordered h.down).addRoot.addRoot

theorem parent?_roots {j : ScopeId} (hge : n.scopes.list.length ≤ j) :
    n.scopes.addRoot.1.addRoot.1.parent? j = none := by
  rw [Scopes.parent?_addRoot, Scopes.parent?_addRoot, Scopes.parent?_of_length_le hge]

section startHub

variable {source : Source} {p : SourceParts} {capacity : Nat}

/-- The network in which a hub on a source has just started. -/
def hubbed (n : Network) (source : Source) (capacity : Nat) (p : SourceParts) : Network :=
  { n with
    scopes := n.scopes.addRoot.1.addRoot.1
    hubs := n.hubs ++ [⟨.new capacity, source, n.scopes.list.length, p.ready, n.scopes.list.length + 1, p.keeper, [],
      false, none, true, false⟩] }

theorem data_startHub (hp : source.parts? n = some p) (capacity : Nat) :
    ((startHub source capacity).run n).2.data = (n.hubbed source capacity p).data := by
  have hlength : n.scopes.addRoot.1.addRoot.2 = n.scopes.list.length + 1 := by simp [Scopes.addRoot]
  rw [hubbed, ← hlength]
  simp only [startHub, StateT.run_bind, StateT.run_get, pure_bind, hp]
  rfl

/-- The hub, at the node of its source. -/
def Part.ofHub (n : Network) (source : Source) (capacity : Nat) (p : SourceParts) (x : Node) : Part where
  node := x
  scopes := n.scopes.addRoot.1.addRoot.1
  roles := [.life x, .done (.hub n.hubs.length)]
  task := .hub n.hubs.length
  needs := [n.scopes.list.length, p.scope]
  hub := some ⟨.new capacity, source, n.scopes.list.length, p.ready, n.scopes.list.length + 1, p.keeper, [], false,
    none, true, false⟩

theorem hubbed_eq_made (x : Node) : n.hubbed source capacity p = n.made (.ofHub n source capacity p x) := by
  simp [hubbed, made, Part.ofHub]

theorem isNew_ofHub (h : Sound w causes marks busy n) : (Part.ofHub n source capacity p x).IsNew n where
  scopes := widens_roots h
  roles := by simp [Part.ofHub, Scopes.addRoot]
  task := by simp [Part.ofHub, Tree.task?, Tree.hub?, tree]
  feed f hf := absurd hf (Option.not_mem_none f)
  hub := by
    rintro t ⟨⟩
    exact ⟨rfl, rfl, rfl, rfl⟩
  view v hv := absurd hv (Option.not_mem_none v)
  observer o ho := absurd ho (Option.not_mem_none o)

theorem hub?_make (h : Sound w causes marks busy n) (hx : w.tree.source? source = some x) :
    (w.make n (.ofHub n source capacity p x)).tree.hub? n.hubs.length = some x := by
  have hsource : (w.make n (.ofHub n source capacity p x)).parts.hubs[n.hubs.length]?.map HubTask.source =
      some source := by
    simp [Plan.make, Plan.grow, made, Part.ofHub, skeleton, HubTask.bare]
  simp only [Tree.hub?, Plan.tree, tree, List.getElem?_map, hsource]
  exact (h.extends_make (isNew_ofHub h)).grows.source? hx

theorem places_ofHub (h : Sound w causes marks busy n) (hx : w.tree.source? source = some x)
    (hp : source.parts? n = some p) :
    (w.make n (.ofHub n source capacity p x)).Places n (.ofHub n source capacity p x) where
  above j k hge hk := by cases (parent?_roots hge).symm.trans hk
  told t ht := by
    obtain rfl : t = .hub n.hubs.length := by simpa [Part.ofHub] using ht
    exact hub?_make h hx
  keeper k hk := absurd hk (Option.not_mem_none k)
  hub := by
    rintro t ⟨⟩
    have he : w.Extends (w.make n (.ofHub n source capacity p x)) n.scopes.list.length := h.extends_make (isNew_ofHub h)
    have hemits := h.laid.emits hx (h.parts? source ▸ hp)
    exact ⟨hub?_make h hx,
      { scope := Plan.role_grow 0
        done := Plan.role_grow 1
        ready := he.ready hemits.ready
        keeper := he.serves hemits.keeper
        needs := ⟨p, he.parts? (h.parts? source ▸ hp), if_pos rfl⟩ }⟩
  view v hv := absurd hv (Option.not_mem_none v)
  observer o ho := absurd ho (Option.not_mem_none o)

/-- **A hub is made of a source.** -/
theorem grow_hubbed (h : Sound w causes marks busy n) (hx : w.tree.source? source = some x)
    (hp : source.parts? n = some p) (capacity : Nat) :
    ∃ w', w.Extends w' n.scopes.list.length ∧ Sound w' causes marks busy (n.hubbed source capacity p) := by
  have hnew : (Part.ofHub n source capacity p x).IsNew n := isNew_ofHub h
  rw [hubbed_eq_made x]
  exact ⟨_, h.extends_make hnew, h.extend_made hnew (places_ofHub h hx hp)⟩

end startHub

section startObserver

variable {s : Nat} {sub : Subscription} {interest : Observer.Interest}

/-- The network in which an observer of a subscription has just started. -/
def observed (n : Network) (s : Nat) (interest : Observer.Interest) : Network :=
  { n with
    scopes := n.scopes.addRoot.1.addRoot.1
    observers := n.observers ++
      [⟨.waiting, interest, s, n.scopes.list.length, n.scopes.list.length + 1, [], none⟩] }

theorem data_startObserver (n : Network) (s : Nat) (interest : Observer.Interest) :
    ((startObserver s interest).run n).2.data = (n.observed s interest).data := by
  have hlength : n.scopes.addRoot.1.addRoot.2 = n.scopes.list.length + 1 := by simp [Scopes.addRoot]
  rw [observed, ← hlength]
  rfl

/-- The observer, at the node of its subscription. -/
def Part.ofObserver (n : Network) (s : Nat) (interest : Observer.Interest) (sub : Subscription) (x : Node) : Part where
  node := x
  scopes := n.scopes.addRoot.1.addRoot.1
  roles := [.life x, .done (.observer n.observers.length)]
  task := .observer n.observers.length
  needs := [sub.scope]
  observer := some ⟨.waiting, interest, s, n.scopes.list.length, n.scopes.list.length + 1, [], none⟩

theorem observed_eq_made (sub : Subscription) (x : Node) :
    n.observed s interest = n.made (.ofObserver n s interest sub x) := by
  simp [observed, made, Part.ofObserver]

theorem isNew_ofObserver (h : Sound w causes marks busy n) : (Part.ofObserver n s interest sub x).IsNew n where
  scopes := widens_roots h
  roles := by simp [Part.ofObserver, Scopes.addRoot]
  task := by simp [Part.ofObserver, Tree.task?, Tree.observer?, tree]
  feed f hf := absurd hf (Option.not_mem_none f)
  hub t ht := absurd ht (Option.not_mem_none t)
  view v hv := absurd hv (Option.not_mem_none v)
  observer := by
    rintro o ⟨⟩ hr
    cases hr

theorem observer?_make (h : Sound w causes marks busy n) (hx : w.tree.subscription? s = some x) :
    (w.make n (.ofObserver n s interest sub x)).tree.observer? n.observers.length = some x := by
  have hwatched : (w.make n (.ofObserver n s interest sub x)).parts.observers[n.observers.length]?.map
      ObserverTask.subscription = some s := by
    simp [Plan.make, Plan.grow, made, Part.ofObserver, skeleton, ObserverTask.bare]
  simp only [Tree.observer?, Plan.tree, tree, List.getElem?_map, hwatched]
  exact (h.extends_make (isNew_ofObserver h)).grows.subscription? hx

theorem places_ofObserver (h : Sound w causes marks busy n) (hx : w.tree.subscription? s = some x)
    (hs : n.subscriptions[s]? = some sub) :
    (w.make n (.ofObserver n s interest sub x)).Places n (.ofObserver n s interest sub x) where
  above j k hge hk := by cases (parent?_roots hge).symm.trans hk
  told t ht := by
    obtain rfl : t = .observer n.observers.length := by simpa [Part.ofObserver] using ht
    exact observer?_make h hx
  keeper k hk := absurd hk (Option.not_mem_none k)
  hub t ht := absurd ht (Option.not_mem_none t)
  view v hv := absurd hv (Option.not_mem_none v)
  observer := by
    rintro o ⟨⟩
    exact ⟨observer?_make h hx,
      { scope := Plan.role_grow 0, done := Plan.role_grow 1, needs := ⟨sub, hs, if_pos rfl⟩ }⟩

/-- **An observer is made of a subscription.** -/
theorem grow_observed (h : Sound w causes marks busy n) (hx : w.tree.subscription? s = some x)
    (hs : n.subscriptions[s]? = some sub) (interest : Observer.Interest) :
    ∃ w', w.Extends w' n.scopes.list.length ∧ Sound w' causes marks busy (n.observed s interest) := by
  have hnew : (Part.ofObserver n s interest sub x).IsNew n := isNew_ofObserver h
  rw [observed_eq_made sub x]
  exact ⟨_, h.extends_make hnew, h.extend_made hnew (places_ofObserver h hx hs)⟩

end startObserver

/-! ### Views

A view has a lifetime, a store of its own with a lifetime below that, and three signals that stand alone. -/

section startView

variable {s : Nat} {sub : Subscription} {filter : Filter} {deferred : Bool} {capacity : Nat}

/-- The view with its store, at the node of its subscription. -/
def Part.ofView (n : Network) (s : Nat) (filter : Filter) (deferred : Bool) (capacity : Nat) (sub : Subscription)
    (x : Node) : Part where
  node := x
  scopes := (n.scopes.addRoot.1.addChild n.scopes.list.length).1.addRoot.1.addRoot.1.addRoot.1
  roles := [.life x, .life x, .life x, .ready, .done (.view n.views.length)]
  task := .view n.views.length
  needs := [n.scopes.list.length, sub.scope]
  feed := some (.new capacity)
  keeper := some ⟨.new filter, n.scopes.list.length + 1, n.scopes.list.length + 2⟩
  view := some ⟨.new filter deferred, s, n.keepers.length, n.feeds.length, n.scopes.list.length,
    n.scopes.list.length + 3, n.scopes.list.length + 4, none, none⟩

theorem viewed_eq_made (sub : Subscription) (x : Node) :
    n.viewed s filter deferred capacity = n.made (.ofView n s filter deferred capacity sub x) := by
  simp [viewed, made, Part.ofView]

theorem isNew_ofView (h : Sound w causes marks busy n) : (Part.ofView n s filter deferred capacity sub x).IsNew n where
  scopes := by
    have hroot : n.scopes.Widens n.scopes.addRoot.1 := (Scopes.Widens.refl h.ordered h.down).addRoot
    exact (hroot.addChild (Nat.le_refl _) (by simp [Scopes.addRoot])).addRoot.addRoot.addRoot
  roles := by simp [Part.ofView, Scopes.addRoot, Scopes.addChild]
  task := by simp [Part.ofView, Tree.task?, Tree.view?, tree]
  feed := by
    rintro f ⟨⟩
    exact ⟨rfl, rfl⟩
  hub t ht := absurd ht (Option.not_mem_none t)
  view := by
    rintro v ⟨⟩
    rfl
  observer o ho := absurd ho (Option.not_mem_none o)

/-- Of the scopes of a view only that of its store is below another one. -/
theorem parent?_viewed {j : ScopeId} (hge : n.scopes.list.length ≤ j) :
    (n.viewed s filter deferred capacity).scopes.parent? j =
      if j = n.scopes.list.length + 1 then some n.scopes.list.length else none := by
  have hlength : n.scopes.addRoot.1.list.length = n.scopes.list.length + 1 := by simp [Scopes.addRoot]
  simp only [viewed, Scopes.parent?_addRoot, Scopes.parent?_addChild, hlength, Scopes.parent?_of_length_le hge]

theorem view?_make (h : Sound w causes marks busy n) (hx : w.tree.subscription? s = some x) :
    (w.make n (.ofView n s filter deferred capacity sub x)).tree.view? n.views.length = some x := by
  have hparent : (w.make n (.ofView n s filter deferred capacity sub x)).parts.views[n.views.length]?.map
      ViewTask.parent = some s := by
    simp [Plan.make, Plan.grow, made, Part.ofView, skeleton, ViewTask.bare]
  simp only [Tree.view?, Plan.tree, tree, List.getElem?_map, hparent]
  exact (h.extends_make (isNew_ofView h)).grows.subscription? hx

/-- The store of the view is below the view. -/
theorem above_make : (w.make n (.ofView n s filter deferred capacity sub x)).above (n.scopes.list.length + 1) =
    some n.scopes.list.length := by
  have hparent : (n.viewed s filter deferred capacity).scopes.parent? (n.scopes.list.length + 1) =
      some n.scopes.list.length := (parent?_viewed (Nat.le_succ _)).trans (if_pos rfl)
  exact (if_neg (Nat.not_lt.2 (Nat.le_succ _))).trans hparent

theorem keepers_make : (w.make n (.ofView n s filter deferred capacity sub x)).parts.keepers[n.keepers.length]? =
    some ⟨.new .acceptAll, n.scopes.list.length + 1, n.scopes.list.length + 2⟩ := by
  simp [Plan.make, Plan.grow, made, Part.ofView, skeleton, KeeperTask.bare]

theorem places_ofView (h : Sound w causes marks busy n) (hx : w.tree.subscription? s = some x)
    (hs : n.subscriptions[s]? = some sub) :
    (w.make n (.ofView n s filter deferred capacity sub x)).Places n (.ofView n s filter deferred capacity sub x) where
  above j k hge hk := by
    change (n.viewed s filter deferred capacity).scopes.parent? j = some k at hk
    rw [parent?_viewed hge] at hk
    split at hk
    · rename_i hj
      subst hj
      obtain rfl := Option.some.inj hk
      exact ⟨Plan.role_grow 1, Plan.role_grow 0⟩
    · cases hk
  told t ht := by
    obtain rfl : t = .view n.views.length := by simpa [Part.ofView] using ht
    exact view?_make h hx
  keeper := by
    rintro k ⟨⟩
    exact ⟨Plan.role_grow 1, Plan.role_grow 2⟩
  hub t ht := absurd ht (Option.not_mem_none t)
  view := by
    rintro v ⟨⟩
    exact ⟨view?_make h hx,
      { scope := Plan.role_grow 0
        done := Plan.role_grow 4
        ready := Plan.role_grow 3
        feed := if_neg (Nat.lt_irrefl _)
        bound := by simp [Plan.make, Plan.grow, made, Part.ofView, skeleton, ViewTask.bare]
        keeper := ⟨_, keepers_make, Plan.role_grow 1, above_make⟩
        needs := ⟨sub, hs, if_pos rfl⟩ }⟩
  observer o ho := absurd ho (Option.not_mem_none o)

/-- **A view is made of a subscription.** -/
theorem grow_viewed (h : Sound w causes marks busy n) (hx : w.tree.subscription? s = some x)
    (hs : n.subscriptions[s]? = some sub) (filter : Filter) (deferred : Bool) (capacity : Nat) :
    ∃ w', w.Extends w' n.scopes.list.length ∧ Sound w' causes marks busy (n.viewed s filter deferred capacity) := by
  have hnew : (Part.ofView n s filter deferred capacity sub x).IsNew n := isNew_ofView h
  rw [viewed_eq_made sub x]
  exact ⟨_, h.extends_make hnew, h.extend_made hnew (places_ofView h hx hs)⟩

end startView

end Network

end Replica
