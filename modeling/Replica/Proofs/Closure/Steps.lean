import Replica.Proofs.Closure.Plan

/-! # What keeps a network sound

One lemma for each thing that is changed in a network: a scope fires (`Sound.fire`), a feed is written, read or
ended (`Sound.feeds`), a component is changed (`Sound.modifyHub` and its kin).  Each says what has to be caused
for that. -/

namespace Replica

namespace Network

variable {w : Plan} {causes : List Node} {marks : List Mark} {busy : Option Activity} {n : Network}

/-! ### What is read off a plan -/

namespace Sound

theorem tree_eq (h : Sound w causes marks busy n) : n.tree = w.tree := by
  rw [← tree_skeleton, h.skeleton, Plan.tree]

theorem parts? (h : Sound w causes marks busy n) (s : Source) : s.parts? n = s.parts? w.parts := by
  rw [← parts?_skeleton, h.skeleton]

theorem keeperAt (h : Sound w causes marks busy n) {i : Nat} {k : KeeperTask} (hi : n.keepers[i]? = some k) :
    w.parts.keepers[i]? = some k.bare := by
  simp [← h.skeleton, Network.skeleton, hi]

theorem subscriptionAt (h : Sound w causes marks busy n) {s : Nat} {sub : Subscription}
    (hs : n.subscriptions[s]? = some sub) : w.parts.subscriptions[s]? = some sub := by
  rw [← h.skeleton]
  exact hs

theorem hubAt (h : Sound w causes marks busy n) {i : Nat} {t : HubTask} (hi : n.hubs[i]? = some t) :
    w.parts.hubs[i]? = some t.bare := by
  simp [← h.skeleton, Network.skeleton, hi]

theorem viewAt (h : Sound w causes marks busy n) {i : Nat} {v : ViewTask} (hi : n.views[i]? = some v) :
    w.parts.views[i]? = some v.bare := by
  simp [← h.skeleton, Network.skeleton, hi]

theorem observerAt (h : Sound w causes marks busy n) {i : Nat} {o : ObserverTask} (hi : n.observers[i]? = some o) :
    w.parts.observers[i]? = some o.bare := by
  simp [← h.skeleton, Network.skeleton, hi]

/-- What a plan has laid is in the network. -/
theorem exists_keeper (h : Sound w causes marks busy n) {i : Nat} {k' : KeeperTask} (hi : w.parts.keepers[i]? = some k') :
    ∃ k, n.keepers[i]? = some k ∧ k.bare = k' := by
  rw [← h.skeleton, Network.skeleton, List.getElem?_map] at hi
  exact Option.map_eq_some_iff.1 hi

theorem exists_hub (h : Sound w causes marks busy n) {i : Nat} {t' : HubTask} (hi : w.parts.hubs[i]? = some t') :
    ∃ t, n.hubs[i]? = some t ∧ t.bare = t' := by
  rw [← h.skeleton, Network.skeleton, List.getElem?_map] at hi
  exact Option.map_eq_some_iff.1 hi

theorem exists_view (h : Sound w causes marks busy n) {i : Nat} {v' : ViewTask} (hi : w.parts.views[i]? = some v') :
    ∃ v, n.views[i]? = some v ∧ v.bare = v' := by
  rw [← h.skeleton, Network.skeleton, List.getElem?_map] at hi
  exact Option.map_eq_some_iff.1 hi

theorem exists_observer (h : Sound w causes marks busy n) {i : Nat} {o' : ObserverTask}
    (hi : w.parts.observers[i]? = some o') : ∃ o, n.observers[i]? = some o ∧ o.bare = o' := by
  rw [← h.skeleton, Network.skeleton, List.getElem?_map] at hi
  exact Option.map_eq_some_iff.1 hi

theorem exists_poller (h : Sound w causes marks busy n) : ∃ p, n.poller = some p ∧ w.role p.scope = .life .pipeline := by
  obtain ⟨p', hp', hrole⟩ := h.laid.poller
  rw [← h.skeleton] at hp'
  obtain ⟨p, hp, rfl⟩ := Option.map_eq_some_iff.1 hp'
  exact ⟨p, hp, hrole⟩

theorem exists_follower (h : Sound w causes marks busy n) :
    ∃ f, n.follower = some f ∧ w.role f.scope = .life .pipeline := by
  obtain ⟨f', hf', hrole⟩ := h.laid.follower
  rw [← h.skeleton] at hf'
  obtain ⟨f, hf, rfl⟩ := Option.map_eq_some_iff.1 hf'
  exact ⟨f, hf, hrole⟩

theorem exists_coordinator (h : Sound w causes marks busy n) :
    ∃ c, n.coordinator = some c ∧ w.Coordinates c.bare := by
  obtain ⟨c', hc', hlaid⟩ := h.laid.coordinator
  rw [← h.skeleton] at hc'
  obtain ⟨c, hc, rfl⟩ := Option.map_eq_some_iff.1 hc'
  exact ⟨c, hc, hlaid⟩

theorem coordinates (h : Sound w causes marks busy n) {c : CoordinatorTask} (hc : n.coordinator = some c) :
    w.Coordinates c.bare := by
  obtain ⟨c', hc', hlaid⟩ := h.exists_coordinator
  obtain rfl : c = c' := Option.some.inj (hc.symm.trans hc')
  exact hlaid

/-- A subscription that a hub has given is a node right below that hub's. -/
theorem subscribes_of_hub (h : Sound w causes marks busy n) {s i : Nat} {sub : Subscription}
    (hs : n.subscriptions[s]? = some sub) (hhub : sub.hub = some i) :
    w.Subscribes sub (.grown s) ∧ w.tree.up? (.grown s) = w.tree.hub? i := by
  have hparts := h.subscriptionAt hs
  obtain ⟨x, hx, hlaid⟩ := h.laid.subscription s sub hparts
  obtain rfl : Node.grown s = x := by simpa [Tree.subscription?, Plan.tree, tree, hparts, hhub] using hx
  exact ⟨hlaid, by simp [Tree.up?, Plan.tree, tree, hparts, hhub]⟩

theorem ofData (w : Plan) (causes : List Node) (marks : List Mark) (busy : Option Activity) :
    IsOfData (Sound w causes marks busy) := by
  intro n n' hdata h
  rw [eq_of_data hdata]
  exact { h with }

/-- A scope that is the lifetime of something at a node fires only if the node is caused to close. -/
theorem caused_of_life (h : Sound w causes marks busy n) {j : ScopeId} {x : Node} (hrole : w.role j = .life x)
    (fired : n.scopes.isFired j = true) : w.Caused causes x :=
  h.fired j x fired (Plan.owner?_of_life hrole)

/-- What has happened for good can be noted. -/
theorem mark (h : Sound w causes marks busy n) {m : Mark} (hm : m.Holds n) : Sound w causes (m :: marks) busy n :=
  { h with marked := List.forall_mem_cons.2 ⟨hm, h.marked⟩ }

theorem unmark (h : Sound w causes marks busy n) {marks' : List Mark} (hsub : marks' ⊆ marks) :
    Sound w causes marks' busy n :=
  { h with marked := fun m hm => h.marked m (hsub hm) }

/-- At rest, a task that has stopped has told so. -/
theorem isFired_of_over (h : Sound w causes marks none n) {t : TaskId} {j : ScopeId} (ho : n.Over t j) :
    n.scopes.isFired j = true :=
  (h.stopped t j ho).resolve_left nofun

/-- A task may be about to do something. -/
theorem begin (h : Sound w causes marks none n) (a : Activity) : Sound w causes marks (some a) n :=
  { h with
    stopped := fun _ _ ho => .inr (h.isFired_of_over ho)
    view := fun i v hi hr => ⟨(h.view i v hi hr).caused, fun _ _ => (h.view i v hi hr).isFired⟩
    coordinator := fun c hc hr => ⟨(h.coordinator c hc hr).caused, fun _ _ => (h.coordinator c hc hr).isFired⟩ }

/-- A task that stops has fired what it has to fire. -/
theorem finish {t : TaskId} (h : Sound w causes marks (some (.stopping t)) n)
    (hneeds : ∀ j ∈ w.needs t, Mark.fired j ∈ marks) : Sound w causes marks none n := by
  have hstops : ∀ u, Stops w causes n.scopes (some (.stopping t)) u → Stops w causes n.scopes none u := by
    refine fun u hu => ⟨hu.caused, fun _ j hj => ?_⟩
    by_cases htu : t = u
    · subst htu
      exact h.marked _ (hneeds j hj)
    · exact hu.fired (fun heq => htu (Activity.stopping.inj (Option.some.inj heq))) j hj
  exact
    { h with
      stopped := fun u j ho => .inr ((h.stopped u j ho).resolve_left nofun)
      view := fun i v hi hr => hstops _ (h.view i v hi hr)
      coordinator := fun c hc hr => hstops _ (h.coordinator c hc hr) }

/-- A task that has stopped has told so. -/
theorem told {t : TaskId} {j : ScopeId} (h : Sound w causes marks (some (.telling t)) n)
    (hj : w.parts.told? t = some j) (hmark : Mark.fired j ∈ marks) : Sound w causes marks none n :=
  { h with
    stopped := fun u k ho => by
      rcases h.stopped u k ho with hu | hk
      · obtain rfl := Activity.telling.inj (Option.some.inj hu)
        obtain rfl : j = k := Option.some.inj (hj.symm.trans (h.skeleton ▸ ho.told?))
        exact .inr (h.marked _ hmark)
      · exact .inr hk
    view := fun i v hi hr => ⟨(h.view i v hi hr).caused, fun _ => (h.view i v hi hr).fired nofun⟩
    coordinator := fun c hc hr => ⟨(h.coordinator c hc hr).caused, fun _ => (h.coordinator c hc hr).fired nofun⟩ }

/-! ### Firing -/

/-- What is below a scope that may fire may fire. -/
theorem caused_of_below (h : Sound w causes marks busy n) {s j : ScopeId} (hj : n.scopes.Below s j)
    (hs : ∀ x, w.owner? s = some x → w.Caused causes x) : ∀ x, w.owner? j = some x → w.Caused causes x := by
  induction hj with
  | refl => exact hs
  | @child p k _ hk ih =>
      intro x hx
      have hrole : w.role k ≠ .neutral := fun hrole => by simp [Plan.owner?, hrole] at hx
      obtain ⟨x', y, hx', hy, hup⟩ := h.laid.above k p hrole (h.above k hrole ▸ hk)
      obtain rfl : x' = x := by simpa [Plan.owner?, hx'] using hx
      have hcaused : w.Caused causes y := ih y (Plan.owner?_of_life hy)
      rcases hup with rfl | hup
      · exact hcaused
      · exact hcaused.up hup

/-- A scope fires that belongs to a node that is caused to close, or to none. -/
theorem fire (h : Sound w causes marks busy n) (s : ScopeId)
    (hcaused : ∀ x, w.owner? s = some x → w.Caused causes x)
    (hneeds : ∀ t, w.role s = .done t → ∀ k ∈ w.needs t, n.scopes.isFired k = true) :
    Sound w causes marks busy { n with scopes := (n.scopes.fire s).1 } := by
  have hmono : ∀ k, n.scopes.isFired k = true → (n.scopes.fire s).1.isFired k = true :=
    fun k => n.scopes.isFired_fire_of_isFired s
  have hstops : ∀ t, Stops w causes n.scopes busy t → Stops w causes (n.scopes.fire s).1 busy t :=
    fun t ht => ⟨ht.caused, fun hb k hk => hmono k (ht.fired hb k hk)⟩
  exact
    { h with
      marked := by
        intro m hm
        cases m with
        | fired j => exact hmono j (h.marked _ hm)
        | halted => exact h.marked _ hm
      ordered := h.ordered.fire s
      down := h.down.fire h.ordered s
      known := fun j hj => Scopes.length_fire.symm ▸ h.known j hj
      above := fun j hj => (Scopes.parent?_fire ..).trans (h.above j hj)
      fired := by
        intro j x hj hx
        rcases Scopes.below_of_isFired_fire hj with hold | hbelow
        · exact h.fired j x hold hx
        · exact h.caused_of_below hbelow hcaused x hx
      done := by
        intro j t hrole hj k hk
        rcases Scopes.below_of_isFired_fire hj with hold | hbelow
        · exact hmono k (h.done j t hrole hold k hk)
        · cases hbelow with
          | refl => exact hmono k (hneeds t hrole k hk)
          | child _ hp =>
              have hneutral : w.role j ≠ .neutral := by simp [hrole]
              obtain ⟨x, -, hx, -⟩ := h.laid.above j _ hneutral (h.above j hneutral ▸ hp)
              cases hrole.symm.trans hx
      stopped := fun t j ho => (h.stopped t j ho).imp id (hmono j)
      view := fun i v hi hv => hstops _ (h.view i v hi hv)
      coordinator := fun c hc hr => hstops _ (h.coordinator c hc hr)
      session := fun i s hi => ⟨(h.session i s hi).1, Scopes.length_fire.symm ▸ (h.session i s hi).2⟩ }

/-- A scope is made that the plan does not know. -/
theorem addChild (h : Sound w causes marks busy n) {parent : ScopeId} (hparent : parent < n.scopes.list.length) :
    Sound w causes marks busy { n with scopes := (n.scopes.addChild parent).1 } ∧
      w.role n.scopes.list.length = .neutral := by
  have hnew : w.role n.scopes.list.length = .neutral := by
    cases hrole : w.role n.scopes.list.length with
    | neutral => rfl
    | ready => exact absurd (h.known _ (by simp [hrole])) (Nat.lt_irrefl _)
    | life x => exact absurd (h.known _ (by simp [hrole])) (Nat.lt_irrefl _)
    | done t => exact absurd (h.known _ (by simp [hrole])) (Nat.lt_irrefl _)
  have hne : ∀ j, w.role j ≠ .neutral → j ≠ n.scopes.list.length := by
    rintro _ hj rfl
    exact hj hnew
  have hmono : ∀ k, n.scopes.isFired k = true → (n.scopes.addChild parent).1.isFired k = true := by
    intro k hk
    rw [Scopes.isFired_addChild, if_neg ?_]
    · exact hk
    · rintro rfl
      rw [Scopes.isFired_of_length_le _ (Nat.le_refl _)] at hk
      cases hk
  have hback : ∀ j, w.role j ≠ .neutral → (n.scopes.addChild parent).1.isFired j = true →
      n.scopes.isFired j = true := by
    intro j hj hfired
    rwa [Scopes.isFired_addChild, if_neg (hne j hj)] at hfired
  have hstops : ∀ t, Stops w causes n.scopes busy t → Stops w causes (n.scopes.addChild parent).1 busy t :=
    fun t ht => ⟨ht.caused, fun hb k hk => hmono k (ht.fired hb k hk)⟩
  refine ⟨?_, hnew⟩
  exact
    { h with
      marked := by
        intro m hm
        cases m with
        | fired j => exact hmono j (h.marked _ hm)
        | halted => exact h.marked _ hm
      ordered := h.ordered.addChild hparent
      down := h.down.addChild h.ordered hparent
      known := fun j hj => Scopes.length_addChild.symm ▸ Nat.lt_succ_of_lt (h.known j hj)
      above := fun j hj => by
        rw [Scopes.parent?_addChild, if_neg (hne j hj)]
        exact h.above j hj
      fired := by
        intro j x hj hx
        refine h.fired j x (hback j ?_ hj) hx
        intro hneutral
        rw [Plan.owner?, hneutral] at hx
        cases hx
      done := fun j t hrole hj k hk => hmono k (h.done j t hrole (hback j (by simp [hrole]) hj) k hk)
      stopped := fun t j ho => (h.stopped t j ho).imp id (hmono j)
      view := fun i v hi hv => hstops _ (h.view i v hi hv)
      coordinator := fun c hc hr => hstops _ (h.coordinator c hc hr)
      session := fun i s hi =>
        ⟨(h.session i s hi).1, Scopes.length_addChild.symm ▸ Nat.lt_succ_of_lt (h.session i s hi).2⟩ }

/-! ### Feeds -/

/-- Feeds may end that belong to nodes that are caused to close. -/
theorem feeds (h : Sound w causes marks busy n) {feeds : Feeds} (hlength : feeds.length = n.feeds.length)
    (hfeeds : ∀ (f : Nat) (feed : Feed Event), feeds[f]? = some feed → ¬ feed.IsOpen → w.Caused causes (w.feed f)) :
    Sound w causes marks busy { n with feeds } := by
  have hskeleton : ({ n with feeds } : Network).skeleton = n.skeleton := by
    simp only [Network.skeleton, List.map_const', hlength]
  exact { h with skeleton := hskeleton.trans h.skeleton, feed := hfeeds }

/-- A feed that is changed stays open, or its node is caused to close. -/
theorem modifyFeed (h : Sound w causes marks busy n) (f : FeedId) (g : Feed Event → Feed Event)
    (hg : (∀ feed : Feed Event, feed.IsOpen → (g feed).IsOpen) ∨ w.Caused causes (w.feed f)) :
    Sound w causes marks busy { n with feeds := n.feeds.modify f g } := by
  refine h.feeds (by simp) fun k feed hk hopen => ?_
  rw [List.getElem?_modify] at hk
  obtain ⟨old, hold, rfl⟩ := Option.map_eq_some_iff.1 hk
  split at hopen
  · rename_i hfk
    subst hfk
    rcases hg with hg | hcaused
    · exact h.feed _ old hold (mt (hg old) hopen)
    · exact hcaused
  · exact h.feed k old hold hopen

end Sound

/-! ### Components -/

theorem map_modify_of_same {α β : Type} {l : List α} {f : α → α} {g : α → β} (h : ∀ a, g (f a) = g a) (i : Nat) :
    (l.modify i f).map g = l.map g := by
  refine List.ext_getElem (by simp) fun j hj hj' => ?_
  rw [List.getElem_map, List.getElem_map, List.getElem_modify]
  split
  · exact h _
  · rfl

theorem exists_of_modify {α : Type} {l : List α} {f : α → α} {i k : Nat} {a : α} (h : (l.modify i f)[k]? = some a) :
    ∃ b, l[k]? = some b ∧ (i ≠ k ∧ a = b ∨ i = k ∧ a = f b) := by
  rw [List.getElem?_modify] at h
  obtain ⟨b, hb, rfl⟩ := Option.map_eq_some_iff.1 h
  refine ⟨b, hb, ?_⟩
  split
  · exact .inr ⟨by assumption, rfl⟩
  · exact .inl ⟨by assumption, rfl⟩

namespace Sound

theorem modifyKeeper (h : Sound w causes marks busy n) (i : Nat) {f : KeeperTask → KeeperTask}
    (hf : ∀ k, (f k).bare = k.bare) : Sound w causes marks busy { n with keepers := n.keepers.modify i f } := by
  have hskeleton : ({ n with keepers := n.keepers.modify i f } : Network).skeleton = n.skeleton := by
    simp only [Network.skeleton, map_modify_of_same hf]
  exact { h with skeleton := hskeleton.trans h.skeleton }

theorem modifySession (h : Sound w causes marks busy n) (i : Nat) {f : SessionTask → SessionTask}
    (hf : ∀ s, (f s).scope = s.scope) : Sound w causes marks busy { n with sessions := n.sessions.modify i f } := by
  refine { h with session := fun k s hk => ?_ }
  obtain ⟨s', hs', ⟨-, rfl⟩ | ⟨-, rfl⟩⟩ := exists_of_modify hk
  · exact h.session k _ hs'
  · rw [hf s']
    exact h.session k s' hs'

theorem modifyHub (h : Sound w causes marks busy n) (i : Nat) {f : HubTask → HubTask}
    (hf : ∀ t, (f t).bare = t.bare)
    (hsound : ∀ t, n.hubs[i]? = some t → HubSound w causes n.subscriptions i t →
      HubSound w causes n.subscriptions i (f t))
    (hseated : ∀ t, n.hubs[i]? = some t → ∀ (s : Nat) (sub : Subscription), n.subscriptions[s]? = some sub →
      sub.hub = some i → sub.feed ∈ t.hub.live → sub.feed ∈ (f t).hub.live ∨ w.Caused causes (.grown s))
    (hover : ∀ t, (f t).isStopped = true → t.isStopped = true ∨ busy = some (.telling (.hub i))) :
    Sound w causes marks busy { n with hubs := n.hubs.modify i f } := by
  have hskeleton : ({ n with hubs := n.hubs.modify i f } : Network).skeleton = n.skeleton := by
    simp only [Network.skeleton, map_modify_of_same hf]
  refine
    { h with
      skeleton := hskeleton.trans h.skeleton
      stopped := fun u j ho => ?_
      hub := fun k t' hk => ?_
      seated := fun s sub k t' hs hsub hk => ?_ }
  · cases u with
    | hub k =>
        obtain ⟨t', hk, hr, rfl⟩ := ho
        obtain ⟨t, ht, ⟨-, rfl⟩ | ⟨rfl, rfl⟩⟩ := exists_of_modify hk
        · exact h.stopped (.hub k) _ ⟨_, ht, hr, rfl⟩
        · rcases hover t hr with hr | hbusy
          · exact h.stopped (.hub _) _ ⟨t, ht, hr, (congrArg HubTask.done (hf t)).symm⟩
          · exact .inl hbusy
    | _ => exact h.stopped _ j ho
  · obtain ⟨t, ht, ⟨-, rfl⟩ | ⟨rfl, rfl⟩⟩ := exists_of_modify hk
    · exact h.hub k _ ht
    · exact hsound t ht (h.hub _ t ht)
  · obtain ⟨t, ht, ⟨-, rfl⟩ | ⟨rfl, rfl⟩⟩ := exists_of_modify hk
    · exact h.seated s sub k _ hs hsub ht
    · rcases h.seated s sub _ t hs hsub ht with hlive | hcaused
      · exact hseated t ht s sub hs hsub hlive
      · exact .inr hcaused

/-- What is noted of a hub's subscribers and of who wants to join makes no difference. -/
theorem noteHub (h : Sound w causes marks busy n) (i : Nat) {f : HubTask → HubTask}
    (hf : ∀ t, (f t).bare = t.bare) (hub : ∀ t, (f t).hub = t.hub) (isStopped : ∀ t, (f t).isStopped = t.isStopped)
    (granted : ∀ t s, (f t).granted = some s → t.granted = some s)
    (leaving : ∀ t, n.hubs[i]? = some t → ∀ f' ∈ (f t).leaving,
      f' ∈ t.leaving ∨ f' < w.parts.feeds.length ∧ w.Caused causes (w.feed f')) :
    Sound w causes marks busy { n with hubs := n.hubs.modify i f } := by
  refine h.modifyHub i hf (fun t ht hsound => ?_) (fun t ht s sub hs hsub hlive => .inl (hub t ▸ hlive))
    fun t hr => .inl (isStopped t ▸ hr)
  exact
    { stopped := fun hstopped => hsound.stopped (isStopped t ▸ hstopped)
      leaving := fun f' hf' => (leaving t ht f' hf').elim (hsound.leaving f') id
      live := hub t ▸ hsound.live
      nodup := hub t ▸ hsound.nodup
      granted := fun s hs => hsound.granted s (granted t s hs) }

theorem modifyView (h : Sound w causes marks busy n) (i : Nat) {f : ViewTask → ViewTask}
    (hf : ∀ v, (f v).bare = v.bare)
    (hstops : ∀ v, n.views[i]? = some v → (f v).view.isRunning = false → Stops w causes n.scopes busy (.view i))
    (hover : ∀ v, n.views[i]? = some v → (f v).view.phase = .stopped →
      v.view.phase = .stopped ∨ busy = some (.telling (.view i))) :
    Sound w causes marks busy { n with views := n.views.modify i f } := by
  have hskeleton : ({ n with views := n.views.modify i f } : Network).skeleton = n.skeleton := by
    simp only [Network.skeleton, map_modify_of_same hf]
  refine { h with skeleton := hskeleton.trans h.skeleton, stopped := fun u j ho => ?_, view := fun k v' hk hr => ?_ }
  · cases u with
    | view k =>
        obtain ⟨v', hk, hr, rfl⟩ := ho
        obtain ⟨v, hv, ⟨-, rfl⟩ | ⟨rfl, rfl⟩⟩ := exists_of_modify hk
        · exact h.stopped (.view k) _ ⟨_, hv, hr, rfl⟩
        · rcases hover v hv hr with hr | hbusy
          · exact h.stopped (.view _) _ ⟨v, hv, hr, (congrArg ViewTask.done (hf v)).symm⟩
          · exact .inl hbusy
    | _ => exact h.stopped _ j ho
  obtain ⟨v, hv, ⟨-, rfl⟩ | ⟨rfl, rfl⟩⟩ := exists_of_modify hk
  · exact h.view k _ hv hr
  · exact hstops v hv hr

theorem modifyObserver (h : Sound w causes marks busy n) (i : Nat) {f : ObserverTask → ObserverTask}
    (hf : ∀ o, (f o).bare = o.bare)
    (hstops : ∀ o, n.observers[i]? = some o → (f o).phase = .stopped →
      ∀ x, w.tree.observer? i = some x → w.Caused causes x)
    (hover : ∀ o, n.observers[i]? = some o → (f o).phase = .stopped →
      o.phase = .stopped ∨ busy = some (.telling (.observer i))) :
    Sound w causes marks busy { n with observers := n.observers.modify i f } := by
  have hskeleton : ({ n with observers := n.observers.modify i f } : Network).skeleton = n.skeleton := by
    simp only [Network.skeleton, map_modify_of_same hf]
  refine { h with skeleton := hskeleton.trans h.skeleton, stopped := fun u j ho => ?_, observer := fun k o' hk hr => ?_ }
  · cases u with
    | observer k =>
        obtain ⟨o', hk, hr, rfl⟩ := ho
        obtain ⟨o, ho, ⟨-, rfl⟩ | ⟨rfl, rfl⟩⟩ := exists_of_modify hk
        · exact h.stopped (.observer k) _ ⟨_, ho, hr, rfl⟩
        · rcases hover o ho hr with hr | hbusy
          · exact h.stopped (.observer _) _ ⟨o, ho, hr, (congrArg ObserverTask.done (hf o)).symm⟩
          · exact .inl hbusy
    | _ => exact h.stopped _ j ho
  obtain ⟨o, ho, ⟨-, rfl⟩ | ⟨rfl, rfl⟩⟩ := exists_of_modify hk
  · exact h.observer k _ ho hr
  · exact hstops o ho hr

theorem modifyCoordinator (h : Sound w causes marks busy n) {f : CoordinatorTask → CoordinatorTask}
    (hf : ∀ c, (f c).bare = c.bare)
    (hstops : ∀ c, n.coordinator = some c → (f c).coordinator.isRunning = false →
      Stops w causes n.scopes busy .coordinator)
    (hover : ∀ c, n.coordinator = some c → (f c).coordinator.phase = .closed →
      c.coordinator.phase = .closed ∨ busy = some (.telling .coordinator)) :
    Sound w causes marks busy { n with coordinator := n.coordinator.map f } := by
  have hskeleton : ({ n with coordinator := n.coordinator.map f } : Network).skeleton = n.skeleton := by
    simp only [Network.skeleton, Option.map_map, Function.comp_def, hf]
  refine { h with skeleton := hskeleton.trans h.skeleton, stopped := fun u j ho => ?_, coordinator := fun c' hc' hr => ?_ }
  · cases u with
    | coordinator =>
        obtain ⟨c', hc', hr, rfl⟩ := ho
        obtain ⟨c, hc, rfl⟩ := Option.map_eq_some_iff.1 hc'
        rcases hover c hc hr with hr | hbusy
        · exact h.stopped .coordinator _ ⟨c, hc, hr, (congrArg CoordinatorTask.done (hf c)).symm⟩
        · exact .inl hbusy
    | _ => exact h.stopped _ j ho
  obtain ⟨c, hc, rfl⟩ := Option.map_eq_some_iff.1 hc'
  exact hstops c hc hr

theorem modifyPoller (h : Sound w causes marks busy n) {f : PollerTask → PollerTask}
    (hf : ∀ p, (f p).bare = p.bare)
    (hstops : ∀ p, n.poller = some p → (f p).poller.phase = .stopped → w.Caused causes .pipeline) :
    Sound w causes marks busy { n with poller := n.poller.map f } := by
  have hskeleton : ({ n with poller := n.poller.map f } : Network).skeleton = n.skeleton := by
    simp only [Network.skeleton, Option.map_map, Function.comp_def, hf]
  refine { h with skeleton := hskeleton.trans h.skeleton, poller := fun p' hp' hr => ?_ }
  obtain ⟨p, hp, rfl⟩ := Option.map_eq_some_iff.1 hp'
  exact hstops p hp hr

/-- That a follower stops is caused, and what its output has told stays so. -/
theorem modifyFollower (h : Sound w causes marks busy n) {f : FollowerTask → FollowerTask}
    (hf : ∀ t, (f t).bare = t.bare)
    (hended : .halted ∈ marks → ∀ t, n.follower = some t → t.follower.HasEnded → (f t).follower.HasEnded)
    (hstops : ∀ t, n.follower = some t → (f t).follower.isStopped = true → w.Caused causes .pipeline)
    (hproper : ∀ t, n.follower = some t → (f t).follower.Proper (f t).deadline.isSome) :
    Sound w causes marks busy { n with follower := n.follower.map f } := by
  have hskeleton : ({ n with follower := n.follower.map f } : Network).skeleton = n.skeleton := by
    simp only [Network.skeleton, Option.map_map, Function.comp_def, hf]
  refine
    { h with
      skeleton := hskeleton.trans h.skeleton
      marked := fun m hm => ?_
      follower := fun t' ht' hr => ?_
      proper := fun t' ht' => ?_ }
  · cases m with
    | fired j => exact h.marked _ hm
    | halted =>
        intro t' ht'
        obtain ⟨t, ht, rfl⟩ := Option.map_eq_some_iff.1 ht'
        exact hended hm t ht (h.marked _ hm t ht)
  · obtain ⟨t, ht, rfl⟩ := Option.map_eq_some_iff.1 ht'
    exact hstops t ht hr
  · obtain ⟨t, ht, rfl⟩ := Option.map_eq_some_iff.1 ht'
    exact hproper t ht

/-! ### Notes

What is noted in a component besides what it has come to makes no difference. -/

theorem noteView (h : Sound w causes marks busy n) (i : Nat) {f : ViewTask → ViewTask}
    (hf : ∀ v, (f v).bare = v.bare) (view : ∀ v, (f v).view = v.view) :
    Sound w causes marks busy { n with views := n.views.modify i f } :=
  h.modifyView i hf (fun v hv hr => h.view i v hv (view v ▸ hr)) fun v _ hr => .inl (view v ▸ hr)

theorem noteObserver (h : Sound w causes marks busy n) (i : Nat) {f : ObserverTask → ObserverTask}
    (hf : ∀ o, (f o).bare = o.bare) (phase : ∀ o, (f o).phase = o.phase) :
    Sound w causes marks busy { n with observers := n.observers.modify i f } :=
  h.modifyObserver i hf (fun o ho hr => h.observer i o ho (phase o ▸ hr)) fun o _ hr => .inl (phase o ▸ hr)

theorem noteCoordinator (h : Sound w causes marks busy n) {f : CoordinatorTask → CoordinatorTask}
    (hf : ∀ c, (f c).bare = c.bare) (coordinator : ∀ c, (f c).coordinator = c.coordinator) :
    Sound w causes marks busy { n with coordinator := n.coordinator.map f } :=
  h.modifyCoordinator hf (fun c hc hr => h.coordinator c hc (coordinator c ▸ hr)) fun c _ hr => .inl (coordinator c ▸ hr)

theorem noteFollower (h : Sound w causes marks busy n) {f : FollowerTask → FollowerTask}
    (hf : ∀ t, (f t).bare = t.bare) (follower : ∀ t, (f t).follower = t.follower)
    (deadline : ∀ t, (f t).deadline.isSome = true → t.deadline.isSome = true) :
    Sound w causes marks busy { n with follower := n.follower.map f } := by
  refine h.modifyFollower hf (fun _ t _ hr => follower t ▸ hr) (fun t ht hr => h.follower t ht (follower t ▸ hr)) ?_
  intro t ht
  rw [follower t]
  exact (h.proper t ht).mono (deadline t)

end Sound

end Network

end Replica
