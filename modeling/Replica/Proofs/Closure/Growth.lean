import Replica.Proofs.Closure.Extension

/-! # How the tree grows

The plan of a network that has grown says of the new scopes what they are for (`Plan.grow`).  A hub gives a new
subscription, which is a new node right below the hub's (`Plan.join`); the network stays sound (`grow_joined`). -/

namespace Replica

namespace Network

variable {w : Plan} {causes : List Node} {marks : List Mark} {busy : Option Activity} {n n' : Network} {x : Node}

/-- The plan of a network that has grown at a node: the roles of the new scopes, and what a new task needs. -/
def Plan.grow (w : Plan) (n n' : Network) (x : Node) (roles : List Role) (task : Option TaskId)
    (needs : List ScopeId) : Plan where
  parts := n'.skeleton
  role j := if j < n.scopes.list.length then w.role j else roles[j - n.scopes.list.length]?.getD .neutral
  above j := if j < n.scopes.list.length then w.above j else n'.scopes.parent? j
  feed f := if f < n.feeds.length then w.feed f else x
  needs t := if task = some t then needs else w.needs t

section grow

variable {roles : List Role} {task : Option TaskId} {needs : List ScopeId}

theorem Plan.role_grow (k : Nat) : (w.grow n n' x roles task needs).role (n.scopes.list.length + k) =
    roles[k]?.getD .neutral := by
  simp [grow]

theorem Plan.exists_of_role_grow {j : ScopeId} (hge : n.scopes.list.length ≤ j)
    (hj : (w.grow n n' x roles task needs).role j ≠ .neutral) :
    ∃ k, j = n.scopes.list.length + k ∧ k < roles.length := by
  obtain ⟨k, rfl⟩ := Nat.exists_eq_add_of_le hge
  refine ⟨k, rfl, Nat.lt_of_not_le fun hle => hj ?_⟩
  rw [role_grow, List.getElem?_eq_none hle]
  rfl

theorem Plan.mem_of_role_grow {j : ScopeId} {r : Role} (hge : n.scopes.list.length ≤ j)
    (hj : (w.grow n n' x roles task needs).role j = r) (hr : r ≠ .neutral) : r ∈ roles := by
  obtain ⟨k, rfl, hk⟩ := exists_of_role_grow hge (hj.symm ▸ hr)
  rw [role_grow, List.getElem?_eq_getElem hk] at hj
  exact hj ▸ List.getElem_mem hk

theorem Sound.extends_grow (h : Sound w causes marks busy n) (hg : n.Grown n')
    (htask : ∀ t x, w.tree.task? t = some x → task ≠ some t) :
    w.Extends (w.grow n n' x roles task needs) n.scopes.list.length where
  subscriptions := by rw [← h.skeleton]; exact hg.subscriptions
  keepers := by rw [← h.skeleton]; exact hg.keepers.map KeeperTask.bare
  hubs := by rw [← h.skeleton]; exact hg.hubs
  views := by rw [← h.skeleton]; exact hg.views.map ViewTask.bare
  observers := by rw [← h.skeleton]; exact hg.observers.map ObserverTask.bare
  feeds := by
    rw [← h.length_feeds]
    simpa [Plan.grow, Network.skeleton] using hg.feeds
  poller := by
    rw [← h.skeleton]
    exact congrArg (Option.map PollerTask.bare) hg.poller
  follower := by
    rw [← h.skeleton]
    exact congrArg (Option.map FollowerTask.bare) hg.follower
  coordinator := by
    rw [← h.skeleton]
    exact congrArg (Option.map CoordinatorTask.bare) hg.coordinator
  known := h.known
  role j hj := if_pos hj
  above j hj := if_pos hj
  feed f hf := if_pos (h.length_feeds ▸ hf)
  needs t x ht := if_neg (htask t x ht)

end grow

/-! ### A new subscription -/

section join

variable {i : Nat} {t : HubTask}

/-- The network in which a hub has given a new subscription. -/
def joined (n : Network) (i : Nat) (t : HubTask) : Network :=
  { n with
    feeds := (t.hub.subscribe n.feeds).2.1
    scopes := (n.scopes.addChild t.scope).1
    subscriptions := n.subscriptions ++ [⟨n.feeds.length, n.scopes.list.length, t.ready, t.keeper, some i⟩]
    hubs := n.hubs.modify i fun h =>
      { h with hub := (t.hub.subscribe n.feeds).1, granted := some n.subscriptions.length } }

theorem bare_joined (n : Network) (i : Nat) (t : HubTask) :
    (n.joined i t).hubs.map HubTask.bare = n.hubs.map HubTask.bare := by
  refine map_modify_of_same ?_ i
  exact fun _ => rfl

theorem grown_joined (h : Sound w causes marks busy n) (hscope : t.scope < n.scopes.list.length) :
    n.Grown (n.joined i t) where
  subscriptions := List.prefix_append _ _
  keepers := List.prefix_refl _
  hubs := (bare_joined n i t).symm ▸ List.prefix_refl _
  views := List.prefix_refl _
  observers := List.prefix_refl _
  feeds := by simp [joined, Hub.subscribe]
  scopes := List.prefix_append _ _
  ordered := h.ordered.addChild hscope
  down := h.down.addChild h.ordered hscope
  stopped := by
    intro u j ho
    cases u with
    | hub k =>
        obtain ⟨t', hk, hr, rfl⟩ := ho
        obtain ⟨t₀, ht₀, ⟨-, rfl⟩ | ⟨-, rfl⟩⟩ := exists_of_modify hk
        · exact ⟨_, ht₀, hr, rfl⟩
        · exact ⟨t₀, ht₀, hr, rfl⟩
    | _ => exact ho
  feed := by
    intro f feed hf hopen
    rcases Tree.getElem?_of_concat hf with hold | ⟨-, rfl⟩
    · exact hold
    · exact absurd ⟨rfl, rfl⟩ hopen
  view := fun _ _ hi _ => hi
  observer := fun _ _ hi _ => hi
  sessions := rfl
  poller := rfl
  follower := rfl
  coordinator := rfl

/-- The subscription that it gives. -/
def newcomer (n : Network) (i : Nat) (t : HubTask) : Subscription :=
  ⟨n.feeds.length, n.scopes.list.length, t.ready, t.keeper, some i⟩

/-- The plan with a new node for it. -/
def Plan.join (w : Plan) (n : Network) (i : Nat) (t : HubTask) : Plan :=
  w.grow n (n.joined i t) (.grown n.subscriptions.length) [.life (.grown n.subscriptions.length)] none []

theorem Plan.role_join : (w.join n i t).role n.scopes.list.length = .life (.grown n.subscriptions.length) :=
  role_grow 0

theorem Plan.eq_of_role_join {j : ScopeId} (hge : n.scopes.list.length ≤ j) (hj : (w.join n i t).role j ≠ .neutral) :
    j = n.scopes.list.length := by
  obtain ⟨k, rfl, hk⟩ := exists_of_role_grow hge hj
  obtain rfl : k = 0 := Nat.lt_one_iff.1 hk
  rfl

theorem Plan.above_join : (w.join n i t).above n.scopes.list.length = some t.scope := by
  simp [join, grow, joined, Scopes.parent?_addChild]

theorem Plan.subscriptions_join :
    (w.join n i t).parts.subscriptions[n.subscriptions.length]? = some (n.newcomer i t) :=
  List.getElem?_concat_length ..

theorem Plan.subscription?_join :
    (w.join n i t).tree.subscription? n.subscriptions.length = some (.grown n.subscriptions.length) := by
  simp [Tree.subscription?, Plan.tree, Network.tree, subscriptions_join, newcomer]

theorem Sound.scope_lt (h : Sound w causes marks busy n) (hi : n.hubs[i]? = some t) :
    t.scope < n.scopes.list.length := by
  obtain ⟨x, -, hlaid⟩ := h.laid.hub i t.bare (h.hubAt hi)
  exact h.known t.scope (by simp [show w.role t.scope = .life x from hlaid.scope])

theorem Sound.extends_join (h : Sound w causes marks busy n) (hi : n.hubs[i]? = some t) :
    w.Extends (w.join n i t) n.scopes.list.length :=
  h.extends_grow (grown_joined h (h.scope_lt hi)) nofun

/-- The new node is right below the hub's. -/
theorem Sound.up?_join (h : Sound w causes marks busy n) (hi : n.hubs[i]? = some t) (hx : w.tree.hub? i = some x) :
    (w.join n i t).tree.up? (.grown n.subscriptions.length) = some x := by
  have hhub := (h.extends_join hi).grows.hub? hx
  simpa [Tree.up?, Plan.tree, Network.tree, Plan.subscriptions_join, newcomer] using hhub

theorem Sound.subscribes_join (h : Sound w causes marks busy n) (hi : n.hubs[i]? = some t)
    (hx : w.tree.hub? i = some x) (hlaid : w.Distributes i t.bare x) :
    (w.join n i t).Subscribes (n.newcomer i t) (.grown n.subscriptions.length) where
  scope := Plan.role_join
  ready := (h.extends_join hi).ready hlaid.ready
  feed := if_neg (Nat.lt_irrefl _)
  bound := by simp [newcomer, Plan.join, Plan.grow, joined, Network.skeleton, Hub.subscribe]
  keeper := by
    obtain ⟨k, z, hk, hkeeper, hwithin⟩ := (h.extends_join hi).serves hlaid.keeper
    exact ⟨k, z, hk, hkeeper, hwithin.grow (h.up?_join hi hx)⟩
  above := ⟨t.bare, Tree.getElem?_of_prefix (h.extends_join hi).hubs (h.hubAt hi), Plan.above_join⟩

theorem Sound.adds_join (h : Sound w causes marks busy n) (hi : n.hubs[i]? = some t)
    (hx : w.tree.hub? i = some x) (hlaid : w.Distributes i t.bare x) : w.Adds (w.join n i t) n.scopes.list.length where
  above j p hge hj hp := by
    obtain rfl := Plan.eq_of_role_join hge hj
    obtain rfl := Option.some.inj (Plan.above_join.symm.trans hp)
    exact ⟨_, x, Plan.role_join, (h.extends_join hi).life hlaid.scope, .inr (h.up?_join hi hx)⟩
  told j u hge hj := by
    have hrole : (w.join n i t).role j ≠ .neutral := by simp [hj]
    obtain rfl := Plan.eq_of_role_join hge hrole
    cases Plan.role_join.symm.trans hj
  keeper k keeper hk := .inl (h.skeleton ▸ hk)
  subscription s sub hs := by
    rcases Tree.getElem?_of_concat hs with hold | ⟨rfl, rfl⟩
    · exact .inl (h.subscriptionAt hold)
    · exact .inr ⟨_, Plan.subscription?_join, h.subscribes_join hi hx hlaid⟩
  hub k t' hk := by
    change ((n.joined i t).hubs.map HubTask.bare)[k]? = some t' at hk
    rw [bare_joined] at hk
    exact .inl (h.skeleton ▸ hk)
  view k v hk := .inl (h.skeleton ▸ hk)
  observer k o hk := .inl (h.skeleton ▸ hk)

theorem Sound.fits_join (h : Sound w causes marks busy n) (hi : n.hubs[i]? = some t)
    (hx : w.tree.hub? i = some x) (hlaid : w.Distributes i t.bare x) :
    Fits w (w.join n i t) causes n.scopes.list.length (n.joined i t) where
  known j hge hj := by
    obtain rfl := Plan.eq_of_role_join hge hj
    simp [joined, Scopes.addChild]
  above j hge _ := (if_neg (Nat.not_lt.2 hge)).symm
  fired j hge hj := by
    -- The new scope is born fired if the hub's has fired.
    change (n.scopes.addChild t.scope).1.isFired j = true at hj
    rw [Scopes.isFired_addChild] at hj
    split at hj
    · rename_i hlast
      subst hlast
      have hcaused := (h.extends_join hi).caused (h.caused_of_life hlaid.scope hj)
      exact ⟨_, Plan.role_join, hcaused.up (h.up?_join hi hx)⟩
    · rw [Scopes.isFired_of_length_le _ hge] at hj
      cases hj

/-- The hub has the new subscriber, on a feed of its own. -/
theorem Sound.hubSound_join (h : Sound w causes marks busy n) (hi : n.hubs[i]? = some t)
    (hold : HubSound (w.join n i t) causes (n.joined i t).subscriptions i t) :
    HubSound (w.join n i t) causes (n.joined i t).subscriptions i
      { t with hub := (t.hub.subscribe n.feeds).1, granted := some n.subscriptions.length } where
  stopped := hold.stopped
  leaving := hold.leaving
  live f hf := by
    rcases List.mem_append.1 hf with hf | hf
    · exact hold.live f hf
    · obtain rfl := List.mem_singleton.1 hf
      exact ⟨n.subscriptions.length, _, List.getElem?_concat_length .., rfl, rfl⟩
  nodup := by
    refine List.nodup_append.2 ⟨hold.nodup, List.nodup_singleton _, fun f hf f' hf' => ?_⟩
    obtain rfl := List.mem_singleton.1 hf'
    obtain ⟨s, sub, hs, hsub, rfl⟩ := (h.hub i t hi).live f hf
    exact Nat.ne_of_lt (h.length_feeds ▸ (h.subscribes_of_hub hs hsub).1.bound)
  granted := by
    rintro s ⟨⟩
    exact ⟨_, List.getElem?_concat_length .., rfl⟩

/-- Who subscribes is still seated at the hub, and so is the new one. -/
theorem Sound.seated_join (h : Sound w causes marks busy n) (hi : n.hubs[i]? = some t) {s k : Nat}
    {sub : Subscription} {t' : HubTask} (hs : (n.joined i t).subscriptions[s]? = some sub) (hsub : sub.hub = some k)
    (hk : (n.joined i t).hubs[k]? = some t') : sub.feed ∈ t'.hub.live ∨ (w.join n i t).Caused causes (.grown s) := by
  obtain ⟨t₀, ht₀, hmodified⟩ := exists_of_modify hk
  rcases Tree.getElem?_of_concat hs with hold | ⟨rfl, rfl⟩
  · rcases h.seated s sub k t₀ hold hsub ht₀ with hlive | hcaused
    · rcases hmodified with ⟨-, rfl⟩ | ⟨rfl, rfl⟩
      · exact .inl hlive
      · obtain rfl : t = t₀ := Option.some.inj (hi.symm.trans ht₀)
        exact .inl (List.mem_append_left _ hlive)
    · exact .inr ((h.extends_join hi).caused hcaused)
  · obtain rfl : i = k := Option.some.inj hsub
    rcases hmodified with ⟨hne, -⟩ | ⟨-, rfl⟩
    · exact absurd rfl hne
    · exact .inl (List.mem_append_right _ List.mem_cons_self)

/-- **A hub gives a new subscription.** -/
theorem grow_joined (h : Sound w causes marks busy n) (hi : n.hubs[i]? = some t) :
    ∃ w', w.Extends w' n.scopes.list.length ∧ Sound w' causes marks busy (n.joined i t) := by
  obtain ⟨x, hx, hlaid⟩ := h.laid.hub i t.bare (h.hubAt hi)
  have hg : n.Grown (n.joined i t) := grown_joined h (h.scope_lt hi)
  have he := h.extends_join hi
  refine ⟨w.join n i t, he, h.extend hg he (h.adds_join hi hx hlaid) (h.fits_join hi hx hlaid) rfl ?_
    fun s sub k t' => h.seated_join hi⟩
  intro k t' hk
  obtain ⟨t₀, ht₀, hmodified⟩ := exists_of_modify hk
  obtain ⟨z, hz, -⟩ := h.laid.hub k t₀.bare (h.hubAt ht₀)
  have hold := (h.hub k t₀ ht₀).extend he hg.subscriptions hz
  rcases hmodified with ⟨-, rfl⟩ | ⟨rfl, rfl⟩
  · exact hold
  · obtain rfl : t = t₀ := Option.some.inj (hi.symm.trans ht₀)
    exact h.hubSound_join hi hold

end join

end Network

end Replica
