import Replica.Proofs.Closure.Tree
import Replica.Proofs.Coordinator.Upkeep
import Replica.Proofs.Feed
import Replica.Proofs.Network.Firing
import Replica.Proofs.Network.Run
import Replica.Proofs.View.Vantage

/-! # Who may close what

The `Network.skeleton` is what does not change in the course of time: what components there are, and how they
hang together.  A `Plan` says of a skeleton to which node of the tree each scope and each feed belongs, and it
is `Laid` if that fits.

A node is `Caused` to close if some cause is at it or above it.  `Sound` says that nothing is closed but at
such nodes: no scope that belongs to another node has fired, no feed of it has ended, and no task of it has
begun to stop. -/

namespace Replica

/-! ### Followers -/

namespace Follower

/-- A follower has stopped, and its output tells so. -/
structure HasEnded (f : Follower) : Prop where
  stopped : f.isStopped = true
  output : ∃ out, f.output = some out ∧ out.isSealed = true

/-- As long as a follower has a session, or an attempt is due, it has an output that somebody reads. -/
structure Proper (f : Follower) (isDue : Bool) : Prop where
  ends : ∀ out, f.output = some out → out.isSealed = true → f.isStopped = true
  read : ∀ out, f.output = some out → out.isAbandoned = false
  output : f.isStopped = false → f.session.isSome = true ∨ isDue = true → f.output.isSome = true

theorem Proper.mono {f : Follower} {isDue isDue' : Bool} (h : f.Proper isDue) (hdue : isDue' = true → isDue = true) :
    f.Proper isDue' :=
  { h with output := fun hr hneeds => h.output hr (hneeds.imp id hdue) }

end Follower

namespace Network

/-! ### Skeletons -/

def KeeperTask.bare (k : KeeperTask) : KeeperTask := { k with keeper := .new .acceptAll }

def HubTask.bare (h : HubTask) : HubTask :=
  { h with
    hub := .new 0, leaving := [], isAsked := false, granted := none, isHeld := true, isStopped := false }

def ViewTask.bare (v : ViewTask) : ViewTask :=
  { v with view := .new .acceptAll false, request := none, reply := none }

def ObserverTask.bare (o : ObserverTask) : ObserverTask := { o with phase := .waiting, calls := [], reply := none }

def PollerTask.bare (p : PollerTask) : PollerTask := { p with poller := .new, period := 0, deadline := 0 }

def FollowerTask.bare (f : FollowerTask) : FollowerTask :=
  { f with follower := default, inbox := none, wasReset := false, deadline := none }

def CoordinatorTask.bare (c : CoordinatorTask) : CoordinatorTask := { c with coordinator := .new, reply := none }

/-- The components of a network, without anything that changes in the course of time.  Sessions come and go,
and so they are no part of it. -/
def skeleton (n : Network) : Network where
  now := 0
  server := default
  scopes := .empty
  executor := .empty
  feeds := n.feeds.map fun _ => default
  subscriptions := n.subscriptions
  keepers := n.keepers.map KeeperTask.bare
  hubs := n.hubs.map HubTask.bare
  views := n.views.map ViewTask.bare
  observers := n.observers.map ObserverTask.bare
  sessions := []
  poller := n.poller.map PollerTask.bare
  follower := n.follower.map FollowerTask.bare
  coordinator := n.coordinator.map CoordinatorTask.bare
  reply := none

variable {n : Network}

theorem tree_skeleton (n : Network) : n.skeleton.tree = n.tree := by
  simp [tree, skeleton, Function.comp_def, HubTask.bare, ViewTask.bare, ObserverTask.bare]

theorem parts?_skeleton (n : Network) (s : Source) : s.parts? n.skeleton = s.parts? n := by
  cases s with
  | subscription i => rfl
  | view i =>
      simp only [Source.parts?, skeleton, List.getElem?_map, Option.map_map]
      rfl

/-- The signal that tells that a task has stopped. -/
def told? (n : Network) : TaskId → Option ScopeId
  | .hub i => n.hubs[i]?.map HubTask.done
  | .view i => n.views[i]?.map ViewTask.done
  | .observer i => n.observers[i]?.map ObserverTask.done
  | .coordinator => n.coordinator.map CoordinatorTask.done
  | _ => none

/-- A task has stopped, and has that signal. -/
def Over (n : Network) (t : TaskId) (j : ScopeId) : Prop :=
  match t with
  | .hub i => ∃ t, n.hubs[i]? = some t ∧ t.isStopped = true ∧ t.done = j
  | .view i => ∃ v, n.views[i]? = some v ∧ v.view.phase = .stopped ∧ v.done = j
  | .observer i => ∃ o, n.observers[i]? = some o ∧ o.phase = .stopped ∧ o.done = j
  | .coordinator => ∃ c, n.coordinator = some c ∧ c.coordinator.phase = .closed ∧ c.done = j
  | _ => False

theorem Over.told? {t : TaskId} {j : ScopeId} (h : n.Over t j) : n.skeleton.told? t = some j := by
  cases t with
  | hub i | view i | observer i =>
      obtain ⟨t, hi, -, rfl⟩ := h
      simp [Network.told?, skeleton, hi, HubTask.bare, ViewTask.bare, ObserverTask.bare]
  | coordinator =>
      obtain ⟨c, hc, -, rfl⟩ := h
      simp [Network.told?, skeleton, hc, CoordinatorTask.bare]
  | _ => cases h

/-! ### Plans -/

/-- What a scope is for. -/
inductive Role where
  /-- Nothing that a plan is about. -/
  | neutral
  /-- It tells that contents can be read. -/
  | ready
  /-- It is the lifetime of something at a node. -/
  | life (x : Node)
  /-- It tells that a task has stopped. -/
  | done (t : TaskId)

/-- What is built, and where it belongs. -/
structure Plan where
  /-- The skeleton of what is built. -/
  parts : Network
  role : ScopeId → Role
  /-- The scope right above another one. -/
  above : ScopeId → Option ScopeId
  /-- The node of the component that writes to a feed, or of the one that reads it. -/
  feed : FeedId → Node
  /-- The scopes that have fired when a task tells that it has stopped. -/
  needs : TaskId → List ScopeId

/-- The node of a task that tells when it has stopped. -/
def Tree.task? (t : Tree) : TaskId → Option Node
  | .hub i => t.hub? i
  | .view i => t.view? i
  | .observer i => t.observer? i
  | .coordinator => some .pipeline
  | _ => none

namespace Plan

variable (w : Plan)

/-- The tree that is built. -/
def tree : Tree := w.parts.tree

/-- The node whose end a scope tells, if it tells an end. -/
def owner? (j : ScopeId) : Option Node :=
  match w.role j with
  | .neutral => none
  | .ready => none
  | .life x => some x
  | .done t => w.tree.task? t

/-- Some cause is at the node or above it. -/
def Caused (causes : List Node) (x : Node) : Prop := ∃ a ∈ causes, w.tree.Within a x

/-- A keeper can be asked from a node: it is at that node or above it. -/
def Serves (keeper : Nat) (x : Node) : Prop :=
  ∃ k y, w.parts.keepers[keeper]? = some k ∧ w.role k.scope = .life y ∧ w.tree.Within y x

/-- A subscription is built after the plan, at a node. -/
structure Subscribes (sub : Subscription) (x : Node) : Prop where
  scope : w.role sub.scope = .life x
  ready : w.role sub.ready = .ready
  feed : w.feed sub.feed = x
  bound : sub.feed < w.parts.feeds.length
  keeper : w.Serves sub.keeper x
  /-- It is below its hub, or below the pipeline. -/
  above : match sub.hub with
    | some i => ∃ h, w.parts.hubs[i]? = some h ∧ w.above sub.scope = some h.scope
    | none => ∃ c, w.parts.coordinator = some c ∧ w.above sub.scope = some c.scope

/-- A hub is built after the plan, at a node. -/
structure Distributes (i : Nat) (h : HubTask) (x : Node) : Prop where
  scope : w.role h.scope = .life x
  done : w.role h.done = .done (.hub i)
  ready : w.role h.ready = .ready
  keeper : w.Serves h.keeper x
  needs : ∃ p, h.source.parts? w.parts = some p ∧ w.needs (.hub i) = [h.scope, p.scope]

/-- A view is built after the plan, at a node. -/
structure Filters (i : Nat) (v : ViewTask) (x : Node) : Prop where
  scope : w.role v.scope = .life x
  done : w.role v.done = .done (.view i)
  ready : w.role v.ready = .ready
  feed : w.feed v.feed = x
  bound : v.feed < w.parts.feeds.length
  keeper : ∃ k, w.parts.keepers[v.keeper]? = some k ∧ w.role k.scope = .life x ∧ w.above k.scope = some v.scope
  needs : ∃ sub, w.parts.subscriptions[v.parent]? = some sub ∧ w.needs (.view i) = [v.scope, sub.scope]

/-- An observer is built after the plan, at a node. -/
structure Observes (i : Nat) (o : ObserverTask) (x : Node) : Prop where
  scope : w.role o.scope = .life x
  done : w.role o.done = .done (.observer i)
  needs : ∃ sub, w.parts.subscriptions[o.subscription]? = some sub ∧ w.needs (.observer i) = [sub.scope]

/-- The coordinator is built after the plan. -/
structure Coordinates (c : CoordinatorTask) : Prop where
  scope : w.role c.scope = .life .pipeline
  done : w.role c.done = .done .coordinator
  ready : w.role c.ready = .ready
  feed : w.feed c.feed = .pipeline
  bound : c.feed < w.parts.feeds.length
  keeper : ∃ k, w.parts.keepers[c.keeper]? = some k ∧ w.role k.scope = .life .pipeline
  hub : w.tree.hub? c.hub = some .pipeline
  needs : w.needs .coordinator = [c.scope]

/-- Everything is built after the plan. -/
structure Laid : Prop where
  above : ∀ j p, w.role j ≠ .neutral → w.above j = some p →
    ∃ x y, w.role j = .life x ∧ w.role p = .life y ∧ (x = y ∨ w.tree.up? x = some y)
  told : ∀ j t, w.role j = .done t → ∃ x, w.tree.task? t = some x
  keeper : ∀ (i : Nat) (k : KeeperTask), w.parts.keepers[i]? = some k →
    ∃ x, w.role k.scope = .life x ∧ w.role k.done = .life x
  subscription : ∀ (s : Nat) (sub : Subscription), w.parts.subscriptions[s]? = some sub →
    ∃ x, w.tree.subscription? s = some x ∧ w.Subscribes sub x
  hub : ∀ (i : Nat) (h : HubTask), w.parts.hubs[i]? = some h →
    ∃ x, w.tree.hub? i = some x ∧ w.Distributes i h x
  view : ∀ (i : Nat) (v : ViewTask), w.parts.views[i]? = some v →
    ∃ x, w.tree.view? i = some x ∧ w.Filters i v x
  observer : ∀ (i : Nat) (o : ObserverTask), w.parts.observers[i]? = some o →
    ∃ x, w.tree.observer? i = some x ∧ w.Observes i o x
  poller : ∃ p, w.parts.poller = some p ∧ w.role p.scope = .life .pipeline
  follower : ∃ f, w.parts.follower = some f ∧ w.role f.scope = .life .pipeline
  coordinator : ∃ c, w.parts.coordinator = some c ∧ w.Coordinates c

variable {w} {causes : List Node} {x y : Node}

theorem Caused.within (h : w.Caused causes x) (hy : w.tree.Within x y) : w.Caused causes y := by
  obtain ⟨a, ha, hx⟩ := h
  exact ⟨a, ha, hx.trans hy⟩

theorem Caused.up (h : w.Caused causes y) (hx : w.tree.up? x = some y) : w.Caused causes x :=
  h.within (.grow .refl hx)

theorem Caused.mono {causes' : List Node} (h : w.Caused causes x) (hsub : causes ⊆ causes') :
    w.Caused causes' x := by
  obtain ⟨a, ha, hx⟩ := h
  exact ⟨a, hsub ha, hx⟩

theorem owner?_of_life {j : ScopeId} (h : w.role j = .life x) : w.owner? j = some x := by
  rw [owner?, h]

theorem owner?_of_done {j : ScopeId} {t : TaskId} (h : w.role j = .done t) : w.owner? j = w.tree.task? t := by
  rw [owner?, h]

end Plan

/-! ### Soundness -/

/-- Something that has happened for good. -/
inductive Mark where
  /-- A scope has fired. -/
  | fired (j : ScopeId)
  /-- The follower has given up. -/
  | halted
  deriving DecidableEq

/-- It has happened. -/
def Mark.Holds (n : Network) : Mark → Prop
  | .fired j => n.scopes.isFired j = true
  | .halted => ∀ f, n.follower = some f → f.follower.HasEnded

/-- What a task is about to do. -/
inductive Activity where
  /-- It has begun to stop, and fires what it has to fire. -/
  | stopping (t : TaskId)
  /-- It has stopped, and tells that. -/
  | telling (t : TaskId)

section sound

variable (w : Plan) (causes : List Node)

/-- Nothing is wrong with a hub, or it is caused to close. -/
structure HubSound (subscriptions : List Subscription) (i : Nat) (h : HubTask) : Prop where
  stopped : h.isStopped = true → ∀ x, w.tree.hub? i = some x → w.Caused causes x
  leaving : ∀ f ∈ h.leaving, f < w.parts.feeds.length ∧ w.Caused causes (w.feed f)
  live : ∀ f ∈ h.hub.live, ∃ (s : Nat) (sub : Subscription),
    subscriptions[s]? = some sub ∧ sub.hub = some i ∧ sub.feed = f
  nodup : h.hub.live.Nodup
  granted : ∀ s, h.granted = some s → ∃ sub, subscriptions[s]? = some sub ∧ sub.hub = some i

/-- What has begun to stop is caused to close, and has fired what it has to fire, unless it is about to. -/
structure Stops (scopes : Scopes) (busy : Option Activity) (t : TaskId) : Prop where
  caused : ∀ x, w.tree.task? t = some x → w.Caused causes x
  fired : busy ≠ some (.stopping t) → ∀ j ∈ w.needs t, scopes.isFired j = true

/-- At rest, a task that has stopped has closed what it has to close. -/
theorem Stops.isFired {w : Plan} {causes : List Node} {scopes : Scopes} {t : TaskId} {j : ScopeId}
    (h : Stops w causes scopes none t) (hj : j ∈ w.needs t) : scopes.isFired j = true :=
  h.fired nofun j hj

/-- **Nothing is closed but at nodes that are caused to close.** -/
structure Sound (marks : List Mark) (busy : Option Activity) (n : Network) : Prop where
  laid : w.Laid
  skeleton : n.skeleton = w.parts
  marked : ∀ m ∈ marks, m.Holds n
  ordered : n.scopes.Ordered
  down : n.scopes.Down
  known : ∀ j, w.role j ≠ .neutral → j < n.scopes.list.length
  above : ∀ j, w.role j ≠ .neutral → n.scopes.parent? j = w.above j
  fired : ∀ j x, n.scopes.isFired j = true → w.owner? j = some x → w.Caused causes x
  done : ∀ j t, w.role j = .done t → n.scopes.isFired j = true → ∀ k ∈ w.needs t, n.scopes.isFired k = true
  stopped : ∀ t j, n.Over t j → busy = some (.telling t) ∨ n.scopes.isFired j = true
  feed : ∀ (f : Nat) (feed : Feed Event), n.feeds[f]? = some feed → ¬ feed.IsOpen → w.Caused causes (w.feed f)
  hub : ∀ (i : Nat) (h : HubTask), n.hubs[i]? = some h → HubSound w causes n.subscriptions i h
  seated : ∀ (s : Nat) (sub : Subscription) (i : Nat) (h : HubTask), n.subscriptions[s]? = some sub →
    sub.hub = some i → n.hubs[i]? = some h → sub.feed ∈ h.hub.live ∨ w.Caused causes (.grown s)
  view : ∀ (i : Nat) (v : ViewTask), n.views[i]? = some v → v.view.isRunning = false →
    Stops w causes n.scopes busy (.view i)
  observer : ∀ (i : Nat) (o : ObserverTask), n.observers[i]? = some o → o.phase = .stopped →
    ∀ x, w.tree.observer? i = some x → w.Caused causes x
  coordinator : ∀ c, n.coordinator = some c → c.coordinator.isRunning = false →
    Stops w causes n.scopes busy .coordinator
  poller : ∀ p, n.poller = some p → p.poller.phase = .stopped → w.Caused causes .pipeline
  follower : ∀ f, n.follower = some f → f.follower.isStopped = true → w.Caused causes .pipeline
  proper : ∀ f, n.follower = some f → f.follower.Proper f.deadline.isSome
  session : ∀ (i : Nat) (s : SessionTask), n.sessions[i]? = some s →
    w.role s.scope = .neutral ∧ s.scope < n.scopes.list.length

end sound

end Network

end Replica
