import Replica.Network.Basic

/-! # The tree that grows from a pipeline

A subscription is taken by a user, or by a view, a hub or an observer that is made of it, and a view can be
taken by a hub in turn.  All of that is one `Node` of the tree; the subscriptions that a hub gives are the
nodes right below its node.

`Network.tree` is what has grown in a network.  `Tree.Within` says that one node is another one or is below
it.  Growing (`Tree.Grows`) adds nodes, and leaves those that are there where they are. -/

namespace Replica

namespace Network

/-- A node: the pipeline with the hub on it, or a subscription with everything that was made of it. -/
inductive Node where
  | pipeline
  | grown (subscription : Nat)
  deriving DecidableEq

/-- What has grown: all subscriptions, the sources of the hubs, and the subscriptions of the views and of the
observers. -/
structure Tree where
  subscriptions : List Subscription
  sources : List Source
  parents : List Nat
  watched : List Nat

/-- What has grown in a network. -/
def tree (n : Network) : Tree where
  subscriptions := n.subscriptions
  sources := n.hubs.map HubTask.source
  parents := n.views.map ViewTask.parent
  watched := n.observers.map ObserverTask.subscription

namespace Tree

/-- The node of a subscription; the one that no hub has given belongs to the pipeline. -/
def subscription? (t : Tree) (s : Nat) : Option Node :=
  t.subscriptions[s]?.map fun sub => if sub.hub.isSome then .grown s else .pipeline

/-- The node of a view. -/
def view? (t : Tree) (v : Nat) : Option Node := t.parents[v]?.bind t.subscription?

/-- The node of a source. -/
def source? (t : Tree) : Source → Option Node
  | .subscription s => t.subscription? s
  | .view v => t.view? v

/-- The node of a hub. -/
def hub? (t : Tree) (i : Nat) : Option Node := t.sources[i]?.bind t.source?

/-- The node of an observer. -/
def observer? (t : Tree) (o : Nat) : Option Node := t.watched[o]?.bind t.subscription?

/-- The node right above another one. -/
def up? (t : Tree) : Node → Option Node
  | .pipeline => none
  | .grown s => (t.subscriptions[s]?.bind Subscription.hub).bind t.hub?

/-- The node `x` is `a`, or below it. -/
inductive Within (t : Tree) (a : Node) : Node → Prop
  | refl : t.Within a a
  | grow {x y : Node} (hy : t.Within a y) (hx : t.up? x = some y) : t.Within a x

variable {t u : Tree} {a x y : Node}

theorem Within.trans (hx : t.Within a x) (hy : t.Within x y) : t.Within a y := by
  induction hy with
  | refl => exact hx
  | grow _ hup ih => exact ih.grow hup

/-! ### Growing -/

/-- One tree has grown to the other. -/
structure Grows (t u : Tree) : Prop where
  subscriptions : t.subscriptions <+: u.subscriptions
  sources : t.sources <+: u.sources
  parents : t.parents <+: u.parents
  watched : t.watched <+: u.watched

theorem getElem?_of_prefix {α : Type} {l l' : List α} (h : l <+: l') {i : Nat} {a : α} (hi : l[i]? = some a) :
    l'[i]? = some a := by
  obtain ⟨rest, rfl⟩ := h
  rw [List.getElem?_append_left (List.getElem?_eq_some_iff.1 hi).1, hi]

theorem getElem?_of_concat {α : Type} {l : List α} {a b : α} {i : Nat} (hi : (l ++ [a])[i]? = some b) :
    l[i]? = some b ∨ i = l.length ∧ b = a := by
  rcases Nat.lt_trichotomy i l.length with hlt | rfl | hgt
  · exact .inl ((List.getElem?_append_left hlt).symm.trans hi)
  · exact .inr ⟨rfl, by simpa using hi.symm⟩
  · rw [List.getElem?_eq_none (by simpa [Nat.succ_le_iff] using hgt)] at hi
    cases hi

theorem Grows.subscription? (h : t.Grows u) {s : Nat} (hs : t.subscription? s = some x) :
    u.subscription? s = some x := by
  obtain ⟨sub, hsub, rfl⟩ := Option.map_eq_some_iff.1 hs
  exact Option.map_eq_some_iff.2 ⟨sub, getElem?_of_prefix h.subscriptions hsub, rfl⟩

theorem Grows.view? (h : t.Grows u) {v : Nat} (hv : t.view? v = some x) : u.view? v = some x := by
  obtain ⟨s, hs, hx⟩ := Option.bind_eq_some_iff.1 hv
  exact Option.bind_eq_some_iff.2 ⟨s, getElem?_of_prefix h.parents hs, h.subscription? hx⟩

theorem Grows.source? (h : t.Grows u) {s : Source} (hs : t.source? s = some x) : u.source? s = some x := by
  cases s with
  | subscription s => exact h.subscription? hs
  | view v => exact h.view? hs

theorem Grows.hub? (h : t.Grows u) {i : Nat} (hi : t.hub? i = some x) : u.hub? i = some x := by
  obtain ⟨s, hs, hx⟩ := Option.bind_eq_some_iff.1 hi
  exact Option.bind_eq_some_iff.2 ⟨s, getElem?_of_prefix h.sources hs, h.source? hx⟩

theorem Grows.observer? (h : t.Grows u) {o : Nat} (ho : t.observer? o = some x) : u.observer? o = some x := by
  obtain ⟨s, hs, hx⟩ := Option.bind_eq_some_iff.1 ho
  exact Option.bind_eq_some_iff.2 ⟨s, getElem?_of_prefix h.watched hs, h.subscription? hx⟩

theorem Grows.up? (h : t.Grows u) (hx : t.up? x = some y) : u.up? x = some y := by
  cases x with
  | pipeline => cases hx
  | grown s =>
      obtain ⟨i, hi, hy⟩ := Option.bind_eq_some_iff.1 hx
      obtain ⟨sub, hsub, hhub⟩ := Option.bind_eq_some_iff.1 hi
      refine Option.bind_eq_some_iff.2 ⟨i, Option.bind_eq_some_iff.2 ⟨sub, ?_, hhub⟩, h.hub? hy⟩
      exact getElem?_of_prefix h.subscriptions hsub

/-- What is within a node stays so. -/
theorem Grows.within (h : t.Grows u) (hx : t.Within a x) : u.Within a x := by
  induction hx with
  | refl => exact .refl
  | grow _ hup ih => exact ih.grow (h.up? hup)

end Tree

end Network

end Replica
