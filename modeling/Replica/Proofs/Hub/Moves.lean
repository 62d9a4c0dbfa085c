import Replica.Proofs.Hub.Distribution
import Replica.Proofs.Network.Data

/-! # What happens at a hub

A hub lets subscribers join, distributes events and forgets those who left; its subscribers read and
leave.  Each of these is a `HubMove`, made by the operations of a network, and they come in any order.

A `Fan` is the part of a network that the moves at one hub concern, and `Fan.step` says what a move
makes of it: `fan?_run` shows that the moves on a network do exactly that. -/

namespace Replica

namespace Network

/-- What happens at a hub. -/
inductive HubMove where
  /-- The hub lets somebody join. -/
  | join
  /-- The hub distributes an event of its source. -/
  | event (e : Event)
  /-- The hub forgets the first one of those who left. -/
  | forget
  /-- The next event of a subscription is read. -/
  | receive (s : Nat)
  /-- A subscription is closed. -/
  | close (s : Nat)
  /-- A subscription is closed, and is gone with its reader. -/
  | drop (s : Nat)
  deriving DecidableEq

/-- A subscription to the hub `i`. -/
def member? (n : Network) (i s : Nat) : Option Subscription :=
  n.subscriptions[s]?.filter (·.hub == some i)

/-- Makes a move at the hub `i`; with what was delivered, and the subscription to which it was.
Moves on other subscriptions do nothing. -/
def HubMove.run (i : Nat) : HubMove → Net (Option (Nat × Event))
  | .join => do
    actForHub i .join
    return none
  | .event e => do
    actForHub i (.event e)
    return none
  | .forget => do
    let some h := (← get).hubs[i]? | return none
    let f :: rest := h.leaving | return none
    modifyHub i fun h => { h with leaving := rest }
    actForHub i (.leave f)
    return none
  | .receive s => do
    if ((← get).member? i s).isSome then
      return (← (Source.subscription s).next).item?.map (s, ·)
    else return none
  | .close s => do
    if ((← get).member? i s).isSome then discard <| closeSubscription s
    return none
  | .drop s => do
    if ((← get).member? i s).isSome then discard <| (Source.subscription s).drop
    return none

/-! ### The part of a network that a hub's moves concern -/

/-- A hub, with the feeds, scopes and subscriptions of its network. -/
structure Fan where
  number : Nat
  task : HubTask
  feeds : Feeds
  scopes : Scopes
  subscriptions : List Subscription

/-- The hub `i` in a network. -/
def fan? (n : Network) (i : Nat) : Option Fan :=
  n.hubs[i]?.map fun task => ⟨i, task, n.feeds, n.scopes, n.subscriptions⟩

namespace Fan

variable (x : Fan)

/-- A subscription to the hub. -/
def member? (s : Nat) : Option Subscription :=
  x.subscriptions[s]?.filter (·.hub == some x.number)

/-- The subscription that the next one who joins will get. -/
def newcomer : Subscription :=
  ⟨x.feeds.length, x.scopes.list.length, x.task.ready, x.task.keeper, some x.number⟩

/-- Somebody joins. -/
def join : Fan :=
  { x with
    task :=
      { x.task with
        hub := (x.task.hub.subscribe x.feeds).1
        granted := some x.subscriptions.length }
    feeds := (x.task.hub.subscribe x.feeds).2.1
    scopes := (x.scopes.addChild x.task.scope).1
    subscriptions := x.subscriptions ++ [x.newcomer] }

/-- An event is distributed. -/
def distribute (e : Event) : Fan :=
  { x with
    task := { x.task with hub := (x.task.hub.distribute x.feeds e).1 }
    feeds := (x.task.hub.distribute x.feeds e).2 }

/-- A subscriber is forgotten. -/
def dismiss (f : FeedId) : Fan :=
  { x with
    task := { x.task with hub := x.task.hub.unsubscribe f }
    feeds := x.feeds.modify f Feed.close }

/-- The first one of those who left is forgotten. -/
def forget : Fan :=
  match x.task.leaving with
  | [] => x
  | f :: rest => dismiss { x with task := { x.task with leaving := rest } } f

theorem forget_of_cons {f : FeedId} {rest : List FeedId} (h : x.task.leaving = f :: rest) :
    x.forget = dismiss { x with task := { x.task with leaving := rest } } f := by
  simp [forget, h]

/-- What there is to read on a subscription. -/
def polled (sub : Subscription) : Polled Event :=
  if x.scopes.isFired sub.scope then .ended
  else (x.feeds[sub.feed]?.map fun feed => feed.poll.2).getD .ended

/-- A subscription is read. -/
def read (sub : Subscription) : Fan :=
  if x.scopes.isFired sub.scope then x
  else { x with feeds := x.feeds.modify sub.feed fun feed => feed.poll.1 }

/-- A subscription is closed. -/
def close (sub : Subscription) : Fan :=
  if x.scopes.isFired sub.scope then x
  else
    { x with
      task := { x.task with leaving := x.task.leaving ++ [sub.feed] }
      scopes := (x.scopes.fire sub.scope).1 }

/-- The reader of a subscription is gone. -/
def abandon (sub : Subscription) : Fan :=
  { x with feeds := x.feeds.modify sub.feed Feed.abandon }

/-- What a move makes of a hub. -/
def step : HubMove → Fan
  | .join => x.join
  | .event e => x.distribute e
  | .forget => x.forget
  | .receive s => (x.member? s).elim x x.read
  | .close s => (x.member? s).elim x x.close
  | .drop s => (x.member? s).elim x fun sub => (x.close sub).abandon sub

/-- What a move delivers, and to which subscription. -/
def delivery : HubMove → Option (Nat × Event)
  | .receive s => (x.member? s).bind fun sub => (x.polled sub).item?.map (s, ·)
  | _ => none

end Fan

/-! ### Moves on networks -/

variable {n : Network} {i s : Nat} {x : Fan} {sub : Subscription}

theorem member?_of_fan? (h : n.fan? i = some x) (s : Nat) : n.member? i s = x.member? s := by
  obtain ⟨task, -, rfl⟩ := Option.map_eq_some_iff.1 h
  rfl

theorem eq_of_fan? (h : n.fan? i = some x) :
    x.feeds = n.feeds ∧ x.scopes = n.scopes ∧ x.subscriptions = n.subscriptions := by
  obtain ⟨task, -, rfl⟩ := Option.map_eq_some_iff.1 h
  exact ⟨rfl, rfl, rfl⟩

/-- A member of a hub is a subscription that tells that hub. -/
theorem Fan.member?_eq_some_iff : x.member? s = some sub ↔
    x.subscriptions[s]? = some sub ∧ sub.hub = some x.number := by
  simp [Fan.member?, Option.filter_eq_some_iff]

/-- The hub does not depend on who runs when. -/
theorem fan?_eq_of_data {n n' : Network} (h : n.data = n'.data) (i : Nat) :
    n.fan? i = n'.fan? i := by
  change n.data.fan? i = n'.data.fan? i
  rw [h]

theorem fan?_join (h : n.fan? i = some x) :
    ((actForHub i .join).run n).2.fan? i = some x.join := by
  obtain ⟨task, hi, rfl⟩ := Option.map_eq_some_iff.1 h
  rw [fan?_eq_of_data (data_join hi)]
  simp [fan?, hi, Fan.join, Fan.newcomer]

theorem fan?_event (h : n.fan? i = some x) (e : Event) :
    ((actForHub i (.event e)).run n).2.fan? i = some (x.distribute e) := by
  obtain ⟨task, hi, rfl⟩ := Option.map_eq_some_iff.1 h
  rw [fan?_eq_of_data (data_event hi e)]
  simp [fan?, hi, Fan.distribute]

theorem fan?_leave (h : n.fan? i = some x) (f : FeedId) :
    ((actForHub i (.leave f)).run n).2.fan? i = some (x.dismiss f) := by
  obtain ⟨task, hi, rfl⟩ := Option.map_eq_some_iff.1 h
  rw [fan?_eq_of_data (data_leave hi f)]
  simp [fan?, hi, Fan.dismiss]

theorem fan?_modifyHub (h : n.fan? i = some x) (change : HubTask → HubTask) :
    ((modifyHub i change).run n).2.fan? i = some { x with task := change x.task } := by
  obtain ⟨task, hi, rfl⟩ := Option.map_eq_some_iff.1 h
  have hdata : ((modifyHub i change).run n).2.data =
      { n with hubs := n.hubs.modify i change }.data := rfl
  rw [fan?_eq_of_data hdata]
  simp [fan?, hi]

theorem run_next (h : n.fan? i = some x) (hs : x.member? s = some sub) :
    ((Source.subscription s).next.run n).1 = x.polled sub ∧
      ((Source.subscription s).next.run n).2.fan? i = some (x.read sub) := by
  obtain ⟨task, hi, rfl⟩ := Option.map_eq_some_iff.1 h
  obtain ⟨hs, -⟩ := Fan.member?_eq_some_iff.1 hs
  cases hfired : n.scopes.isFired sub.scope with
  | true =>
      rw [run_next_of_closed (parts?_subscription hs) hfired]
      simp [fan?, hi, Fan.polled, Fan.read, hfired]
  | false =>
      rw [run_next_of_open (parts?_subscription hs) hfired]
      obtain ⟨hresult, hdata⟩ := data_readFeed sub.feed n
      rw [hresult, fan?_eq_of_data hdata]
      simp [fan?, hi, Fan.polled, Fan.read, hfired]

theorem fan?_closeSubscription (h : n.fan? i = some x) (hs : x.member? s = some sub) :
    ((closeSubscription s).run n).2.fan? i = some (x.close sub) := by
  obtain ⟨task, hi, rfl⟩ := Option.map_eq_some_iff.1 h
  obtain ⟨hs, hhub⟩ := Fan.member?_eq_some_iff.1 hs
  cases hfired : n.scopes.isFired sub.scope with
  | true =>
      rw [run_closeSubscription_of_closed hs hfired]
      simp [fan?, hi, Fan.close, hfired]
  | false =>
      rw [fan?_eq_of_data (data_closeSubscription hs hfired hhub)]
      simp [fan?, hi, Fan.close, hfired]

theorem fan?_drop (h : n.fan? i = some x) (hs : x.member? s = some sub) :
    ((Source.subscription s).drop.run n).2.fan? i = some ((x.close sub).abandon sub) := by
  have hclose := fan?_closeSubscription h hs
  have hsub : ((closeSubscription s).run n).2.subscriptions[s]? = some sub := by
    obtain ⟨task, -, hfan⟩ := Option.map_eq_some_iff.1 hclose
    have hkept : (x.close sub).subscriptions = x.subscriptions := by
      unfold Fan.close
      split <;> rfl
    rw [← (Fan.member?_eq_some_iff.1 hs).1, ← hkept, ← hfan]
  rw [fan?_eq_of_data (data_drop hsub)]
  obtain ⟨task, hi, hfan⟩ := Option.map_eq_some_iff.1 hclose
  simp [fan?, hi, ← hfan, Fan.abandon]

/-- **What a move does to a network is what it makes of the hub.** -/
theorem fan?_run (h : n.fan? i = some x) (m : HubMove) :
    ((m.run i).run n).1 = x.delivery m ∧ ((m.run i).run n).2.fan? i = some (x.step m) := by
  cases m with
  | join => exact ⟨rfl, fan?_join h⟩
  | event e => exact ⟨rfl, fan?_event h e⟩
  | forget =>
      obtain ⟨task, hi, hx⟩ := Option.map_eq_some_iff.1 h
      have htask : x.task = task := by rw [← hx]
      cases hleaving : task.leaving with
      | nil =>
          simp only [HubMove.run, StateT.run_bind, StateT.run_get, pure_bind, hi, hleaving]
          have hforget : x.forget = x := by simp [Fan.forget, htask, hleaving]
          exact ⟨rfl, h.trans (congrArg some hforget.symm)⟩
      | cons f rest =>
          simp only [HubMove.run, StateT.run_bind, StateT.run_get, pure_bind, hi, hleaving]
          rw [Fan.step, x.forget_of_cons (htask ▸ hleaving)]
          exact ⟨rfl, fan?_leave (fan?_modifyHub h _) f⟩
  | receive s =>
      simp only [HubMove.run, StateT.run_bind, StateT.run_get, pure_bind, member?_of_fan? h,
        Fan.step, Fan.delivery]
      cases hs : x.member? s with
      | none => exact ⟨rfl, h⟩
      | some sub =>
          obtain ⟨hresult, hfan⟩ := run_next h hs
          exact ⟨congrArg (fun r => r.item?.map (s, ·)) hresult, hfan⟩
  | close s =>
      simp only [HubMove.run, StateT.run_bind, StateT.run_get, pure_bind, member?_of_fan? h,
        Fan.step, Fan.delivery]
      cases hs : x.member? s with
      | none => exact ⟨rfl, h⟩
      | some sub => exact ⟨rfl, fan?_closeSubscription h hs⟩
  | drop s =>
      simp only [HubMove.run, StateT.run_bind, StateT.run_get, pure_bind, member?_of_fan? h,
        Fan.step, Fan.delivery]
      cases hs : x.member? s with
      | none => exact ⟨rfl, h⟩
      | some sub => exact ⟨rfl, fan?_drop h hs⟩

end Network

end Replica
