import Replica.Proofs.Closure.Beginning

/-! # What users do is a run

A network is `Reached` if a run leads to it by which nothing is caused but what is named, and perhaps a failure of
the pipeline.  It stays so while tasks run and time passes (`stable_reached`).

Whoever subscribes to a branch is given a node right below that branch's node (`carries_subscribe`), and the views,
the observers and the other branches that are made with it are at that node (`carries_subscribeFiltered`,
`carries_observe`, `carries_grow` and their kin). -/

namespace Replica

namespace Network

variable {α β : Type} {n₀ n n' : Network} {causes : List Node} {x : Node}

/-! ### Networks that are reached -/

/-- A run leads to the network, with these causes and perhaps failures of the pipeline. -/
def Reached (n₀ : Network) (causes : List Node) (n : Network) : Prop :=
  ∃ failed, (∀ a ∈ failed, a = .pipeline) ∧ n₀.Run (failed ++ causes) n

theorem Reached.happens {new : List Node} (h : n₀.Reached causes n) (hn : n.Happens new n')
    (hnew : ∀ a ∈ new, a = .pipeline) : n₀.Reached causes n' := by
  obtain ⟨failed, hfailed, hrun⟩ := h
  refine ⟨new ++ failed, fun a ha => (List.mem_append.1 ha).elim (hnew a) (hfailed a), ?_⟩
  rw [List.append_assoc]
  exact hrun.happen hn

theorem Reached.happensFree (h : n₀.Reached causes n) (hn : n.Happens [] n') : n₀.Reached causes n' := h.happens hn nofun

theorem Reached.ofData (n₀ : Network) (causes : List Node) : IsOfData (n₀.Reached causes) :=
  fun _ _ same h => h.happensFree (.schedule same)

theorem Schedules.reached {y : Net α} (hy : Schedules y) : Maintains (n₀.Reached causes) y :=
  hy.maintains (Reached.ofData n₀ causes)

/-- Nothing fails but the pipeline. -/
theorem eq_pipeline_of_mem_failures {t : TaskId} {a : Node} (h : a ∈ failures n t) : a = .pipeline := by
  unfold failures at h
  split at h
  · split at h
    · exact List.mem_singleton.1 h
    · cases h
  · split at h
    · split at h
      · exact List.mem_singleton.1 h
      · cases h
    · cases h
  · cases h

/-- **What has been reached stays so** whatever tasks run, and for however long. -/
theorem stable_reached (n₀ : Network) (causes : List Node) : Stable (n₀.Reached causes) where
  ofData := Reached.ofData n₀ causes
  later n now h := h.happensFree (.pass now)
  turn t := by
    rw [run_eq_drive]
    refine drive_induction (Reached.ofData n₀ causes) (fun n h => gives_iff.2 fun n' hn' => ?_) turnLimit
    exact h.happens (.proceed hn') fun a => eq_pipeline_of_mem_failures

/-! ### Operations -/

section carries

variable {P Q R : Network → Prop} {A : α → Network → Prop} {B : β → Network → Prop} {y : Op α}

/-- From `P` the operation leads to `R`, and unless it is refused, `A` says what it has given. -/
def Carries (P R : Network → Prop) (y : Op α) (A : α → Network → Prop) : Prop :=
  ∀ n, P n → R (y.run.run n).2 ∧ ∀ a, (y.run.run n).1 = .ok a → A a (y.run.run n).2

theorem Carries.bind {f : α → Op β} (hy : Carries P R y A) (hf : ∀ a, Carries (fun n => R n ∧ A a n) R (f a) B) :
    Carries P R (y >>= f) B := by
  intro n hn
  obtain ⟨hleft, hgiven⟩ := hy n hn
  rw [ExceptT.run_bind, run_bind]
  cases hresult : (y.run.run n).1 with
  | error e => exact ⟨hleft, nofun⟩
  | ok a => exact hf a _ ⟨hleft, hgiven a hresult⟩

theorem Carries.get {f : Network → Op β} (hf : ∀ n, P n → Carries (· = n) R (f n) B) :
    Carries P R (MonadState.get >>= f) B :=
  fun n hn => hf n hn n rfl

theorem Carries.pure {a : α} (h : ∀ n, P n → R n ∧ A a n) : Carries P R (Pure.pure a) A := by
  rintro n hn
  refine ⟨(h n hn).1, ?_⟩
  rintro _ ⟨⟩
  exact (h n hn).2

theorem Carries.throw (e : Error) (h : ∀ n, P n → R n) : Carries P R (MonadExcept.throw e : Op α) A :=
  fun n hn => ⟨h n hn, nofun⟩

theorem Carries.lift {act : Net α} (h : ∀ n, P n → R (act.run n).2 ∧ A (act.run n).1 (act.run n).2) :
    Carries P R (liftM act) A := by
  intro n hn
  refine ⟨(h n hn).1, ?_⟩
  rintro _ ⟨⟩
  exact (h n hn).2

/-- The tasks run in between, or something happens. -/
theorem Carries.act {act : Net α} {f : α → Op β} (hact : Maintains R act) (hf : ∀ a, Carries R R (f a) B) :
    Carries R R (liftM act >>= f) B :=
  (Carries.lift (A := fun _ _ => True) fun n hn => ⟨hact n hn, trivial⟩).bind fun a => fun n hn => hf a n hn.1

theorem Carries.of_imp (h : Carries Q R y A) (hP : ∀ n, P n → Q n) : Carries P R y A := fun n hn => h n (hP n hn)

end carries

/-! ### Subscribing -/

section subscribing

variable {s i : Nat} {b : Branch}

/-- The subscription was given by the hub. -/
def GivenBy (i s : Nat) (n : Network) : Prop := ∃ sub, n.subscriptions[s]? = some sub ∧ sub.hub = some i

theorem GivenBy.subscription? (h : GivenBy i s n) : n.tree.subscription? s = some (.grown s) := by
  obtain ⟨sub, hs, hhub⟩ := h
  exact Option.map_eq_some_iff.2 ⟨sub, hs, by simp [hhub]⟩

/-- Its node is right below that of the hub. -/
theorem GivenBy.up? (h : GivenBy i s n) : n.tree.up? (.grown s) = n.tree.hub? i := by
  obtain ⟨sub, hs, hhub⟩ := h
  simp [Tree.up?, tree, hs, hhub]

/-- What a hub grants is a subscription that it has given. -/
theorem Reached.granted (h₀ : Closing [] n₀) (h : n₀.Reached causes n) {t : HubTask} (hi : n.hubs[i]? = some t)
    (hs : t.granted = some s) : GivenBy i s n := by
  obtain ⟨failed, -, hrun⟩ := h
  obtain ⟨w, marks, hsound, -⟩ := h₀.run hrun
  exact (hsound.hub i t hi).granted s hs

/-- **Whoever subscribes to a branch is given a subscription by its hub.** -/
theorem carries_subscribe (h₀ : Closing [] n₀) (b : Branch) :
    Carries (n₀.Reached causes) (n₀.Reached causes) b.subscribe (GivenBy b.hub) := by
  have hrefused : ∀ {P : Network → Prop}, (∀ n, P n → n₀.Reached causes n) →
      Carries P (n₀.Reached causes) (throw .notRunning : Op Nat) (GivenBy b.hub) := fun h => .throw _ h
  refine .get fun n hn => ?_
  have hsame : ∀ m, m = n → n₀.Reached causes m := by
    rintro _ rfl
    exact hn
  split
  swap
  · exact hrefused hsame
  split
  swap
  · exact hrefused hsame
  dsimp only
  refine Carries.of_imp ?_ hsame
  split
  · exact fun m hm => ⟨hm, nofun⟩
  refine .act (fun m hm => hm.happensFree (.apply b.hub)) fun _ => ?_
  refine .act (schedules_occur _).reached fun _ => ?_
  refine .act ((stable_reached n₀ causes).runUntil _) fun _ => ?_
  refine .get fun m hm => ?_
  split
  · rename_i s hs
    obtain ⟨t, ht, hgranted⟩ := Option.bind_eq_some_iff.1 hs
    refine .pure ?_
    rintro _ rfl
    exact ⟨hm, hm.granted h₀ ht hgranted⟩
  · refine hrefused ?_
    rintro _ rfl
    exact hm

end subscribing

/-! ### What is made of a subscription -/

section made

variable {s i : Nat} {b : Branch}

theorem tree_of_data (h : n'.data = n.data) : n'.tree = n.tree := by
  rw [eq_of_data h]
  rfl

theorem GivenBy.of_subscriptions (h : GivenBy i s n) (hsame : n'.subscriptions = n.subscriptions) : GivenBy i s n' := by
  rw [GivenBy, hsame]
  exact h

/-- The view is at the node of a subscription that the hub has given. -/
def ViewBelow (i v : Nat) (n : Network) : Prop := ∃ s, GivenBy i s n ∧ n.tree.view? v = some (.grown s)

theorem carries_startView (i s : Nat) (filter : Filter) (deferred : Bool) :
    Carries (fun n => n₀.Reached causes n ∧ GivenBy i s n) (n₀.Reached causes) (liftM (startView s filter deferred))
      (ViewBelow i) := by
  refine .lift fun n ⟨hn, hgiven⟩ => ?_
  obtain ⟨sub, hs, -⟩ := id hgiven
  have hdata := data_startView hs filter deferred
  refine ⟨hn.happensFree (.startView hgiven.subscription? filter deferred), s,
    hgiven.of_subscriptions (congrArg subscriptions hdata :), ?_⟩
  have hnode := hgiven.subscription?
  rw [tree_of_data hdata, show ((startView s filter deferred).run n).1 = n.views.length from rfl]
  simpa [Tree.view?, Tree.subscription?, tree, viewed] using hnode

/-- **A filtered subscription is a view at a node right below the branch's.** -/
theorem carries_subscribeFiltered (h₀ : Closing [] n₀) (b : Branch) (filter : Filter) :
    Carries (n₀.Reached causes) (n₀.Reached causes) (b.subscribeFiltered filter) (ViewBelow b.hub) :=
  (carries_subscribe h₀ b).bind fun s => carries_startView b.hub s filter false

theorem carries_subscribeDeferred (h₀ : Closing [] n₀) (b : Branch) :
    Carries (n₀.Reached causes) (n₀.Reached causes) b.subscribeDeferred (ViewBelow b.hub) :=
  (carries_subscribe h₀ b).bind fun s => carries_startView b.hub s .rejectAll true

/-- **An observer is at a node right below the branch's.** -/
theorem carries_observe (h₀ : Closing [] n₀) (b : Branch) (interest : Observer.Interest) :
    Carries (n₀.Reached causes) (n₀.Reached causes) (b.observe interest) fun o n =>
      ∃ s, n.tree.up? (.grown s) = n.tree.hub? b.hub ∧ n.tree.observer? o = some (.grown s) := by
  refine (carries_subscribe h₀ b).bind fun s => .lift fun n ⟨hn, hgiven⟩ => ?_
  have hdata := data_startObserver n s interest
  have hstays := hgiven.of_subscriptions (congrArg subscriptions hdata :)
  refine ⟨hn.happensFree (.startObserver hgiven.subscription? interest), s, hstays.up?, ?_⟩
  have hnode := hgiven.subscription?
  rw [tree_of_data hdata, show ((startObserver s interest).run n).1 = n.observers.length from rfl]
  simpa [Tree.observer?, Tree.subscription?, tree, observed] using hnode

/-- The branch is at a node right below the hub's. -/
def BranchBelow (i : Nat) (b : Branch) (n : Network) : Prop :=
  ∃ s, n.tree.up? (.grown s) = n.tree.hub? i ∧ b.At n (.grown s)

/-- A branch on a source is at the node of the source. -/
theorem reached_startHub {source : Source} (view : Option Nat) (capacity : Nat) (hn : n₀.Reached causes n)
    (hgiven : GivenBy i s n) (hx : n.tree.source? source = some (.grown s)) :
    n₀.Reached causes ((startHub source capacity).run n).2 ∧
      BranchBelow i ⟨((startHub source capacity).run n).1, view, false⟩ ((startHub source capacity).run n).2 := by
  obtain ⟨p, hp⟩ := exists_parts? hx
  have hdata := data_startHub hp capacity
  have hstays := hgiven.of_subscriptions (congrArg subscriptions hdata :)
  refine ⟨hn.happensFree (.startHub hx capacity), s, hstays.up?, .grown rfl ?_⟩
  rw [tree_of_data hdata, show ((startHub source capacity).run n).1 = n.hubs.length from rfl]
  have hnew : (n.hubbed source capacity p).tree.sources[n.hubs.length]? = some source := by simp [tree, hubbed]
  rw [Tree.hub?, hnew]
  exact hx

/-- **A branch that has grown from another one is at a node right below that one's.** -/
theorem carries_grow (h₀ : Closing [] n₀) (b : Branch) :
    Carries (n₀.Reached causes) (n₀.Reached causes) b.grow (BranchBelow b.hub) := by
  refine .get fun n hn => ?_
  refine Carries.of_imp ?_ (fun m (hm : m = n) => (hm ▸ hn : n₀.Reached causes m))
  refine (carries_subscribe h₀ b).bind fun s => .lift fun m ⟨hm, hgiven⟩ => ?_
  exact reached_startHub none _ hm hgiven (show m.tree.source? (.subscription s) = _ from hgiven.subscription?)

theorem carries_ofView (i v : Nat) :
    Carries (fun n => n₀.Reached causes n ∧ ViewBelow i v n) (n₀.Reached causes) (liftM (Branch.ofView v))
      (BranchBelow i) := by
  refine .lift fun n ⟨hn, s, hgiven, hview⟩ => ?_
  exact reached_startHub (some v) _ hn hgiven (show n.tree.source? (.view v) = _ from hview)

theorem carries_growFiltered (h₀ : Closing [] n₀) (b : Branch) (filter : Filter) :
    Carries (n₀.Reached causes) (n₀.Reached causes) (b.growFiltered filter) (BranchBelow b.hub) :=
  (carries_subscribeFiltered h₀ b filter).bind fun v => carries_ofView b.hub v

theorem carries_growDeferred (h₀ : Closing [] n₀) (b : Branch) :
    Carries (n₀.Reached causes) (n₀.Reached causes) b.growDeferred (BranchBelow b.hub) :=
  (carries_subscribeDeferred h₀ b).bind fun v => carries_ofView b.hub v

/-- **Replacing a filter closes nothing.** -/
theorem carries_refilter (b : Branch) (filter : Filter) :
    Carries (n₀.Reached causes) (n₀.Reached causes) (b.refilter filter) fun _ _ => True := by
  unfold Branch.refilter
  split
  swap
  · exact .throw _ fun _ => id
  rename_i v _
  refine .get fun n hn => ?_
  refine Carries.of_imp ?_ (fun m (hm : m = n) => (hm ▸ hn : n₀.Reached causes m))
  split
  · exact .throw _ fun _ => id
  refine .act (fun _ => id) fun _ => ?_
  split
  · exact fun m hm => ⟨hm, nofun⟩
  refine .act ((stable_reached n₀ causes).runUntil _) fun _ => .act (fun _ => id) fun _ => ?_
  split
  · exact fun m hm => ⟨hm, nofun⟩
  refine .act (fun m hm => hm.happensFree (.refilter v filter)) fun _ => ?_
  exact .lift fun m hm => ⟨(schedules_occur _).reached m hm, trivial⟩

end made

end Network

end Replica
