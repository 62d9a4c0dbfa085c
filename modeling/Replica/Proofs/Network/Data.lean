import Replica.Network.Distribution

/-! # What operations do to the data of a network

An operation on a network changes components and decides besides who runs when.  `Network.data` is
the network without that schedule, and an operation that changes nothing else `Schedules` only.

`Gives` says what a longer computation comes to, part by part.

Each operation has one equation that gives the data after it: `data_fire`, `data_readFeed`,
`data_closeSubscription` and so on, up to what a hub does on its inputs (`data_join`, `data_event`,
`data_leave`). -/

namespace Replica

namespace Network

/-- The network without its schedule. -/
def data (n : Network) : Network := { n with executor := .empty }

/-- A computation goes on where its first part has come to. -/
theorem run_bind {α β : Type} (x : Net α) (f : α → Net β) (n : Network) :
    (x >>= f).run n = (f (x.run n).1).run (x.run n).2 := rfl

/-- The computation decides nothing but who runs when. -/
def Schedules {α : Type} (x : Net α) : Prop := ∀ n, (x.run n).2.data = n.data

theorem Schedules.pure {α : Type} (a : α) : Schedules (Pure.pure a : Net α) := fun _ => rfl

theorem Schedules.bind {α β : Type} {x : Net α} {f : α → Net β} (hx : Schedules x)
    (hf : ∀ a, Schedules (f a)) : Schedules (x >>= f) :=
  fun n => (hf _ _).trans (hx n)

theorem Schedules.forIn {α : Type} {f : α → PUnit → Net (ForInStep PUnit)} {as : List α}
    (hf : ∀ a ∈ as, ∀ u, Schedules (f a u)) : Schedules (ForIn.forIn as PUnit.unit f) := by
  induction as with
  | nil => exact .pure _
  | cons a as ih =>
      rw [List.forIn_cons]
      refine .bind (hf a List.mem_cons_self _) fun step => ?_
      cases step with
      | done u => exact .pure u
      | yield u => exact ih fun b hb => hf b (List.mem_cons_of_mem a hb)

theorem schedules_schedule (f : Executor TaskId Occasion → Executor TaskId Occasion) :
    Schedules (schedule f) := fun _ => rfl

theorem schedules_occur (o : Occasion) : Schedules (occur o) := schedules_schedule _

theorem schedules_await (t : TaskId) (o : Occasion) : Schedules (await t o) := schedules_schedule _

theorem schedules_spend : Schedules spend := schedules_schedule _

theorem schedules_hasFired (t : TaskId) (s : ScopeId) : Schedules (hasFired t s) := by
  intro n
  simp only [hasFired, isFired, StateT.run_bind, StateT.run_get, pure_bind, StateT.run_pure]
  cases n.scopes.isFired s <;> rfl

theorem eq_of_data {n n' : Network} (h : n'.data = n.data) :
    n' = { n with executor := n'.executor } :=
  congrArg (fun m : Network => { m with executor := n'.executor }) h

/-- `P` holds of what a computation gives and of the network after it. -/
def Gives {α : Type} (x : Net α) (n : Network) (P : α → Network → Prop) : Prop :=
  P (x.run n).1 (x.run n).2

theorem Gives.pure {α : Type} {a : α} {n : Network} {P : α → Network → Prop} (h : P a n) :
    Gives (Pure.pure a) n P := h

theorem Gives.get {α : Type} {f : Network → Net α} {n : Network} {P : α → Network → Prop}
    (h : Gives (f n) n P) : Gives (MonadState.get >>= f) n P := h

/-- Whatever the first part comes to. -/
theorem Gives.bind {α β : Type} {x : Net α} {f : α → Net β} {n : Network} {P : β → Network → Prop}
    (h : ∀ a n', Gives (f a) n' P) : Gives (x >>= f) n P := h _ _

theorem Gives.seq {α β : Type} {x : Net α} {f : α → Net β} {n : Network} {P : β → Network → Prop}
    (hx : Schedules x) (h : ∀ a n', n'.data = n.data → Gives (f a) n' P) : Gives (x >>= f) n P :=
  h _ _ (hx n)

/-! ### Scopes and feeds -/

theorem data_fire (s : ScopeId) (n : Network) :
    ((fire s).run n).2.data = { n with scopes := (n.scopes.fire s).1 }.data := by
  have hloop : Schedules (ForIn.forIn (n.scopes.fire s).2 PUnit.unit fun f _ => do
      occur (.fired f)
      return ForInStep.yield PUnit.unit) :=
    .forIn fun f _ _ => (schedules_occur _).bind fun _ => .pure _
  exact hloop { n with scopes := (n.scopes.fire s).1 }

/-- What is there changes. -/
theorem getElem?_modify_of_some {α : Type} {l : List α} {i : Nat} {a : α} (h : l[i]? = some a) (change : α → α) :
    (l.modify i change)[i]? = some (change a) := by
  rw [List.getElem?_modify_eq, h]
  rfl

/-- Writing to a feed is done to the feed. -/
theorem data_writeWith (write : Feed Event → Event → Feed Event × Pushed) (f : FeedId) (e : Event) (n : Network) :
    ((writeWith write f e).run n).1 = (n.feeds[f]?.map fun feed => (write feed e).2).getD .refused ∧
      ((writeWith write f e).run n).2.data =
        { n with feeds := n.feeds.modify f fun feed => (write feed e).1 }.data := by
  cases hf : n.feeds[f]? with
  | none =>
      have hmodify : n.feeds.modify f (fun feed => (write feed e).1) = n.feeds :=
        List.modify_eq_self (List.getElem?_eq_none_iff.1 hf)
      rw [hmodify]
      simp only [writeWith, StateT.run_bind, StateT.run_get, pure_bind, hf]
      exact ⟨rfl, rfl⟩
  | some feed =>
      have hmodify : n.feeds.modify f (fun feed => (write feed e).1) = n.feeds.set f (write feed e).1 := by
        rw [List.modify_eq_set, hf, Option.getD_some]
      rw [hmodify]
      simp only [writeWith, StateT.run_bind, StateT.run_get, pure_bind, hf, Option.map_some,
        Option.getD_some]
      split <;> exact ⟨rfl, rfl⟩

/-- Reading a feed takes its oldest event. -/
theorem data_readFeed (f : FeedId) (n : Network) :
    ((readFeed f).run n).1 = (n.feeds[f]?.map fun feed => feed.poll.2).getD .ended ∧
      ((readFeed f).run n).2.data =
        { n with feeds := n.feeds.modify f fun feed => feed.poll.1 }.data := by
  cases hf : n.feeds[f]? with
  | none =>
      have hmodify : n.feeds.modify f (fun feed => feed.poll.1) = n.feeds :=
        List.modify_eq_self (List.getElem?_eq_none_iff.1 hf)
      rw [hmodify]
      simp only [readFeed, StateT.run_bind, StateT.run_get, pure_bind, hf]
      exact ⟨rfl, rfl⟩
  | some feed =>
      have hmodify : n.feeds.modify f (fun feed => feed.poll.1) = n.feeds.set f feed.poll.1 := by
        rw [List.modify_eq_set, hf, Option.getD_some]
      rw [hmodify]
      simp only [readFeed, StateT.run_bind, StateT.run_get, pure_bind, hf, Option.map_some,
        Option.getD_some]
      cases feed.poll.2 <;> exact ⟨rfl, rfl⟩

/-- A task that reads gets what there is to read. -/
theorem run_reading {α : Type} (t : TaskId) (o : Occasion) (read : Net (Polled α)) (n : Network) :
    ((reading t o read).run n).1 = (read.run n).1 ∧
      ((reading t o read).run n).2.data = (read.run n).2.data := by
  rw [reading, run_bind]
  cases (read.run n).1 <;> exact ⟨rfl, rfl⟩

/-- An event that a task reads is the oldest one of the feed. -/
theorem data_nextWithin {t : TaskId} {s : ScopeId} {f : FeedId} {n : Network} {e : Event}
    (h : ((nextWithin t s f).run n).1 = .item e) :
    (∃ feed, n.feeds[f]? = some feed ∧ feed.poll.2 = .item e) ∧
      ((nextWithin t s f).run n).2.data =
        { n with feeds := n.feeds.modify f fun feed => feed.poll.1 }.data := by
  have hn := eq_of_data (schedules_hasFired t s n)
  rw [nextWithin, run_bind] at h ⊢
  generalize ((hasFired t s).run n).2 = n' at h hn ⊢
  split at h
  · cases h
  · rename_i hopen
    rw [if_neg hopen]
    obtain ⟨hresult, hdata⟩ := run_reading t (.event f) (readFeed f) n'
    obtain ⟨hread, hleft⟩ := data_readFeed f n'
    rw [hresult, hread, hn] at h
    refine ⟨?_, by rw [hdata, hleft, hn]; rfl⟩
    cases hfeed : n.feeds[f]? with
    | none =>
        rw [hfeed] at h
        cases h
    | some feed =>
        rw [hfeed] at h
        exact ⟨feed, rfl, h⟩

theorem run_hasFired (t : TaskId) (s : ScopeId) (n : Network) :
    ((hasFired t s).run n).1 = n.scopes.isFired s := by
  simp only [hasFired, isFired, StateT.run_bind, StateT.run_get, pure_bind, StateT.run_pure]
  cases n.scopes.isFired s <;> rfl

theorem Gives.hasFired {α : Type} {t : TaskId} {s : ScopeId} {f : Bool → Net α} {n : Network}
    {P : α → Network → Prop} (h : ∀ n', n'.data = n.data → Gives (f (n.scopes.isFired s)) n' P) :
    Gives (hasFired t s >>= f) n P := by
  rw [Gives, run_bind, run_hasFired]
  exact h _ (schedules_hasFired t s n)

theorem Gives.reading {α β : Type} {t : TaskId} {o : Occasion} {read : Net (Polled α)} {f : Polled α → Net β}
    {n : Network} {P : β → Network → Prop}
    (h : Gives read n fun r n₁ => ∀ n₂, n₂.data = n₁.data → Gives (f r) n₂ P) : Gives (reading t o read >>= f) n P := by
  obtain ⟨hresult, hdata⟩ := run_reading t o read n
  rw [Gives, run_bind, hresult]
  exact h _ hdata

/-- What is written goes to the feed, which tells whether it was taken. -/
theorem Gives.writeWith {α : Type} {write : Feed Event → Event → Feed Event × Pushed} {f : FeedId} {e : Event}
    {feed : Feed Event} {g : Pushed → Net α} {n : Network} {P : α → Network → Prop} (hf : n.feeds[f]? = some feed)
    (h : ∀ n', n'.data = { n with feeds := n.feeds.modify f fun feed => (write feed e).1 }.data →
      Gives (g (write feed e).2) n' P) : Gives (writeWith write f e >>= g) n P := by
  obtain ⟨hresult, hdata⟩ := data_writeWith write f e n
  rw [hf] at hresult
  rw [Gives, run_bind, hresult]
  exact h _ hdata

/-- Reading within a scope gives the oldest event of the feed, or the end. -/
theorem Gives.nextWithin {α : Type} {t : TaskId} {s : ScopeId} {f : FeedId} {feed : Feed Event} {n : Network}
    {g : Polled Event → Net α} {P : α → Network → Prop} (hf : n.feeds[f]? = some feed)
    (hended : ∀ n', n'.data = n.data → Gives (g .ended) n' P)
    (hread : ∀ n', n'.data = { n with feeds := n.feeds.modify f fun feed => feed.poll.1 }.data →
      Gives (g feed.poll.2) n' P) : Gives (nextWithin t s f >>= g) n P := by
  suffices hnext : Gives (Network.nextWithin t s f) n fun r n' => Gives (g r) n' P from hnext
  refine .seq (schedules_hasFired t s) fun fired n₁ h₁ => ?_
  split
  · exact hended n₁ h₁
  · rw [← bind_pure (Network.reading _ _ _)]
    refine .reading fun n₂ h₂ => ?_
    obtain ⟨holdest, hleft⟩ := data_readFeed f n₁
    have hn := eq_of_data h₁
    rw [holdest, hn, hf]
    refine hread n₂ ?_
    rw [h₂, hleft, hn]
    rfl

/-- A task learns that the keeper has stopped, that there is no answer yet, or the answer. -/
theorem Gives.answer? {α : Type} {t : TaskId} {keeper : Nat} {reply : Option Reply} {clear : Net Unit}
    {refused : α} {ofReply : Reply → α} {n : Network} {P : Option α → Network → Prop}
    (hrefused : ∀ n', n'.data = n.data → P (some refused) n')
    (hwaits : reply = none → ∀ n', n'.data = n.data → P none n')
    (hanswered : ∀ r, reply = some r → ∀ n', n'.data = n.data → P (some (ofReply r)) (clear.run n').2) :
    Gives (answer? t keeper reply clear refused ofReply) n P := by
  refine .get ?_
  split
  · exact hrefused n rfl
  refine .seq (schedules_hasFired _ _) fun fired n₁ h₁ => ?_
  split
  · exact hrefused n₁ h₁
  split
  · rename_i r
    exact .seq schedules_spend fun _ n₂ h₂ => hanswered r rfl n₂ (h₂.trans h₁)
  · exact .seq (schedules_await _ _) fun _ n₂ h₂ => hwaits rfl n₂ (h₂.trans h₁)

/-! ### Sources -/

variable {n : Network} {s : Nat} {sub : Subscription}

/-- Nothing is read of a source that is closed. -/
theorem run_next_of_closed {s : Source} {p : SourceParts} (hp : s.parts? n = some p)
    (hc : n.scopes.isFired p.scope = true) : s.next.run n = (.ended, n) := by
  simp only [Source.next, StateT.run_bind, StateT.run_get, pure_bind, hp, readWithin, isFired,
    StateT.run_pure, hc, if_true]
  rfl

/-- Reading an open source reads its feed. -/
theorem run_next_of_open {s : Source} {p : SourceParts} (hp : s.parts? n = some p)
    (ho : n.scopes.isFired p.scope = false) : s.next.run n = (readFeed p.feed).run n := by
  simp only [Source.next, StateT.run_bind, StateT.run_get, pure_bind, hp, readWithin, isFired,
    StateT.run_pure, ho]
  rfl

theorem parts?_subscription (hs : n.subscriptions[s]? = some sub) :
    (Source.subscription s).parts? n =
      some ⟨sub.feed, sub.scope, sub.keeper, sub.ready, sub.scope⟩ :=
  Option.map_eq_some_iff.2 ⟨sub, hs, rfl⟩

theorem run_closeSubscription_of_closed (hs : n.subscriptions[s]? = some sub)
    (hc : n.scopes.isFired sub.scope = true) : (closeSubscription s).run n = (false, n) := by
  simp only [closeSubscription, StateT.run_bind, StateT.run_get, pure_bind, hs, isFired,
    StateT.run_pure, hc, if_true]
  rfl

/-- Closing a subscription fires its scope and tells its hub. -/
theorem data_closeSubscription {i : Nat} (hs : n.subscriptions[s]? = some sub)
    (ho : n.scopes.isFired sub.scope = false) (hi : sub.hub = some i) :
    ((closeSubscription s).run n).2.data =
      { n with
        scopes := (n.scopes.fire sub.scope).1
        hubs := n.hubs.modify i fun h => { h with leaving := h.leaving ++ [sub.feed] } }.data := by
  simp only [closeSubscription, StateT.run_bind, StateT.run_get, pure_bind, hs, isFired,
    StateT.run_pure, ho, hi]
  show { ((fire sub.scope).run n).2.data with
    hubs := ((fire sub.scope).run n).2.data.hubs.modify i fun h =>
      { h with leaving := h.leaving ++ [sub.feed] } } = _
  rw [data_fire]
  rfl

/-- Dropping a subscription closes it, and its feed is read no more. -/
theorem data_drop (hs : ((closeSubscription s).run n).2.subscriptions[s]? = some sub) :
    ((Source.subscription s).drop.run n).2.data =
      { ((closeSubscription s).run n).2 with
        feeds := ((closeSubscription s).run n).2.feeds.modify sub.feed Feed.abandon }.data := by
  rw [Source.drop, Source.close, run_bind]
  simp only [StateT.run_bind, StateT.run_get, pure_bind, Source.parts?, hs, Option.map_some]
  rfl

/-! ### Hubs -/

variable {i : Nat} {task : HubTask}

/-- Who joins a hub gets a new feed, which is live, and a new scope below the hub's. -/
theorem data_join (hi : n.hubs[i]? = some task) :
    ((actForHub i .join).run n).2.data =
      ({ n with
        feeds := (task.hub.subscribe n.feeds).2.1
        scopes := (n.scopes.addChild task.scope).1
        subscriptions := n.subscriptions ++
          [⟨n.feeds.length, n.scopes.list.length, task.ready, task.keeper, some i⟩]
        hubs := n.hubs.modify i fun h =>
          { h with
            hub := (task.hub.subscribe n.feeds).1
            granted := some n.subscriptions.length } } : Network).data := by
  simp only [actForHub, StateT.run_bind, StateT.run_get, pure_bind, hi]
  rfl

/-- An event is offered to the live feeds. -/
theorem data_event (hi : n.hubs[i]? = some task) (e : Event) :
    ((actForHub i (.event e)).run n).2.data =
      { n with
        feeds := (task.hub.distribute n.feeds e).2
        hubs := n.hubs.modify i fun h =>
          { h with hub := (task.hub.distribute n.feeds e).1 } }.data := by
  simp only [actForHub, StateT.run_bind, StateT.run_get, pure_bind, hi]
  have hloop : ∀ after before : Feeds, Schedules (ForIn.forIn task.hub.live PUnit.unit fun f _ =>
      if ((after[f]?.map (·.items.length)).getD 0 != (before[f]?.map (·.items.length)).getD 0) = true
      then do
        occur (.event f)
        return ForInStep.yield PUnit.unit
      else return ForInStep.yield PUnit.unit) := by
    intro after before
    refine .forIn fun f _ _ => ?_
    split
    · exact (schedules_occur _).bind fun _ => .pure _
    · exact .pure _
  exact hloop _ _ _

/-- Who has left is forgotten, and gets no more events. -/
theorem data_leave (hi : n.hubs[i]? = some task) (f : FeedId) :
    ((actForHub i (.leave f)).run n).2.data =
      { n with
        feeds := n.feeds.modify f Feed.close
        hubs := n.hubs.modify i fun h => { h with hub := h.hub.unsubscribe f } }.data := by
  simp only [actForHub, StateT.run_bind, StateT.run_get, pure_bind, hi]
  rfl

end Network

end Replica
