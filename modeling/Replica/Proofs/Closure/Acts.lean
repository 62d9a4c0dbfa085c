import Replica.Proofs.Closure.Steps

/-! # What components can do soundly

`Leads P x A Q` says that the computation `x`, from `P`, gives what `A` says, and leads to `Q`.

Each operation that components are built of is taken from soundness to soundness.  That a scope has fired, that
a feed has ended or that a keeper has stopped tells that the node of it is caused to close; and a scope is fired
or a feed ended only at such a node. -/

namespace Replica

namespace Network

variable {α β : Type}

/-! ### From what holds before to what holds after -/

/-- From `P` the computation gives what `A` says, and leads to `Q`. -/
def Leads (P : Network → Prop) (x : Net α) (A : α → Prop) (Q : Network → Prop) : Prop :=
  ∀ n, P n → A (x.run n).1 ∧ Q (x.run n).2

/-- From `P` the computation leads to `Q`, whatever it gives. -/
abbrev Reaches (P : Network → Prop) (x : Net α) (Q : Network → Prop) : Prop := Leads P x (fun _ => True) Q

section leads

variable {P Q R : Network → Prop} {A B : α → Prop} {x : Net α}

theorem Leads.pure {a : α} (ha : A a) : Leads P (Pure.pure a) A P := fun _ hn => ⟨ha, hn⟩

/-- Nothing found is nothing to vouch for. -/
theorem Leads.nothing : Leads P (Pure.pure none) (fun r => ∀ a, r = some a → A a) P :=
  .pure fun _ h => absurd h (Option.some_ne_none _).symm

theorem Leads.bind {C : β → Prop} {f : α → Net β} (hx : Leads P x A Q) (hf : ∀ a, A a → Leads Q (f a) C R) :
    Leads P (x >>= f) C R :=
  fun n hn => hf _ (hx n hn).1 _ (hx n hn).2

theorem Leads.seq {C : β → Prop} {f : α → Net β} (hx : Reaches P x Q) (hf : ∀ a, Leads Q (f a) C R) :
    Leads P (x >>= f) C R :=
  hx.bind fun a _ => hf a

/-- What is read off a network is used with what holds of the network. -/
theorem Leads.get {f : Network → Net α} (h : ∀ n, P n → Leads P (f n) A Q) :
    Leads P (MonadState.get >>= f) A Q :=
  fun n hn => h n hn n hn

/-- What is read off a network is used at that network. -/
theorem Leads.getAt {f : Network → Net α} (h : ∀ n, P n → Leads (· = n) (f n) A Q) :
    Leads P (MonadState.get >>= f) A Q :=
  fun n hn => h n hn n rfl

theorem Leads.mono (h : Leads P x A Q) (hA : ∀ a, A a → B a) (hQ : ∀ n, Q n → R n) : Leads P x B R :=
  fun n hn => ⟨hA _ (h n hn).1, hQ _ (h n hn).2⟩

theorem Leads.and {P' Q' : Network → Prop} (h : Leads P x A Q) (h' : Leads P' x B Q') :
    Leads (fun n => P n ∧ P' n) x (fun a => A a ∧ B a) (fun n => Q n ∧ Q' n) :=
  fun n hn => ⟨⟨(h n hn.1).1, (h' n hn.2).1⟩, (h n hn.1).2, (h' n hn.2).2⟩

theorem Leads.of_imp (h : Leads Q x A R) (hP : ∀ n, P n → Q n) : Leads P x A R := fun n hn => h n (hP n hn)

theorem Maintains.reaches (h : Maintains P x) : Reaches P x P := fun n hn => ⟨trivial, h n hn⟩

/-- The same is done of several things one after another. -/
theorem Reaches.each {f : β → Net Unit} {as : List β} (hf : ∀ a ∈ as, Reaches P (f a) P) :
    Reaches P (do for a in as do f a) P := by
  refine .seq (Q := P) ?_ fun _ => .pure trivial
  induction as with
  | nil => exact .pure trivial
  | cons a as ih =>
      rw [List.forIn_cons, bind_assoc]
      refine (hf a List.mem_cons_self).seq fun _ => ?_
      rw [pure_bind]
      exact ih fun b hb => hf b (List.mem_cons_of_mem a hb)

/-- It is done of one thing. -/
theorem Reaches.single {f : β → Net Unit} {b : β} (h : Reaches P (f b) Q) : Reaches P (do for a in [b] do f a) Q := by
  refine .seq (Q := Q) ?_ fun _ => .pure trivial
  rw [List.forIn_cons, bind_assoc]
  refine h.seq fun _ => ?_
  rw [pure_bind]
  exact .pure trivial

end leads

variable {w : Plan} {causes : List Node} {marks : List Mark} {busy : Option Activity} {x : Node}

theorem Schedules.sound {y : Net α} (hy : Schedules y) :
    Reaches (Sound w causes marks busy) y (Sound w causes marks busy) :=
  (hy.maintains (Sound.ofData w causes marks busy)).reaches

/-- The network is changed. -/
theorem Reaches.change {P Q : Network → Prop} {f : Network → Network} (hf : ∀ n, P n → Q (f n)) :
    Reaches P (modify f) Q :=
  fun n hn => ⟨trivial, hf n hn⟩

theorem sound_set {P : Network → Prop} {n : Network} (h : Sound w causes marks busy n) :
    Reaches P (set n) (Sound w causes marks busy) :=
  fun _ _ => ⟨trivial, h⟩

/-- What was noted need not be noted any longer. -/
theorem Reaches.unmark {P : Network → Prop} {y : Net α} {marks' : List Mark}
    (hy : Reaches P y (Sound w causes marks' busy)) (hsub : marks ⊆ marks') :
    Reaches P y (Sound w causes marks busy) :=
  hy.mono (fun _ _ => trivial) fun _ h => h.unmark hsub

/-! ### Scopes -/

theorem sound_fire {s : ScopeId} (hcaused : ∀ x, w.owner? s = some x → w.Caused causes x)
    (hneeds : ∀ t, w.role s = .done t → ∀ k ∈ w.needs t, Mark.fired k ∈ marks) :
    Reaches (Sound w causes marks busy) (fire s) (Sound w causes marks busy) := by
  intro n h
  refine ⟨trivial, Sound.ofData w causes marks busy _ _ (data_fire s n) ?_⟩
  exact h.fire s hcaused fun t ht k hk => h.marked _ (hneeds t ht k hk)

/-- A scope that has been fired stays fired. -/
theorem sound_fire_mark {s : ScopeId} (hrole : w.role s ≠ .neutral)
    (hcaused : ∀ x, w.owner? s = some x → w.Caused causes x)
    (hneeds : ∀ t, w.role s = .done t → ∀ k ∈ w.needs t, Mark.fired k ∈ marks) :
    Reaches (Sound w causes marks busy) (fire s) (Sound w causes (.fired s :: marks) busy) := by
  intro n h
  refine ⟨trivial, Sound.ofData w causes _ busy _ _ (data_fire s n) ?_⟩
  refine (h.fire s hcaused fun t ht k hk => h.marked _ (hneeds t ht k hk)).mark ?_
  exact Scopes.isFired_fire_self (h.known s hrole)

/-- The lifetime of something ends that is at a node that is caused to close. -/
theorem sound_fire_life {s : ScopeId} (hrole : w.role s = .life x) (hcaused : w.Caused causes x) :
    Reaches (Sound w causes marks busy) (fire s) (Sound w causes (.fired s :: marks) busy) := by
  refine sound_fire_mark (by simp [hrole]) (fun y hy => ?_) fun t ht => by cases hrole.symm.trans ht
  obtain rfl : x = y := Option.some.inj ((Plan.owner?_of_life hrole).symm.trans hy)
  exact hcaused

theorem sound_fire_ready {s : ScopeId} (hrole : w.role s = .ready) :
    Reaches (Sound w causes marks busy) (fire s) (Sound w causes marks busy) :=
  sound_fire (fun y hy => by simp [Plan.owner?, hrole] at hy) fun t ht => by cases hrole.symm.trans ht

/-- A task tells that it has stopped. -/
theorem sound_fire_done {s : ScopeId} {t : TaskId} (hrole : w.role s = .done t)
    (hcaused : ∀ x, w.tree.task? t = some x → w.Caused causes x) (hneeds : ∀ k ∈ w.needs t, Mark.fired k ∈ marks) :
    Reaches (Sound w causes marks busy) (fire s) (Sound w causes (.fired s :: marks) busy) := by
  refine sound_fire_mark (by simp [hrole]) (fun y hy => hcaused y (Plan.owner?_of_done hrole ▸ hy)) fun u hu => ?_
  obtain rfl : t = u := Role.done.inj (hrole.symm.trans hu)
  exact hneeds

theorem sound_hasFired {s : ScopeId} (t : TaskId) (hrole : w.role s = .life x) :
    Leads (Sound w causes marks busy) (hasFired t s) (fun fired => fired = true → w.Caused causes x)
      (Sound w causes marks busy) := by
  intro n h
  have hrun : ((hasFired t s).run n).1 = n.scopes.isFired s := by
    simp only [hasFired, isFired, StateT.run_bind, StateT.run_get, pure_bind, StateT.run_pure]
    cases n.scopes.isFired s <;> rfl
  refine ⟨fun hfired => h.caused_of_life hrole (hrun ▸ hfired), ?_⟩
  exact ((schedules_hasFired t s).sound n h).2

/-! ### Feeds -/

theorem sound_closeFeed {f : FeedId} (hcaused : w.Caused causes (w.feed f)) :
    Reaches (Sound w causes marks busy) (closeFeed f) (Sound w causes marks busy) :=
  (Reaches.change fun _ h => h.modifyFeed f Feed.close (.inr hcaused)).seq fun _ => (schedules_occur _).sound

theorem sound_abandonFeed {f : FeedId} (hcaused : w.Caused causes (w.feed f)) :
    Reaches (Sound w causes marks busy) (abandonFeed f) (Sound w causes marks busy) :=
  (Reaches.change fun _ h => h.modifyFeed f Feed.abandon (.inr hcaused)).seq fun _ => (schedules_occur _).sound

theorem Sound.length_feeds {n : Network} (h : Sound w causes marks busy n) : n.feeds.length = w.parts.feeds.length := by
  rw [← h.skeleton]
  exact (List.length_map _).symm

/-- A feed refuses an event only if it has ended. -/
theorem sound_writeWith {write : Feed Event → Event → Feed Event × Pushed} {f : FeedId} (e : Event)
    (hwrite : ∀ feed : Feed Event, feed.IsOpen → (write feed e).1.IsOpen ∧ (write feed e).2 ≠ .refused)
    (hf : f < w.parts.feeds.length) :
    Leads (Sound w causes marks busy) (writeWith write f e) (fun r => r = .refused → w.Caused causes (w.feed f))
      (Sound w causes marks busy) := by
  intro n h
  obtain ⟨hresult, hdata⟩ := data_writeWith write f e n
  refine ⟨fun hrefused => ?_, Sound.ofData _ _ _ _ _ _ hdata (h.modifyFeed f _ (.inl fun feed ho => (hwrite feed ho).1))⟩
  rw [← h.length_feeds] at hf
  rw [hresult, List.getElem?_eq_getElem hf] at hrefused
  exact h.feed f _ (List.getElem?_eq_getElem hf) fun ho => (hwrite _ ho).2 hrefused

theorem isOpen_push (e : Event) (feed : Feed Event) (h : feed.IsOpen) :
    (feed.push e).1.IsOpen ∧ (feed.push e).2 ≠ .refused := by
  rw [Feed.push, if_neg (by simp [h.1, h.2])]
  split <;> exact ⟨h, by simp⟩

theorem isOpen_offer (e : Event) (feed : Feed Event) (h : feed.IsOpen) :
    (feed.offer e).1.IsOpen ∧ (feed.offer e).2 ≠ .refused := by
  refine ⟨h.offer e, ?_⟩
  rw [Feed.offer_of_isOpen h]
  split <;> simp

/-- A feed has ended for its reader only if it has ended. -/
theorem sound_readFeed {f : FeedId} (hf : f < w.parts.feeds.length) :
    Leads (Sound w causes marks busy) (readFeed f) (fun r => r = .ended → w.Caused causes (w.feed f))
      (Sound w causes marks busy) := by
  intro n h
  obtain ⟨hresult, hdata⟩ := data_readFeed f n
  refine ⟨fun hended => ?_, Sound.ofData _ _ _ _ _ _ hdata (h.modifyFeed f _ (.inl fun feed ho => ho.poll))⟩
  rw [← h.length_feeds] at hf
  rw [hresult, List.getElem?_eq_getElem hf] at hended
  refine h.feed f _ (List.getElem?_eq_getElem hf) fun ho => ?_
  simp only [Option.map_some, Option.getD_some, Feed.poll, ho.1] at hended
  split at hended <;> cases hended

theorem sound_reading {t : TaskId} {o : Occasion} {read : Net (Polled α)} {A : Polled α → Prop}
    (hread : Leads (Sound w causes marks busy) read A (Sound w causes marks busy)) :
    Leads (Sound w causes marks busy) (reading t o read) A (Sound w causes marks busy) := by
  intro n h
  obtain ⟨hresult, hdata⟩ := run_reading t o read n
  exact ⟨hresult ▸ (hread n h).1, Sound.ofData _ _ _ _ _ _ hdata (hread n h).2⟩

/-- What a task reads at a node has ended only if the node is caused to close. -/
theorem sound_nextWithin {t : TaskId} {s : ScopeId} {f : FeedId} (hrole : w.role s = .life x) (hfeed : w.feed f = x)
    (hf : f < w.parts.feeds.length) :
    Leads (Sound w causes marks busy) (nextWithin t s f) (fun r => r = .ended → w.Caused causes x)
      (Sound w causes marks busy) := by
  refine (sound_hasFired t hrole).bind fun fired hfired => ?_
  split
  · exact .pure fun _ => hfired (by assumption)
  · exact sound_reading (hfeed ▸ sound_readFeed hf)

/-! ### Requests to stores -/

theorem sound_sendRequest (keeper : Nat) (sender : Option TaskId) (r : Request) :
    Reaches (Sound w causes marks busy) (sendRequest keeper sender r) (Sound w causes marks busy) := by
  have hgone : Reaches (Sound w causes marks busy) (keeperGone keeper) (Sound w causes marks busy) := by
    refine .get fun n h => ?_
    split
    · exact .pure trivial
    · exact fun _ hn => ⟨trivial, hn⟩
  refine hgone.seq fun gone => ?_
  split
  · exact .pure trivial
  · refine (Reaches.change fun n h => h.modifyKeeper keeper fun k => rfl).seq fun _ => ?_
    exact (schedules_occur _).sound

theorem sound_ask (keeper : Nat) (t : TaskId) (r : Request) :
    Reaches (Sound w causes marks busy) (ask keeper t r) (Sound w causes marks busy) :=
  schedules_spend.sound.seq fun _ => sound_sendRequest keeper _ r

theorem sound_deliver (recipient : Option TaskId) (reply : Reply) :
    Reaches (Sound w causes marks busy) (deliver recipient reply) (Sound w causes marks busy) := by
  unfold deliver
  split
  · exact Reaches.change fun n h => { h with }
  · split
    · refine (Reaches.change fun n h => h.noteView _ (fun _ => rfl) fun _ => rfl).seq fun _ => ?_
      exact (schedules_occur _).sound
    · refine (Reaches.change fun n h => h.noteObserver _ (fun _ => rfl) fun _ => rfl).seq fun _ => ?_
      exact (schedules_occur _).sound
    · refine (Reaches.change fun n h => h.noteCoordinator (fun _ => rfl) fun _ => rfl).seq fun _ => ?_
      exact (schedules_occur _).sound
    · exact .pure trivial

/-- Who has asked a keeper is refused only at a node that is caused to close. -/
theorem sound_answer? {t : TaskId} {keeper : Nat} {reply : Option Reply} {clear : Net Unit} {refused : α}
    {ofReply : Reply → α} {A : α → Prop} (hserves : w.Serves keeper x)
    (hclear : Reaches (Sound w causes marks busy) clear (Sound w causes marks busy))
    (hrefused : w.Caused causes x → A refused) (hreply : ∀ r, A (ofReply r)) :
    Leads (Sound w causes marks busy) (answer? t keeper reply clear refused ofReply) (fun r => ∀ a, r = some a → A a)
      (Sound w causes marks busy) := by
  obtain ⟨k', y, hk', hrole, hwithin⟩ := hserves
  refine .get fun n h => ?_
  obtain ⟨k, hk, rfl⟩ := h.exists_keeper hk'
  rw [hk]
  refine (sound_hasFired t (x := y) hrole).bind fun fired hfired => ?_
  split
  · refine .pure ?_
    rintro _ ⟨⟩
    exact hrefused ((hfired (by assumption)).within hwithin)
  · split
    · refine schedules_spend.sound.seq fun _ => hclear.seq fun _ => .pure ?_
      rintro _ ⟨⟩
      exact hreply _
    · exact (schedules_await _ _).sound.seq fun _ => .nothing

/-! ### Sources -/

namespace Plan

/-- The parts of a source are built after the plan, at a node. -/
structure Emits (w : Plan) (p : SourceParts) (x : Node) : Prop where
  scope : w.role p.scope = .life x
  feed : w.feed p.feed = x
  bound : p.feed < w.parts.feeds.length
  keeper : w.Serves p.keeper x
  ready : w.role p.ready = .ready

theorem Laid.emits (h : w.Laid) {s : Source} {p : SourceParts} (hx : w.tree.source? s = some x)
    (hp : s.parts? w.parts = some p) : w.Emits p x := by
  cases s with
  | subscription i =>
      obtain ⟨sub, hsub, rfl⟩ := Option.map_eq_some_iff.1 hp
      obtain ⟨y, hy, hlaid⟩ := h.subscription i sub hsub
      obtain rfl : y = x := Option.some.inj (hy.symm.trans hx)
      exact ⟨hlaid.scope, hlaid.feed, hlaid.bound, hlaid.keeper, hlaid.ready⟩
  | view i =>
      obtain ⟨v, hv, rfl⟩ := Option.map_eq_some_iff.1 hp
      obtain ⟨y, hy, hlaid⟩ := h.view i v hv
      obtain rfl : y = x := Option.some.inj (hy.symm.trans hx)
      obtain ⟨k, hk, hrole, -⟩ := hlaid.keeper
      exact ⟨hlaid.scope, hlaid.feed, hlaid.bound, ⟨k, y, hk, hrole, .refl⟩, hlaid.ready⟩

end Plan

/-- Where a scope has fired, this can be noted. -/
theorem Leads.ifMarked {s : ScopeId} {A : α → Prop} {Q : Network → Prop} {y z : Net α}
    (hy : Leads (Sound w causes (.fired s :: marks) busy) y A Q) (hz : Leads (Sound w causes marks busy) z A Q) :
    Leads (Sound w causes marks busy) (do if ← isFired s then y else z) A Q := by
  intro n h
  have hrun : (do if ← isFired s then y else z : Net α).run n =
      (if n.scopes.isFired s = true then y else z : Net α).run n := rfl
  rw [hrun]
  split
  · exact hy n (h.mark (by assumption))
  · exact hz n h

theorem Leads.ifFired {s : ScopeId} {A : α → Prop} {Q : Network → Prop} {y z : Net α}
    (hy : Leads (Sound w causes marks busy) y A Q) (hz : Leads (Sound w causes marks busy) z A Q) :
    Leads (Sound w causes marks busy) (do if ← isFired s then y else z) A Q :=
  .ifMarked (hy.of_imp fun _ h => h.unmark (List.subset_cons_self _ _)) hz

/-- A subscription is closed at a node that is caused to close. -/
theorem sound_closeSubscription {s : Nat} {sub : Subscription} (hs : w.parts.subscriptions[s]? = some sub)
    (hsub : w.Subscribes sub x) (hcaused : w.Caused causes x) :
    Reaches (Sound w causes marks busy) (closeSubscription s) (Sound w causes (.fired sub.scope :: marks) busy) := by
  refine .get fun n h => ?_
  rw [← h.skeleton] at hs
  rw [show n.subscriptions[s]? = some sub from hs]
  refine .ifMarked (.pure trivial) ((sound_fire_life hsub.scope hcaused).seq fun _ => ?_)
  split
  · refine Leads.seq ?_ fun _ => (schedules_occur _).sound.seq fun _ => .pure trivial
    refine Reaches.change fun n h => h.noteHub _ (fun _ => rfl) (fun _ => rfl) (fun _ => rfl) (fun _ _ => id) fun t _ f hf => ?_
    rcases List.mem_append.1 hf with hf | hf
    · exact .inl hf
    · obtain rfl := List.mem_singleton.1 hf
      exact .inr ⟨hsub.bound, hsub.feed ▸ hcaused⟩
  · exact .pure trivial

/-- A source is closed at a node that is caused to close. -/
theorem sound_close {s : Source} {p : SourceParts} (hlaid : w.Laid) (hx : w.tree.source? s = some x)
    (hp : s.parts? w.parts = some p) (hcaused : w.Caused causes x) :
    Reaches (Sound w causes marks busy) s.close (Sound w causes (.fired p.scope :: marks) busy) := by
  cases s with
  | subscription i =>
      obtain ⟨sub, hsub, rfl⟩ := Option.map_eq_some_iff.1 hp
      obtain ⟨y, hy, hsubscribes⟩ := hlaid.subscription i sub hsub
      obtain rfl : y = x := Option.some.inj (hy.symm.trans hx)
      exact sound_closeSubscription hsub hsubscribes hcaused
  | view i =>
      obtain ⟨v', hv', rfl⟩ := Option.map_eq_some_iff.1 hp
      obtain ⟨y, hy, hfilters⟩ := hlaid.view i v' hv'
      obtain rfl : y = x := Option.some.inj (hy.symm.trans hx)
      refine .get fun n h => ?_
      obtain ⟨v, hv, rfl⟩ := h.exists_view hv'
      rw [hv]
      refine .ifMarked (.pure trivial) ?_
      exact (sound_fire_life (s := v.scope) hfilters.scope hcaused).seq fun _ => .pure trivial

/-- A source is dropped at a node that is caused to close. -/
theorem sound_drop {s : Source} {p : SourceParts} (hlaid : w.Laid) (hx : w.tree.source? s = some x)
    (hp : s.parts? w.parts = some p) (hcaused : w.Caused causes x) :
    Reaches (Sound w causes marks busy) s.drop (Sound w causes (.fired p.scope :: marks) busy) := by
  refine (sound_close hlaid hx hp hcaused).seq fun wasOpen => .get fun n h => ?_
  rw [h.parts? s, hp]
  exact (sound_abandonFeed ((hlaid.emits hx hp).feed ▸ hcaused)).seq fun _ => .pure trivial

end Network

end Replica
