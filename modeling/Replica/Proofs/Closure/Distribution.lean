import Replica.Proofs.Closure.Acts
import Replica.Proofs.Hub.Distribution
import Replica.Proofs.View.Turn

/-! # Turns of hubs, views and observers

What a hub, a view or an observer does in its turn keeps a network sound, but for a hub that gives a new
subscription: then the tree grows.  Each of them stops only at a node that is caused to close: its scope has
fired, what it reads has ended, or the keeper that it asks has stopped.

It then closes what it has read, and that is how the end of one part of a node spreads to the others. -/

namespace Replica

namespace Network

variable {w : Plan} {causes : List Node} {marks : List Mark} {busy : Option Activity} {x : Node}

/-! ### Hubs -/

/-- A hub stops, or lets a subscriber go, only at a node that is caused to close. -/
def AllowsHub (w : Plan) (causes : List Node) (i : Nat) : HubInput → Prop
  | .stop => ∀ x, w.tree.hub? i = some x → w.Caused causes x
  | .leave f => w.Caused causes (w.feed f)
  | .join | .event _ => True

theorem Plan.source?_of_hub? {i : Nat} {h : HubTask} (hi : w.parts.hubs[i]? = some h) (hx : w.tree.hub? i = some x) :
    w.tree.source? h.source = some x := by
  simpa [Tree.hub?, Plan.tree, Network.tree, hi] using hx

theorem sound_nextOfSource {i : Nat} {s : Source} {p : SourceParts} (hlaid : w.Laid) (hx : w.tree.source? s = some x)
    (hi : w.tree.hub? i = some x) (hp : s.parts? w.parts = some p) :
    Leads (Sound w causes marks busy) (nextOfSource (.hub i) s)
      (fun r => ∀ input, r = some input → AllowsHub w causes i input) (Sound w causes marks busy) := by
  refine .get fun n h => ?_
  rw [h.parts? s, hp]
  have hemits := hlaid.emits hx hp
  refine (sound_nextWithin hemits.scope hemits.feed hemits.bound).bind fun r hr => ?_
  split
  · refine .pure ?_
    rintro _ ⟨⟩
    trivial
  · refine .pure ?_
    rintro _ ⟨⟩ y hy
    obtain rfl : x = y := Option.some.inj (hi.symm.trans hy)
    exact hr rfl
  · exact .nothing

theorem sound_noteHub (i : Nat) {f : HubTask → HubTask} (hf : ∀ t, (f t).bare = t.bare) (hub : ∀ t, (f t).hub = t.hub)
    (isStopped : ∀ t, (f t).isStopped = t.isStopped) (granted : ∀ t s, (f t).granted = some s → t.granted = some s)
    (leaving : ∀ t, ∀ f' ∈ (f t).leaving,
      f' ∈ t.leaving ∨ f' < w.parts.feeds.length ∧ w.Caused causes (w.feed f')) :
    Reaches (Sound w causes marks busy) (modifyHub i f) (Sound w causes marks busy) :=
  Reaches.change fun _ h => h.noteHub i hf hub isStopped granted fun t _ => leaving t

theorem sound_nextForHub (i : Nat) :
    Leads (Sound w causes marks busy) (nextForHub i) (fun r => ∀ input, r = some input → AllowsHub w causes i input)
      (Sound w causes marks busy) := by
  refine .get fun n h => ?_
  split
  · exact .nothing
  rename_i t hi
  obtain ⟨x, hx, hlaid⟩ := h.laid.hub i t.bare (h.hubAt hi)
  obtain ⟨p, hp, -⟩ := hlaid.needs
  have hrest : Leads (Sound w causes marks busy) (do
      if (← MonadState.get).executor.left = 0 then
        schedule (·.pause (.hub i))
        return none
      nextOfSource (.hub i) t.source : Net (Option HubInput))
      (fun r => ∀ input, r = some input → AllowsHub w causes i input) (Sound w causes marks busy) := by
    refine .get fun m _ => ?_
    split
    · exact (schedules_schedule _).sound.seq fun _ => .nothing
    · exact sound_nextOfSource h.laid (Plan.source?_of_hub? (h := t.bare) (h.hubAt hi) hx) hx hp
  split
  · exact .nothing
  refine (sound_hasFired _ (s := t.scope) hlaid.scope).bind fun fired hfired => ?_
  split
  · refine .pure ?_
    rintro _ ⟨⟩ y hy
    obtain rfl : x = y := Option.some.inj (hx.symm.trans hy)
    exact hfired (by assumption)
  split
  · rename_i f rest hleaving
    have hcaused : ∀ f' ∈ t.leaving, f' < w.parts.feeds.length ∧ w.Caused causes (w.feed f') := (h.hub i t hi).leaving
    rw [hleaving] at hcaused
    refine schedules_spend.sound.seq fun _ => ?_
    refine .seq (sound_noteHub i (fun _ => rfl) (fun _ => rfl) (fun _ => rfl) (fun _ _ => id) fun _ f' hf' => ?_) fun _ => .pure ?_
    · exact .inr (hcaused f' (List.mem_cons_of_mem f hf'))
    · rintro _ ⟨⟩
      exact (hcaused f List.mem_cons_self).2
  refine (schedules_await _ _).sound.seq fun _ => ?_
  split
  · refine schedules_spend.sound.seq fun _ => ?_
    refine .seq (sound_noteHub i (fun _ => rfl) (fun _ => rfl) (fun _ => rfl) (fun _ _ => id) fun _ f' hf' => .inl hf') fun _ => .pure ?_
    rintro _ ⟨⟩
    trivial
  dsimp only
  split
  · exact (schedules_await _ _).sound.seq fun _ => hrest
  · exact schedules_spend.sound.seq fun _ => hrest

/-- A subscriber that leaves is forgotten. -/
theorem sound_leave (i : Nat) {f : FeedId} (hcaused : w.Caused causes (w.feed f)) :
    Reaches (Sound w causes marks busy) (actForHub i (.leave f)) (Sound w causes marks busy) := by
  refine .get fun n h => ?_
  split
  swap
  · exact .pure trivial
  refine .seq (Reaches.change fun m hm => hm.modifyHub i (fun _ => rfl) (fun t ht hsound => ?_) ?_ fun t => .inl) fun _ =>
    sound_closeFeed hcaused
  · exact
      { stopped := hsound.stopped
        leaving := hsound.leaving
        live := fun f' hf' => hsound.live f' (Hub.mem_live_unsubscribe.1 hf').1
        nodup := hsound.nodup.filter _
        granted := hsound.granted }
  · intro t ht s sub hs hsub hlive
    by_cases hf : sub.feed = f
    · exact .inr ((hm.subscribes_of_hub hs hsub).1.feed ▸ hf ▸ hcaused)
    · exact .inl (Hub.mem_live_unsubscribe.2 ⟨hlive, hf⟩)

/-- An event is offered to those who still read. -/
theorem sound_event (i : Nat) (e : Event) :
    Reaches (Sound w causes marks busy) (actForHub i (.event e)) (Sound w causes marks busy) := by
  intro n h
  cases hi : n.hubs[i]? with
  | none =>
      have hrun : (actForHub i (.event e)).run n = ((), n) := by
        simp only [actForHub, StateT.run_bind, StateT.run_get, pure_bind, hi]
        rfl
      rw [hrun]
      exact ⟨trivial, h⟩
  | some t =>
      refine ⟨trivial, Sound.ofData w causes marks busy _ _ (data_event hi e) ?_⟩
      have hnodup := (h.hub i t hi).nodup
      have hlength : (t.hub.distribute n.feeds e).2.length = n.feeds.length := Hub.length_offerAll _ _ _
      have hfeeds : Sound w causes marks busy { n with feeds := (t.hub.distribute n.feeds e).2 } :=
        h.feeds hlength fun f feed hf hopen => ?_
      · refine hfeeds.modifyHub i (fun _ => rfl) (fun t' ht' hsound => ?_) (fun t' ht' s sub hs hsub hlive => ?_)
          fun t => .inl
        · obtain rfl : t = t' := Option.some.inj (hi.symm.trans ht')
          exact
            { stopped := hsound.stopped
              leaving := hsound.leaving
              live := fun f hf => hsound.live f (Hub.offerAll_sublist.subset hf)
              nodup := Hub.offerAll_sublist.nodup hnodup
              granted := hsound.granted }
        · obtain rfl : t = t' := Option.some.inj (hi.symm.trans ht')
          have hsubscribes := (h.subscribes_of_hub hs hsub).1
          have hbound : sub.feed < n.feeds.length := h.length_feeds ▸ hsubscribes.bound
          by_cases hopen : n.feeds[sub.feed].IsOpen
          · refine .inl ((Hub.mem_offerAll hnodup).2 ⟨hlive, _, List.getElem?_eq_getElem hbound, ?_⟩)
            exact (isOpen_offer e _ hopen).2
          · exact .inr (hsubscribes.feed ▸ h.feed _ _ (List.getElem?_eq_getElem hbound) hopen)
      · change (Hub.offerAll e t.hub.live n.feeds).1[f]? = some feed at hf
        rw [Hub.getElem?_offerAll hnodup] at hf
        split at hf
        · obtain ⟨old, hold, rfl⟩ := Option.map_eq_some_iff.1 hf
          exact h.feed f old hold fun ho => hopen (ho.offer e)
        · exact h.feed f feed hf hopen

/-- A hub closes what it has read and those that it has given events to, and tells that it has stopped. -/
theorem sound_stop {i : Nat} (hcaused : ∀ x, w.tree.hub? i = some x → w.Caused causes x) :
    Reaches (Sound w causes marks none) (actForHub i .stop) (Sound w causes marks none) := by
  refine .get fun n h => ?_
  split
  swap
  · exact .pure trivial
  rename_i t hi
  obtain ⟨x, hx, hlaid⟩ := h.laid.hub i t.bare (h.hubAt hi)
  obtain ⟨p, hp, hneeds⟩ := hlaid.needs
  have hx' := hcaused x hx
  have hsource := Plan.source?_of_hub? (h := t.bare) (h.hubAt hi) hx
  have htold : w.parts.told? (.hub i) = some t.done := congrArg (Option.map HubTask.done) (h.hubAt hi)
  have hlive : ∀ f ∈ t.hub.live, w.Caused causes (w.feed f) := by
    intro f hf
    obtain ⟨s, sub, hs, hsub, rfl⟩ := (h.hub i t hi).live f hf
    obtain ⟨hsubscribes, hup⟩ := h.subscribes_of_hub hs hsub
    exact hsubscribes.feed ▸ hx'.up (hup.trans hx)
  refine (schedules_schedule _).sound.seq fun _ => (sound_fire_life (s := t.scope) hlaid.scope hx').seq fun _ => ?_
  refine .seq ((sound_drop h.laid hsource hp hx').seq fun _ => .pure trivial) fun _ => ?_
  refine .seq (Q := Sound w causes (.fired p.scope :: .fired t.scope :: marks) (some (.telling (.hub i))))
    (Reaches.change fun m hm => (hm.begin _).modifyHub i (fun _ => rfl) (fun t' ht' hsound => ?_) ?_ fun _ _ => .inr rfl)
    fun _ => ?_
  · exact
      { stopped := fun _ => hcaused
        leaving := hsound.leaving
        live := nofun
        nodup := .nil
        granted := hsound.granted }
  · intro t' ht' s sub hs hsub _
    exact .inr (hx'.up ((hm.subscribes_of_hub hs hsub).2.trans hx))
  · refine .seq (Reaches.each fun f hf => sound_closeFeed (hlive f hf)) fun _ => ?_
    refine (sound_fire_done (s := t.done) hlaid.done hcaused ?_).mono (fun _ => id) fun m hm => ?_
    · intro j hj
      rw [hneeds] at hj
      rcases List.mem_cons.1 hj with rfl | hj
      · exact List.mem_cons_of_mem _ List.mem_cons_self
      · obtain rfl := List.mem_singleton.1 hj
        exact List.mem_cons_self
    · refine (hm.told htold List.mem_cons_self).unmark fun m hm => ?_
      exact List.mem_cons_of_mem _ (List.mem_cons_of_mem _ (List.mem_cons_of_mem _ hm))

end Network

/-! ### Views -/

namespace Network

variable {w : Plan} {causes : List Node} {marks : List Mark} {busy : Option Activity} {x : Node}

/-- A view stops only at a node that is caused to close. -/
def AllowsView (w : Plan) (causes : List Node) (i : Nat) (input : View.Input) : Prop :=
  input.Ends → ∀ x, w.tree.view? i = some x → w.Caused causes x

theorem Plan.subscription?_of_view? {i : Nat} {v : ViewTask} (hi : w.parts.views[i]? = some v)
    (hx : w.tree.view? i = some x) : w.tree.subscription? v.parent = some x := by
  simpa [Tree.view?, Plan.tree, Network.tree, hi] using hx

theorem sound_noteView (i : Nat) {f : ViewTask → ViewTask} (hf : ∀ v, (f v).bare = v.bare)
    (view : ∀ v, (f v).view = v.view) :
    Reaches (Sound w causes marks busy) (modifyView i f) (Sound w causes marks busy) :=
  Reaches.change fun _ h => h.noteView i hf view

theorem sound_nextForView (i : Nat) :
    Leads (Sound w causes marks busy) (nextForView i) (fun r => ∀ input, r = some input → AllowsView w causes i input)
      (Sound w causes marks busy) := by
  have hplain : ∀ input : View.Input, ¬ input.Ends → ∀ i', some input = some i' → AllowsView w causes i i' := by
    rintro input hi _ ⟨⟩ hc
    exact absurd hc hi
  refine .get fun n h => ?_
  split
  swap
  · exact .nothing
  rename_i v hv
  have hview := h.viewAt hv
  obtain ⟨x, hx, hlaid⟩ := h.laid.view i v.bare hview
  have hcaused : ∀ input : View.Input, w.Caused causes x → ∀ i', some input = some i' → AllowsView w causes i i' := by
    rintro input hc _ ⟨⟩ - y hy
    obtain rfl : x = y := Option.some.inj (hx.symm.trans hy)
    exact hc
  refine .get fun n h => ?_
  split
  swap
  · exact .nothing
  rename_i parent hparent
  obtain ⟨y, hy, hsub⟩ := h.laid.subscription v.parent parent (h.subscriptionAt hparent)
  obtain rfl : y = x := Option.some.inj (hy.symm.trans (Plan.subscription?_of_view? (v := v.bare) hview hx))
  obtain ⟨k, hk, hrole, -⟩ := hlaid.keeper
  have hclear : Reaches (Sound w causes marks busy) (modifyView i fun v => { v with reply := none })
      (Sound w causes marks busy) := sound_noteView i (fun _ => rfl) fun _ => rfl
  have hown : Leads (Sound w causes marks busy) (answer? (.view i) v.keeper v.reply
      (modifyView i fun v => { v with reply := none }) View.Input.refused (.applied ·.eventList))
      (fun r => ∀ input, r = some input → AllowsView w causes i input) (Sound w causes marks busy) :=
    sound_answer? (x := y) ⟨k, y, hk, hrole, .refl⟩ hclear (fun hc => hcaused _ hc _ rfl) fun r hends => by cases hends
  dsimp only
  split
  · refine (sound_hasFired _ (s := v.scope) hlaid.scope).bind fun fired hfired => ?_
    split
    · exact .pure (hcaused _ (hfired (by assumption)))
    split
    on_goal 1 =>
      refine (schedules_hasFired _ _).sound.seq fun fired => ?_
      split
      · exact .pure (hplain .parentReady nofun)
    -- Whether or not the parent's readiness is looked at first, what follows is the same.
    all_goals
      split
      · refine schedules_spend.sound.seq fun _ => ?_
        exact .seq (sound_noteView i (fun _ => rfl) fun _ => rfl) fun _ => .pure (hplain (.refilter _) nofun)
      · refine (schedules_await _ _).sound.seq fun _ => ?_
        refine (sound_nextWithin hsub.scope hsub.feed hsub.bound).bind fun r hr => ?_
        split
        · exact .pure (hplain (.event _) nofun)
        · exact .pure (hcaused _ (hr rfl))
        · exact .nothing
  · exact sound_answer? hsub.keeper hclear (fun hc => hcaused _ hc _ rfl) fun r hends => by cases hends
  · exact hown
  · exact hown
  · exact hown
  · refine .get fun n h => ?_
    split
    · refine (schedules_hasFired _ _).sound.seq fun fired => .pure ?_
      split
      · exact hplain .storeStopped nofun
      · nofun
    · exact .pure (hplain .storeStopped nofun)
  · exact .nothing

theorem sound_plainForView {i : Nat} {v : ViewTask} (hlaid : w.Filters i v.bare x) {a : View.Action}
    (ha : a.isPlain = true) : Reaches (Sound w causes marks busy) (actForView i v a) (Sound w causes marks busy) := by
  cases a with
  | readParent =>
      refine .get fun n h => ?_
      split
      · exact sound_ask _ _ _
      · exact .pure trivial
  | ask r => exact sound_ask _ _ _
  | fireReady => exact sound_fire_ready hlaid.ready
  | offer events =>
      refine Reaches.each fun e _ => .seq (Q := Sound w causes marks busy) ?_ fun _ => .pure trivial
      exact (sound_writeWith e (isOpen_offer e) hlaid.bound).mono (fun _ _ => trivial) fun _ => id
  | shutDown => cases ha
  | fireDone => cases ha

/-- A view that stops closes what it has read. -/
theorem sound_shutDownForView {i : Nat} {v : ViewTask} (laid : w.Laid) (hi : w.parts.views[i]? = some v.bare)
    (hx : w.tree.view? i = some x) (hlaid : w.Filters i v.bare x) (hcaused : w.Caused causes x) :
    Reaches (Sound w causes marks (some (.stopping (.view i)))) (actForView i v .shutDown) (Sound w causes marks none) := by
  obtain ⟨sub, hsub, hneeds⟩ := hlaid.needs
  have hp := parts?_subscription hsub
  have hsource : w.tree.source? (.subscription v.parent) = some x := Plan.subscription?_of_view? (v := v.bare) hi hx
  refine (schedules_schedule _).sound.seq fun _ => (sound_fire_life (s := v.scope) hlaid.scope hcaused).seq fun _ => ?_
  have hrest : Reaches (Sound w causes (.fired v.scope :: marks) (some (.stopping (.view i)))) (do
      discard <| Source.drop (.subscription v.parent)
      closeFeed v.feed) (Sound w causes marks none) := by
    refine .seq ((sound_drop laid hsource hp hcaused).seq fun _ => .pure trivial) fun _ => ?_
    refine (sound_closeFeed (f := v.feed) (hlaid.feed ▸ hcaused)).mono (fun _ => id) fun n h => ?_
    refine (h.finish fun j hj => ?_).unmark fun m hm => List.mem_cons_of_mem _ (List.mem_cons_of_mem _ hm)
    rw [hneeds] at hj
    rcases List.mem_cons.1 hj with rfl | hj
    · exact List.mem_cons_of_mem _ List.mem_cons_self
    · obtain rfl := List.mem_singleton.1 hj
      exact List.mem_cons_self
  refine .get fun n h => ?_
  dsimp only
  split
  · rename_i k hk
    obtain ⟨k', hk', hrole, -⟩ := hlaid.keeper
    obtain rfl : k.bare = k' := Option.some.inj ((h.keeperAt hk).symm.trans hk')
    exact .seq ((sound_fire_life (s := k.scope) hrole hcaused).unmark (List.subset_cons_self _ _)) fun _ => hrest
  · exact hrest

theorem sound_takeForView {i : Nat} {input : View.Input} (hinput : AllowsView w causes i input) :
    Reaches (Sound w causes marks none) (takeForView i input) (Sound w causes marks none) := by
  refine .getAt fun n h => ?_
  split
  swap
  · exact Leads.of_imp (.pure trivial) (by rintro _ rfl; exact h)
  rename_i v hv
  have hview := h.viewAt hv
  obtain ⟨x, hx, hlaid⟩ := h.laid.view i v.bare hview
  dsimp only
  rcases v.view.step_cases input with ⟨hends, hstep⟩ | ⟨hstopped, -, hactions⟩ | ⟨hsame, hphase, hplain⟩
  · rw [hstep]
    refine .seq (Q := Sound w causes marks (some (.stopping (.view i)))) (Reaches.change ?_) fun _ => ?_
    · rintro _ rfl
      refine (h.begin _).modifyView i (fun _ => rfl) (fun v' hv' hr => ⟨hinput hends, fun hb => absurd rfl hb⟩)
        fun v' hv' hr => ?_
      cases (show View.Phase.stopping = .stopped from hr)
    · exact (sound_shutDownForView h.laid hview hx hlaid (hinput hends x hx)).single
  · have hstops' := h.view i v hv hstopped
    obtain ⟨sub, hsub, hneeds⟩ := hlaid.needs
    have hfired : ∀ j ∈ w.needs (.view i), Mark.Holds n (.fired j) := fun _ => hstops'.isFired
    have hmarked := (h.mark (hfired sub.scope (by simp [hneeds]))).mark (hfired v.scope (by simp [hneeds, ViewTask.bare]))
    have htelling := hmarked.begin (.telling (.view i))
    have htold : w.parts.told? (.view i) = some v.done := congrArg (Option.map ViewTask.done) hview
    refine .seq (Q := Sound w causes (.fired v.scope :: .fired sub.scope :: marks) (some (.telling (.view i))))
      (Reaches.change ?_) fun _ => ?_
    · rintro _ rfl
      exact htelling.modifyView i (fun _ => rfl) (fun v' hv' hr => htelling.view i v hv hstopped) fun _ _ _ => .inr rfl
    · rw [hactions]
      refine Reaches.single ((schedules_schedule _).sound.seq fun _ => ?_)
      refine (sound_fire_done (s := v.done) hlaid.done hstops'.caused fun j hj => ?_).mono (fun _ => id) fun m hm => ?_
      · rw [hneeds] at hj
        rcases List.mem_cons.1 hj with rfl | hj
        · exact List.mem_cons_self
        · obtain rfl := List.mem_singleton.1 hj
          exact List.mem_cons_of_mem _ List.mem_cons_self
      · refine (hm.told htold List.mem_cons_self).unmark fun m hm => ?_
        exact List.mem_cons_of_mem _ (List.mem_cons_of_mem _ (List.mem_cons_of_mem _ hm))
  · refine .seq (Q := Sound w causes marks none) (Reaches.change ?_) fun _ => ?_
    · rintro _ rfl
      refine h.modifyView i (fun _ => rfl) (fun v' hv' hr => h.view i v hv (hsame ▸ hr)) fun v' hv' hr => ?_
      obtain rfl := Option.some.inj (hv.symm.trans hv')
      exact .inl (hphase hr)
    · exact Reaches.each fun a ha => sound_plainForView hlaid (hplain a ha)

end Network

/-! ### Observers -/

namespace Observer

/-- The input ends an observer. -/
inductive Input.Ends : Input → Prop
  | cancel : Ends .cancel
  | ended : Ends .ended
  | refused : Ends .refused

/-- An observer stops, or stays as it is and has nothing to do with the end. -/
theorem step_cases (p : Phase) (i : Input) :
    (i.Ends ∧ step p i = (.stopped, [.finish])) ∨
      (((step p i).1 = .stopped → p = .stopped) ∧ ∀ a ∈ (step p i).2, a ≠ .finish) := by
  unfold step
  split
  case h_1 | h_6 => exact .inl ⟨.cancel, rfl⟩
  case h_2 | h_7 => exact .inl ⟨.ended, rfl⟩
  case h_5 => exact .inl ⟨.refused, rfl⟩
  case h_3 | h_4 | h_8 => exact .inr ⟨nofun, by simp⟩
  case h_9 => exact .inr ⟨id, nofun⟩

end Observer

namespace Network

variable {w : Plan} {causes : List Node} {marks : List Mark} {busy : Option Activity} {x : Node}

/-- An observer stops only at a node that is caused to close. -/
def AllowsObserver (w : Plan) (causes : List Node) (i : Nat) (input : Observer.Input) : Prop :=
  input.Ends → ∀ x, w.tree.observer? i = some x → w.Caused causes x

theorem Plan.subscription?_of_observer? {i : Nat} {o : ObserverTask} (hi : w.parts.observers[i]? = some o)
    (hx : w.tree.observer? i = some x) : w.tree.subscription? o.subscription = some x := by
  simpa [Tree.observer?, Plan.tree, Network.tree, hi] using hx

theorem sound_nextForObserver (i : Nat) :
    Leads (Sound w causes marks busy) (nextForObserver i)
      (fun r => ∀ input, r = some input → AllowsObserver w causes i input) (Sound w causes marks busy) := by
  have hplain : ∀ input : Observer.Input, ¬ input.Ends → ∀ i', some input = some i' → AllowsObserver w causes i i' := by
    rintro input hi _ ⟨⟩ hc
    exact absurd hc hi
  refine .get fun n h => ?_
  split
  swap
  · exact .nothing
  rename_i o ho
  have hobserver := h.observerAt ho
  obtain ⟨x, hx, hlaid⟩ := h.laid.observer i o.bare hobserver
  have hcaused : ∀ input : Observer.Input, w.Caused causes x → ∀ i', some input = some i' →
      AllowsObserver w causes i i' := by
    rintro input hc _ ⟨⟩ - y hy
    obtain rfl : x = y := Option.some.inj (hx.symm.trans hy)
    exact hc
  refine .get fun n h => ?_
  split
  swap
  · exact .nothing
  rename_i sub hs
  obtain ⟨y, hy, hsub⟩ := h.laid.subscription o.subscription sub (h.subscriptionAt hs)
  obtain rfl : y = x := Option.some.inj (hy.symm.trans (Plan.subscription?_of_observer? (o := o.bare) hobserver hx))
  split
  · refine (sound_hasFired _ (s := o.scope) hlaid.scope).bind fun fired hfired => ?_
    split
    · exact .pure (hcaused _ (hfired (by assumption)))
    refine (sound_hasFired _ hsub.scope).bind fun fired hfired => ?_
    split
    · exact .pure (hcaused _ (hfired (by assumption)))
    refine (schedules_hasFired _ _).sound.seq fun fired => .pure ?_
    split
    · exact hplain .ready nofun
    · nofun
  · refine sound_answer? hsub.keeper (Reaches.change fun _ h => h.noteObserver i (fun _ => rfl) fun _ => rfl)
      (fun hc => hcaused _ hc _ rfl) fun r hends => by cases hends
  · refine (sound_hasFired _ (s := o.scope) hlaid.scope).bind fun fired hfired => ?_
    split
    · exact .pure (hcaused _ (hfired (by assumption)))
    refine (sound_nextWithin hsub.scope hsub.feed hsub.bound).bind fun r hr => ?_
    split
    · exact .pure (hplain (.event _) nofun)
    · exact .pure (hcaused _ (hr rfl))
    · exact .nothing
  · exact .nothing

theorem sound_plainForObserver {i : Nat} {o : ObserverTask} {a : Observer.Action} (ha : a ≠ .finish) :
    Reaches (Sound w causes marks busy) (actForObserver i o a) (Sound w causes marks busy) := by
  cases a with
  | read =>
      refine .get fun n h => ?_
      split
      · exact sound_ask _ _ _
      · exact .pure trivial
  | call c =>
      rw [actForObserver]
      split
      · exact Reaches.change fun _ h => h.noteObserver i (fun _ => rfl) fun _ => rfl
      · exact .pure trivial
  | finish => exact absurd rfl ha

/-- An observer that has stopped closes what it has read, and tells that. -/
theorem sound_finishForObserver {i : Nat} {o : ObserverTask} (laid : w.Laid) (hi : w.parts.observers[i]? = some o.bare)
    (hx : w.tree.observer? i = some x) (hlaid : w.Observes i o.bare x) (hcaused : w.Caused causes x) :
    Reaches (Sound w causes marks (some (.telling (.observer i)))) (actForObserver i o .finish)
      (Sound w causes marks none) := by
  obtain ⟨sub, hsub, hneeds⟩ := hlaid.needs
  have hp := parts?_subscription hsub
  have hsource : w.tree.source? (.subscription o.subscription) = some x :=
    Plan.subscription?_of_observer? (o := o.bare) hi hx
  have htold : w.parts.told? (.observer i) = some o.done := congrArg (Option.map ObserverTask.done) hi
  refine (schedules_schedule _).sound.seq fun _ => ?_
  refine .seq ((sound_drop laid hsource hp hcaused).seq fun _ => .pure trivial) fun _ => ?_
  refine (sound_fire_done (s := o.done) hlaid.done (fun y hy => ?_) fun j hj => ?_).mono (fun _ => id) fun m hm => ?_
  · obtain rfl : x = y := Option.some.inj (hx.symm.trans hy)
    exact hcaused
  · rw [hneeds] at hj
    obtain rfl := List.mem_singleton.1 hj
    exact List.mem_cons_self
  · refine (hm.told htold List.mem_cons_self).unmark ?_
    exact fun m hm => List.mem_cons_of_mem _ (List.mem_cons_of_mem _ hm)

theorem sound_tellObserver {i : Nat} {input : Observer.Input} (hinput : AllowsObserver w causes i input) :
    Reaches (Sound w causes marks none) (tellObserver i input) (Sound w causes marks none) := by
  refine .getAt fun n h => ?_
  split
  swap
  · exact Leads.of_imp (.pure trivial) (by rintro _ rfl; exact h)
  rename_i o ho
  have hobserver := h.observerAt ho
  obtain ⟨x, hx, hlaid⟩ := h.laid.observer i o.bare hobserver
  dsimp only
  rcases Observer.step_cases o.phase input with ⟨hends, hstep⟩ | ⟨hsame, hplain⟩
  · rw [hstep]
    refine .seq (Q := Sound w causes marks (some (.telling (.observer i)))) (Reaches.change ?_) fun _ => ?_
    · rintro _ rfl
      exact (h.begin _).modifyObserver i (fun _ => rfl) (fun _ _ _ => hinput hends) fun _ _ _ => .inr rfl
    · exact (sound_finishForObserver h.laid hobserver hx hlaid (hinput hends x hx)).single
  · refine .seq (Q := Sound w causes marks none) (Reaches.change ?_) fun _ => ?_
    · rintro _ rfl
      refine h.modifyObserver i (fun _ => rfl) (fun _ _ hr => h.observer i o ho (hsame hr)) fun o' ho' hr => ?_
      obtain rfl := Option.some.inj (ho.symm.trans ho')
      exact .inl (hsame hr)
    · exact Reaches.each fun a ha => sound_plainForObserver (hplain a ha)

end Network

end Replica
