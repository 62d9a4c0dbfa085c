import Replica.Proofs.Feed
import Replica.Proofs.Network.Run
import Replica.Proofs.Observer.Outlook

/-! # Turns of an observer

What an observer does in its turn in a network are moves of an `Outlook` (`maintains_runObserver`): it
senses readiness, hears the contents, takes events, and leaves.  Of the outlook the network shows what the
observer itself has to do with (`Views`): its phase, the feed that it reads, readiness, the answer that
waits for it, and those of its calls in which the handler takes part. -/

namespace Replica

namespace Network

/-- The observers with what they read. -/
def watching (n : Network) : List ObserverTask × List Subscription × Feeds :=
  (n.observers, n.subscriptions, n.feeds)

/-- A network shows the part that an observer's task has in an outlook. -/
structure Views (n : Network) (i : Nat) (t : ObserverTask) (s : Subscription) (o : Outlook) : Prop where
  task : n.observers[i]? = some t
  subscription : n.subscriptions[t.subscription]? = some s
  feed : n.feeds[s.feed]? = some o.feed
  phase : t.phase = o.phase
  calls : t.calls = o.calls.filter t.interest.includes
  /-- An observer that has stopped is told nothing. -/
  told : o.phase ≠ .stopped →
    n.scopes.isFired s.ready = o.isFired ∧ t.reply.map Reply.objectList = o.answer

variable {n n' : Network} {i : Nat} {t : ObserverTask} {s : Subscription} {o : Outlook}

theorem Views.of_watching (h : n.Views i t s o) (watching : n'.watching = n.watching)
    (scopes : o.phase ≠ .stopped → n'.scopes = n.scopes) : n'.Views i t s o := by
  obtain ⟨hobservers, hrest⟩ := Prod.mk.inj watching
  obtain ⟨hsubscriptions, hfeeds⟩ := Prod.mk.inj hrest
  exact
    { task := hobservers ▸ h.task
      subscription := hsubscriptions ▸ h.subscription
      feed := hfeeds ▸ h.feed
      phase := h.phase
      calls := h.calls
      told := fun hphase => scopes hphase ▸ h.told hphase }

theorem Views.of_data (h : n.Views i t s o) (hdata : n'.data = n.data) : n'.Views i t s o := by
  have hn := eq_of_data hdata
  rw [hn]
  exact ⟨h.task, h.subscription, h.feed, h.phase, h.calls, h.told⟩

/-! ### What an observer wants done -/

theorem watching_drop {k : Nat} (hs : n.subscriptions[k]? = some s) :
    (((Source.subscription k).drop).run n).2.watching =
      (n.observers, n.subscriptions, n.feeds.modify s.feed Feed.abandon) := by
  have hclose : Keeps watching (closeSubscription k) := .closeSubscription (fun _ => rfl) k
  obtain ⟨hobservers, hrest⟩ := Prod.mk.inj (hclose n)
  obtain ⟨hsubscriptions, hfeeds⟩ := Prod.mk.inj hrest
  have hdrop : (((Source.subscription k).drop).run n).2.data.watching = _ :=
    congrArg watching (data_drop (hsubscriptions ▸ hs))
  refine hdrop.trans ?_
  rw [← hobservers, ← hsubscriptions, ← hfeeds]
  rfl

/-- What an observer wants done is done to its outlook; it finishes only when it has stopped. -/
theorem views_actForObserver (h : n.Views i t s o) {t' : ObserverTask}
    (interest : t'.interest = t.interest) (subscription : t'.subscription = t.subscription)
    (a : Observer.Action) (hfinish : a = .finish → o.phase = .stopped) :
    ∃ u : ObserverTask, ((actForObserver i t' a).run n).2.Views i u s (o.act a) ∧
      u.interest = t.interest ∧ u.subscription = t.subscription := by
  cases a with
  | read =>
      have hask : Keeps (fun n => (n.watching, n.scopes)) (actForObserver i t' .read) := by
        refine .bind .get fun n => ?_
        split
        · exact .ask (fun _ => rfl) _ _ _
        · exact .pure _
      obtain ⟨hwatching, hscopes⟩ := Prod.mk.inj (hask n)
      exact ⟨t, h.of_watching hwatching fun _ => hscopes, rfl, rfl⟩
  | call c =>
      rw [actForObserver, interest]
      split
      · rename_i includes
        refine ⟨{ t with calls := t.calls ++ [c] }, ?_, rfl, rfl⟩
        exact
          { task := getElem?_modify_of_some h.task _
            subscription := h.subscription
            feed := h.feed
            phase := h.phase
            calls := by
              rw [Outlook.act, List.filter_append, ← h.calls]
              simp [includes]
            told := h.told }
      · rename_i ignores
        refine ⟨t, ⟨h.task, h.subscription, h.feed, h.phase, ?_, h.told⟩, rfl, rfl⟩
        rw [Outlook.act, List.filter_append, ← h.calls]
        simp [ignores]
  | finish =>
      have hstopped := hfinish rfl
      have hdropped := watching_drop (n := ((finish (.observer i)).run n).2)
        (subscription.symm ▸ h.subscription)
      have hfire : Keeps watching (fire t'.done) := .fire (fun _ => rfl) _
      have hfired := (hfire _).trans hdropped
      obtain ⟨hobservers, hrest⟩ := Prod.mk.inj hfired
      obtain ⟨hsubscriptions, hfeeds⟩ := Prod.mk.inj hrest
      refine ⟨t, ?_, rfl, rfl⟩
      exact
        { task := (congrArg (·[i]?) hobservers).trans h.task
          subscription := (congrArg (·[t.subscription]?) hsubscriptions).trans h.subscription
          feed := by
            exact (congrArg (·[s.feed]?) hfeeds).trans (getElem?_modify_of_some h.feed _)
          phase := h.phase
          calls := h.calls
          told := fun hphase => absurd hstopped hphase }

theorem stopped_of_finish {p : Observer.Phase} {input : Observer.Input}
    (h : .finish ∈ (Observer.step p input).2) : (Observer.step p input).1 = .stopped := by
  cases p <;> cases input <;> simp_all [Observer.step]

theorem views_forIn {actions : List Observer.Action} {t' : ObserverTask}
    (hfinish : .finish ∈ actions → o.phase = .stopped) (h : n.Views i t s o)
    (interest : t'.interest = t.interest) (subscription : t'.subscription = t.subscription) :
    ∃ u : ObserverTask, ((ForIn.forIn actions PUnit.unit fun a _ => do
      actForObserver i t' a
      return ForInStep.yield PUnit.unit : Net PUnit).run n).2.Views i u s (actions.foldl Outlook.act o) := by
  induction actions generalizing n t o with
  | nil => exact ⟨t, h⟩
  | cons a actions ih =>
      obtain ⟨u, hu, hinterest, hsubscription⟩ :=
        views_actForObserver h interest subscription a fun ha => hfinish (ha ▸ List.mem_cons_self)
      have hphase : (o.act a).phase = o.phase := by cases a <;> rfl
      rw [List.forIn_cons, List.foldl_cons]
      exact ih (fun hmem => hphase.trans (hfinish (List.mem_cons_of_mem a hmem))) hu
        (interest.trans hinterest.symm) (subscription.trans hsubscription.symm)

theorem views_tellObserver (h : n.Views i t s o) (input : Observer.Input) :
    ∃ u : ObserverTask, ((tellObserver i input).run n).2.Views i u s (o.tell input) := by
  suffices Gives (tellObserver i input) n fun _ n' => ∃ u, n'.Views i u s (o.tell input) from this
  refine .get ?_
  rw [h.task]
  have hstep : Views ((modifyObserver i fun t => { t with phase := (Observer.step o.phase input).1 }).run n).2
      i { t with phase := (Observer.step o.phase input).1 } s
      { o with phase := (Observer.step o.phase input).1 } :=
    { task := getElem?_modify_of_some h.task _
      subscription := h.subscription
      feed := h.feed
      phase := rfl
      calls := h.calls
      told := by
        intro hphase
        refine h.told fun hstopped => hphase ?_
        change (Observer.step o.phase input).1 = .stopped
        rw [hstopped]
        rfl }
  rw [Outlook.tell]
  dsimp only
  rw [h.phase]
  exact views_forIn (fun hmem => stopped_of_finish hmem) hstep rfl rfl

/-! ### What an observer notices -/

/-- What an observer notices in a network that shows `o`: with that the outlook makes a move. -/
def Notices (i : Nat) (o : Outlook) : Option Observer.Input → Network → Prop
  | none, n => ∃ t s, n.Views i t s o
  | some input, n => ∃ q m, (∃ t s, n.Views i t s q) ∧ q.tell input = o.step m

theorem Notices.of_step {input : Observer.Input} (h : n.Views i t s o) {m : Outlook.Move}
    (hstep : o.tell input = o.step m) : Notices i o (some input) n := ⟨o, m, ⟨t, s, h⟩, hstep⟩

theorem gives_nextForObserver (h : n.Views i t s o) : Gives (nextForObserver i) n (Notices i o) := by
  rw [nextForObserver]
  refine .get ?_
  rw [h.task]
  refine .get ?_
  rw [h.subscription]
  dsimp only
  split
  · rename_i hwaiting
    refine .seq (schedules_hasFired _ _) fun _ n₁ h₁ => ?_
    split
    · exact .of_step (h.of_data h₁) (m := .cancel) rfl
    refine .seq (schedules_hasFired _ _) fun _ n₂ h₂ => ?_
    split
    · exact .of_step (h.of_data (h₂.trans h₁)) (m := .ended) rfl
    have hv := h.of_data (h₂.trans h₁)
    have hready : n₂.scopes.isFired s.ready = o.isFired :=
      (hv.told (by rw [← h.phase, hwaiting]; simp)).1
    refine .hasFired fun n₃ h₃ => ?_
    have hv₃ := hv.of_data h₃
    rw [hready]
    cases hfired : o.isFired with
    | true =>
        refine .of_step hv₃ (m := .sense) ?_
        rw [Outlook.step, hfired, if_pos rfl]
    | false => exact ⟨t, s, hv₃⟩
  · rename_i hreading
    refine .answer? (fun n' h' => .of_step (h.of_data h') (m := .refuse) rfl)
      (fun _ n' h' => ⟨t, s, h.of_data h'⟩) fun reply hreply n' h' => ?_
    have hv := h.of_data h'
    have hanswer : o.answer = some reply.objectList := by
      rw [← (hv.told (by rw [← h.phase, hreading]; simp)).2, hreply]
      rfl
    refine ⟨{ o with answer := none }, .hear, ⟨{ t with reply := none }, s, ?_⟩, ?_⟩
    · exact ⟨getElem?_modify_of_some hv.task _, hv.subscription, hv.feed, hv.phase, hv.calls,
        fun hphase => ⟨(hv.told hphase).1, rfl⟩⟩
    · rw [Outlook.step, hanswer]
  · rename_i hdispatching
    refine .seq (schedules_hasFired _ _) fun _ n₁ h₁ => ?_
    split
    · exact .of_step (h.of_data h₁) (m := .cancel) rfl
    have hv := h.of_data h₁
    refine .nextWithin hv.feed (fun n₂ h₂ => .of_step (hv.of_data h₂) (m := .ended) rfl) fun n₂ h₂ => ?_
    have hleft : n₂.Views i t s { o with feed := o.feed.poll.1 } := by
      refine Views.of_data (n := { n₁ with feeds := _ }) ?_ h₂
      exact ⟨hv.task, hv.subscription, getElem?_modify_of_some hv.feed _, hv.phase, hv.calls, hv.told⟩
    have hsame : o.feed.poll.2.item? = none → n₂.Views i t s o := fun hnone => by
      rwa [Feed.poll_of_item? hnone] at hleft
    cases hpolled : o.feed.poll.2 with
    | item e =>
        refine ⟨{ o with feed := o.feed.poll.1 }, .take, ⟨t, s, hleft⟩, ?_⟩
        rw [Outlook.step, ← h.phase, hdispatching]
        generalize o.feed.poll = r at hpolled ⊢
        obtain ⟨left, polled⟩ := r
        obtain rfl := hpolled
        rfl
    | ended => exact .of_step (hsame (by rw [hpolled]; rfl)) (m := .ended) rfl
    | pending => exact ⟨t, s, hsame (by rw [hpolled]; rfl)⟩
  · exact ⟨t, s, h⟩

/-- The network shows what an outlook has become after some moves. -/
def IsSeen (i : Nat) (o : Outlook) (n : Network) : Prop := ∃ moves t s, n.Views i t s (o.after moves)

/-- **An observer in its turn makes moves of its outlook.** -/
theorem maintains_runObserver (i : Nat) (o : Outlook) : Maintains (IsSeen i o) (runObserver i) := by
  refine drive_induction (fun n n' hdata hn => ?_) (fun n hn => ?_) _
  · obtain ⟨moves, t, s, hv⟩ := hn
    exact ⟨moves, t, s, hv.of_data hdata⟩
  · obtain ⟨moves, t, s, hv⟩ := hn
    have hfound := gives_nextForObserver hv
    unfold Gives at hfound ⊢
    generalize ((nextForObserver i).run n).1 = input?, ((nextForObserver i).run n).2 = n' at hfound ⊢
    cases input? with
    | none => exact ⟨moves, hfound⟩
    | some input =>
        obtain ⟨q, m, ⟨t', s', hq⟩, htell⟩ := hfound
        intro n'' hdata
        obtain ⟨u, hu⟩ := views_tellObserver (hq.of_data hdata) input
        refine ⟨moves ++ [m], u, s', ?_⟩
        rwa [Outlook.after, List.foldl_append, List.foldl_cons, List.foldl_nil, ← Outlook.after, ← htell]

end Network

end Replica
