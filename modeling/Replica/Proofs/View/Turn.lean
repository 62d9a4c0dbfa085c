import Replica.Network.Start
import Replica.Proofs.Feed
import Replica.Proofs.Network.Run
import Replica.Proofs.View.Vantage

/-! # Turns of a view

`ViewTask.Finds` lists what a view can find in its turn, with what becomes of its task and of the feed that it
reads; a view finds nothing else (`gives_nextForView`).  As long as it does not end, what it does on that
leaves what it reads alone (`sees_takeForView`).  A view that has begun to stop does not run again
(`halts_nextForView`, `halts_takeForView`). -/

namespace Replica

namespace View

variable {v : View} {own : Store} {errand : Errand} {i : Input}

/-- Whether the view waits for its own store. -/
def isWaiting (v : View) : Bool :=
  match v.phase with
  | .applying _ | .noting _ | .updating => true
  | _ => false

/-- The input ends a view. -/
inductive Input.Ends : Input → Prop
  | cancel : Ends .cancel
  | parentEnded : Ends .parentEnded
  | refused : Ends .refused

/-- The action has nothing to do with the end. -/
def Action.isPlain : Action → Bool
  | .shutDown | .fireDone => false
  | .readParent | .ask _ | .fireReady | .offer _ => true

theorem step_cases (v : View) (i : Input) :
    (i.Ends ∧ v.step i = v.stop) ∨
      (v.isRunning = false ∧ (v.step i).1.isRunning = false ∧ (v.step i).2 = [.fireDone]) ∨
        ((v.step i).1.isRunning = v.isRunning ∧ ((v.step i).1.phase = .stopped → v.phase = .stopped) ∧
          ∀ a ∈ (v.step i).2, a.isPlain = true) := by
  unfold step
  split
  case h_1 => exact .inl ⟨.cancel, rfl⟩
  case h_2 => exact .inl ⟨.parentEnded, rfl⟩
  case h_10 | h_11 | h_12 | h_13 => exact .inl ⟨.refused, rfl⟩
  case h_14 hphase => exact .inr (.inl ⟨by rw [isRunning, hphase], rfl, rfl⟩)
  case h_15 => exact .inr (.inr ⟨rfl, id, by simp⟩)
  case h_6 hphase | h_8 hphase | h_9 hphase =>
    exact .inr (.inr ⟨by simp [isRunning, hphase], by simp, by simp [Action.isPlain]⟩)
  case h_5 hphase =>
    refine .inr (.inr ?_)
    split <;> exact ⟨by simp [isRunning, hphase], by simp, by simp [Action.isPlain]⟩
  all_goals
    rename_i hphase
    refine .inr (.inr ?_)
    rw [show v.isRunning = true by rw [isRunning, hphase]]
    dsimp only
    repeat' split
    all_goals simp [isRunning, hphase, Action.isPlain]

theorem isRunning_step (h : v.isRunning = false) (i : Input) : (v.step i).1.isRunning = false := by
  obtain ⟨-, hstop⟩ | ⟨-, hstopped, -⟩ | ⟨hsame, -⟩ := v.step_cases i
  · rw [hstop]
    rfl
  · exact hstopped
  · rw [hsame, h]

theorem Stage.isRunning (h : v.Stage own errand) : v.isRunning = true := by
  cases h <;> simp only [View.isRunning, *]

theorem parentReady_step (v : View) (h : v.parentReady = true) (i : Input) : (v.step i).1.parentReady = true := by
  unfold step stop
  split
  case h_3 | h_4 | h_7 =>
    dsimp only
    repeat' split
    all_goals simp [h]
  case h_5 => split <;> exact h
  all_goals exact h

theorem applying_of_fireReady (hmem : .fireReady ∈ (v.step i).2) :
    (∃ job, v.phase = .applying job) ∧ (v.step i).1.parentReady = v.parentReady := by
  revert hmem
  unfold step stop
  split
  case h_7 phase =>
    intro
    refine ⟨⟨_, phase⟩, ?_⟩
    dsimp only
    split <;> rfl
  case h_3 | h_4 =>
    dsimp only
    repeat' split
    all_goals simp
  case h_5 => split <;> simp
  all_goals simp

theorem Stage.parentReady_step (h : v.Stage own errand) (hmem : .fireReady ∈ (v.step i).2) :
    (v.step i).1.parentReady = true := by
  obtain ⟨⟨job, phase⟩, hsame⟩ := applying_of_fireReady hmem
  rw [hsame]
  cases h with
  | applying _ _ _ parent | applied _ _ parent => exact parent
  | idle phase' | reading phase' | read _ phase' | noting phase' | noted _ phase' | updating _ phase'
  | updated _ phase' =>
      rw [phase] at phase'
      cases phase'

end View

namespace Network

variable {n n' : Network} {i : Nat} {t t' : ViewTask} {s : Subscription} {feed feed' : Feed Event}

/-! ### What a view reads -/

/-- A network with a view, the subscription that is its parent, and the feed of that. -/
structure Sees (n : Network) (i : Nat) (t : ViewTask) (s : Subscription) (feed : Feed Event) : Prop where
  task : n.views[i]? = some t
  parent : n.subscriptions[t.parent]? = some s
  feed : n.feeds[s.feed]? = some feed
  /-- The view does not read what it writes. -/
  apart : t.feed ≠ s.feed

/-- What a view can find in its turn: the input, and its task and the feed that it reads as they are then.
Whether its parent is ready is `fired`. -/
inductive ViewTask.Finds (t : ViewTask) (fired : Bool) (feed : Feed Event) :
    View.Input → ViewTask → Feed Event → Prop
  | cancel (free : t.view.phase = .idle) : Finds t fired feed .cancel t feed
  | parentReady (free : t.view.phase = .idle) (first : t.view.parentReady = false) (ready : fired = true) :
    Finds t fired feed .parentReady t feed
  | refilter {filter : Filter} (free : t.view.phase = .idle) (asked : t.request = some filter) :
    Finds t fired feed (.refilter filter) { t with request := none } feed
  | event {e : Event} (free : t.view.phase = .idle) (oldest : feed.poll.2 = .item e) :
    Finds t fired feed (.event e) t feed.poll.1
  | parentEnded (free : t.view.phase = .idle) : Finds t fired feed .parentEnded t feed
  | contents {job : View.Job} {r : Reply} (waits : t.view.phase = .reading job) (there : t.reply = some r) :
    Finds t fired feed (.contents r.objectList) { t with reply := none } feed
  | applied {r : Reply} (waits : t.view.isWaiting = true) (there : t.reply = some r) :
    Finds t fired feed (.applied r.eventList) { t with reply := none } feed
  | refused (waits : t.view.phase ≠ .idle) : Finds t fired feed .refused t feed
  | storeStopped (waits : t.view.phase = .stopping) : Finds t fired feed .storeStopped t feed

theorem ViewTask.Finds.view {fired : Bool} {input : View.Input} (h : t.Finds fired feed input t' feed') :
    t'.view = t.view := by
  cases h <;> rfl

theorem Sees.of_data (h : n.Sees i t s feed) (hdata : n'.data = n.data) : n'.Sees i t s feed := by
  rw [eq_of_data hdata]
  exact ⟨h.task, h.parent, h.feed, h.apart⟩

theorem Sees.modify (h : n.Sees i t s feed) {change : ViewTask → ViewTask}
    (parent : (change t).parent = t.parent) (writes : (change t).feed = t.feed) :
    ((modifyView i change).run n).2.Sees i (change t) s feed where
  task := getElem?_modify_of_some h.task _
  parent := parent.symm ▸ h.parent
  feed := h.feed
  apart := writes.symm ▸ h.apart

theorem Sees.poll (h : n.Sees i t s feed)
    (hdata : n'.data = { n with feeds := n.feeds.modify s.feed fun feed => feed.poll.1 }.data) :
    n'.Sees i t s feed.poll.1 := by
  refine Sees.of_data (n := { n with feeds := _ }) ?_ hdata
  exact ⟨h.task, h.parent, getElem?_modify_of_some h.feed _, h.apart⟩

/-- What a view has found in its turn. -/
def Encounters (i : Nat) (t : ViewTask) (s : Subscription) (feed : Feed Event) (scopes : Scopes) :
    Option View.Input → Network → Prop
  | none, n => n.scopes = scopes ∧ n.Sees i t s feed
  | some input, n => n.scopes = scopes ∧
    ∃ t' feed', t.Finds (scopes.isFired s.ready) feed input t' feed' ∧ n.Sees i t' s feed'

theorem Sees.encounters (h : n.Sees i t s feed) (hdata : n'.data = n.data) :
    Encounters i t s feed n.scopes none n' := by
  have hn := eq_of_data hdata
  exact ⟨by rw [hn], h.of_data hdata⟩

theorem Sees.finds (h : n.Sees i t s feed) (hdata : n'.data = n.data) {input : View.Input}
    (hfinds : t.Finds (n.scopes.isFired s.ready) feed input t feed) :
    Encounters i t s feed n.scopes (some input) n' := by
  have hn := eq_of_data hdata
  exact ⟨by rw [hn], t, feed, hfinds, h.of_data hdata⟩

theorem Sees.hears (h : n.Sees i t s feed) (hdata : n'.data = n.data) {input : View.Input}
    (hfinds : t.Finds (n.scopes.isFired s.ready) feed input { t with reply := none } feed) :
    Encounters i t s feed n.scopes (some input) ((modifyView i fun t => { t with reply := none }).run n').2 := by
  have hn := eq_of_data hdata
  exact ⟨by rw [hn]; rfl, _, feed, hfinds, (h.of_data hdata).modify rfl rfl⟩

/-- **What a view finds in its turn.** -/
theorem gives_nextForView (h : n.Sees i t s feed) :
    Gives (nextForView i) n (Encounters i t s feed n.scopes) := by
  rw [nextForView]
  refine .get ?_
  rw [h.task]
  refine .get ?_
  rw [h.parent]
  dsimp only
  split
  · rename_i free
    refine .hasFired fun n₁ h₁ => ?_
    split
    · exact h.finds h₁ (.cancel free)
    split
    on_goal 1 =>
      rename_i first
      refine .hasFired fun n₁ h₂ => ?_
      rw [eq_of_data h₁]
      replace h₁ := h₂.trans h₁
      split
      · rename_i ready
        exact h.finds h₁ (.parentReady free (by simpa using first) ready)
    -- Whether or not the parent's readiness is looked at first, what follows is the same.
    all_goals
      split
      · rename_i filter asked
        refine .seq schedules_spend fun _ n₂ h₂ => ?_
        have hn := eq_of_data (h₂.trans h₁)
        exact ⟨by rw [hn]; rfl, _, feed, .refilter free asked, (h.of_data (h₂.trans h₁)).modify rfl rfl⟩
      refine .seq (schedules_await _ _) fun _ n₂ h₂ => ?_
      replace h₂ := h₂.trans h₁
      refine .nextWithin (h.of_data h₂).feed (fun n₃ h₃ => ?_) fun n₃ h₃ => ?_
      · exact h.finds (h₃.trans h₂) (.parentEnded free)
      have hscopes : n₃.scopes = n.scopes := by rw [eq_of_data h₃, eq_of_data h₂]
      have hleft := (h.of_data h₂).poll h₃
      have hsame : feed.poll.2.item? = none → n₃.Sees i t s feed := fun hnone => by
        rwa [Feed.poll_of_item? hnone] at hleft
      cases hpolled : feed.poll.2 with
      | item e => exact ⟨hscopes, t, _, .event free hpolled, hleft⟩
      | ended => exact ⟨hscopes, t, feed, .parentEnded free, hsame (by rw [hpolled]; rfl)⟩
      | pending => exact ⟨hscopes, hsame (by rw [hpolled]; rfl)⟩
  · rename_i job waits
    exact .answer? (fun n₁ h₁ => h.finds h₁ (.refused (by simp [waits]))) (fun _ n₁ h₁ => h.encounters h₁)
      fun r there n₁ h₁ => h.hears h₁ (.contents waits there)
  · rename_i job waits
    exact .answer? (fun n₁ h₁ => h.finds h₁ (.refused (by simp [waits]))) (fun _ n₁ h₁ => h.encounters h₁)
      fun r there n₁ h₁ => h.hears h₁ (.applied (by rw [View.isWaiting, waits]) there)
  · rename_i filter waits
    exact .answer? (fun n₁ h₁ => h.finds h₁ (.refused (by simp [waits]))) (fun _ n₁ h₁ => h.encounters h₁)
      fun r there n₁ h₁ => h.hears h₁ (.applied (by rw [View.isWaiting, waits]) there)
  · rename_i waits
    exact .answer? (fun n₁ h₁ => h.finds h₁ (.refused (by simp [waits]))) (fun _ n₁ h₁ => h.encounters h₁)
      fun r there n₁ h₁ => h.hears h₁ (.applied (by rw [View.isWaiting, waits]) there)
  · rename_i waits
    refine .get ?_
    split
    · rename_i k _
      rw [Gives, run_bind]
      have h₁ := schedules_hasFired (.view i) k.done n
      split
      · exact h.finds h₁ (.storeStopped waits)
      · exact h.encounters h₁
    · exact h.finds rfl (.storeStopped waits)
  · exact h.encounters rfl

/-! ### What a view wants done -/

/-- What a view does on an input. -/
def takeForView (i : Nat) (input : View.Input) : Net Unit := do
  let some v := (← get).views[i]? | return
  let (view, actions) := v.view.step input
  modifyView i fun v => { v with view }
  for a in actions do actForView i v a

/-- The views with what one of them reads. -/
def viewing (k : FeedId) (n : Network) : List ViewTask × List Subscription × Option (Feed Event) :=
  (n.views, n.subscriptions, n.feeds[k]?)

theorem Sees.of_viewing (h : n.Sees i t s feed) (hsame : n'.viewing s.feed = n.viewing s.feed) :
    n'.Sees i t s feed := by
  obtain ⟨hviews, hrest⟩ := Prod.mk.inj hsame
  obtain ⟨hsubscriptions, hfeed⟩ := Prod.mk.inj hrest
  exact ⟨hviews ▸ h.task, hsubscriptions ▸ h.parent, hfeed ▸ h.feed, h.apart⟩

theorem keeps_offer {f k : FeedId} (hk : f ≠ k) (e : Event) : Keeps (viewing k) (offer f e) := fun n => by
  have hwritten := congrArg (viewing k) (data_writeWith Feed.offer f e n).2
  have hfeed : (n.feeds.modify f fun feed => (feed.offer e).1)[k]? = n.feeds[k]? :=
    List.getElem?_modify_ne _ _ hk
  exact hwritten.trans (congrArg (fun feed => (n.views, n.subscriptions, feed)) hfeed)

/-- As long as a view does not end, what it wants done changes no view and nothing that it reads. -/
theorem keeps_plainForView {v : ViewTask} {k : FeedId} (hk : v.feed ≠ k) {a : View.Action} (ha : a.isPlain = true) :
    Keeps (viewing k) (actForView i v a) := by
  cases a with
  | readParent =>
      refine .bind .get fun n => ?_
      split
      · exact .ask (fun _ => rfl) _ _ _
      · exact .pure _
  | ask r => exact .ask (fun _ => rfl) _ _ _
  | fireReady => exact .fire (fun _ => rfl) _
  | offer events =>
      exact .forIn fun e _ _ => .bind (.bind (keeps_offer hk e) fun _ => .pure _) fun _ => .pure _
  | shutDown | fireDone => cases ha

theorem keeps_scopesForView {v : ViewTask} {a : View.Action} (ha : a.isPlain = true) (hne : a ≠ .fireReady) :
    Keeps (·.scopes) (actForView i v a) := by
  cases a with
  | readParent =>
      refine .bind .get fun n => ?_
      split
      · exact .ask (fun _ => rfl) _ _ _
      · exact .pure _
  | ask r => exact .ask (fun _ => rfl) _ _ _
  | offer events =>
      exact .forIn fun e _ _ => .bind (.bind (.writeWith (fun _ => rfl) _ _ _) fun _ => .pure _) fun _ => .pure _
  | fireReady => exact absurd rfl hne
  | shutDown | fireDone => cases ha

/-- **What a view that runs on does changes nothing that it reads.** -/
theorem sees_takeForView (h : n.Sees i t s feed) {input : View.Input}
    (hplain : ∀ a ∈ (t.view.step input).2, a.isPlain = true) :
    ((takeForView i input).run n).2.Sees i { t with view := (t.view.step input).1 } s feed ∧
      (.fireReady ∉ (t.view.step input).2 → ((takeForView i input).run n).2.scopes = n.scopes) := by
  suffices Gives (takeForView i input) n fun _ n' =>
      n'.Sees i { t with view := (t.view.step input).1 } s feed ∧
        (.fireReady ∉ (t.view.step input).2 → n'.scopes = n.scopes) from this
  refine .get ?_
  rw [h.task]
  dsimp only
  rw [Gives, run_bind]
  have hchanged : ((modifyView i fun t' => { t' with view := (t.view.step input).1 }).run n).2.Sees i
      { t with view := (t.view.step input).1 } s feed := h.modify rfl rfl
  constructor
  · have hkeeps : Keeps (viewing s.feed) (do for a in (t.view.step input).2 do actForView i t a) :=
      .forIn fun a ha _ => .bind (keeps_plainForView h.apart (hplain a ha)) fun _ => .pure _
    exact hchanged.of_viewing (hkeeps _)
  · intro hmem
    have hkeeps : Keeps (·.scopes) (do for a in (t.view.step input).2 do actForView i t a) :=
      .forIn fun a ha _ => .bind (keeps_scopesForView (hplain a ha) fun heq => hmem (heq ▸ ha)) fun _ => .pure _
    exact hkeeps _

/-! ### The end -/

/-- The view has begun to stop. -/
def Halts (i : Nat) (n : Network) : Prop := ∃ t, n.views[i]? = some t ∧ t.view.isRunning = false

theorem Halts.of_data (h : n.Halts i) (hdata : n'.data = n.data) : n'.Halts i := by
  rw [eq_of_data hdata]
  exact h

theorem keeps_actForView (v : ViewTask) (a : View.Action) : Keeps (·.views) (actForView i v a) := by
  cases a with
  | readParent =>
      refine .bind .get fun n => ?_
      split
      · exact .ask (fun _ => rfl) _ _ _
      · exact .pure _
  | ask r => exact .ask (fun _ => rfl) _ _ _
  | fireReady => exact .fire (fun _ => rfl) _
  | offer events =>
      exact .forIn fun e _ _ => .bind (.bind (.writeWith (fun _ => rfl) _ _ _) fun _ => .pure _) fun _ => .pure _
  | shutDown =>
      have hrest : Keeps (·.views) (do
          discard <| Source.drop (.subscription v.parent)
          closeFeed v.feed) :=
        .bind (.bind (.drop (fun _ => rfl) _) fun _ => .pure _) fun _ => fun _ => rfl
      refine .bind (fun _ => rfl) fun _ => .bind (.fire (fun _ => rfl) _) fun _ => .bind .get fun n => ?_
      split
      · exact .bind (.fire (fun _ => rfl) _) fun _ => hrest
      · exact hrest
  | fireDone => exact .bind (fun _ => rfl) fun _ => .fire (fun _ => rfl) _

theorem halts_takeForView (h : n.views[i]? = some t) {input : View.Input}
    (hstops : (t.view.step input).1.isRunning = false) : ((takeForView i input).run n).2.Halts i := by
  suffices Gives (takeForView i input) n fun _ n' => n'.Halts i from this
  refine .get ?_
  rw [h]
  have hkeeps : Keeps (·.views) (do for a in (t.view.step input).2 do actForView i t a) :=
    .forIn fun a _ _ => .bind (keeps_actForView t a) fun _ => .pure _
  refine ⟨{ t with view := (t.view.step input).1 }, ?_, hstops⟩
  exact (congrArg (·[i]?) (hkeeps _)).trans (getElem?_modify_of_some h _)

/-- A view that has begun to stop only waits for its store. -/
theorem halts_nextForView (h : n.Halts i) : Gives (nextForView i) n fun _ n' => n'.Halts i := by
  have hpure : ∀ r : Option View.Input, Gives (pure r) n fun _ n' => n'.Halts i := fun _ => h
  obtain ⟨t, ht, hstopped⟩ := h
  refine .get ?_
  rw [ht]
  refine .get ?_
  split
  swap
  · exact hpure none
  dsimp only
  split
  case h_6 =>
    refine .get ?_
    split
    · exact Halts.of_data ⟨t, ht, hstopped⟩ (schedules_hasFired _ _ n)
    · exact hpure _
  case h_7 => exact hpure none
  all_goals
    rename_i runs
    rw [View.isRunning, runs] at hstopped
    cases hstopped

/-! ### The beginning -/

/-- The network in which a view of a subscription has just started. -/
def viewed (n : Network) (k : Nat) (filter : Filter) (deferred : Bool) (capacity : Nat) : Network :=
  let root := n.scopes.list.length
  { n with
    feeds := n.feeds ++ [.new capacity]
    scopes := (n.scopes.addRoot.1.addChild root).1.addRoot.1.addRoot.1.addRoot.1
    keepers := n.keepers ++ [⟨.new filter, root + 1, root + 2⟩]
    views := n.views ++
      [⟨.new filter deferred, k, n.keepers.length, n.feeds.length, root, root + 3, root + 4, none, none⟩] }

theorem data_startView {k : Nat} (hs : n.subscriptions[k]? = some s) (filter : Filter) (deferred : Bool) :
    ((startView k filter deferred).run n).2.data =
      (n.viewed k filter deferred ((n.feeds[s.feed]?.map Feed.capacity).getD 0)).data := by
  have hp := parts?_subscription hs
  have h₁ : (n.scopes.addRoot.1.addChild n.scopes.list.length).2 = n.scopes.list.length + 1 := by
    simp [Scopes.addRoot, Scopes.addChild]
  have h₂ : (n.scopes.addRoot.1.addChild n.scopes.list.length).1.addRoot.2 = n.scopes.list.length + 2 := by
    simp [Scopes.addRoot, Scopes.addChild]
  have h₃ : (n.scopes.addRoot.1.addChild n.scopes.list.length).1.addRoot.1.addRoot.2 = n.scopes.list.length + 3 := by
    simp [Scopes.addRoot, Scopes.addChild]
  have h₄ : (n.scopes.addRoot.1.addChild n.scopes.list.length).1.addRoot.1.addRoot.1.addRoot.2 =
      n.scopes.list.length + 4 := by
    simp [Scopes.addRoot, Scopes.addChild]
  simp only [viewed]
  rw [← h₁, ← h₂, ← h₃, ← h₄]
  simp only [startView, StateT.run_bind, StateT.run_get, pure_bind, hp]
  rfl

theorem isFired_viewed (n : Network) (k : Nat) (filter : Filter) (deferred : Bool) (capacity : Nat) (j : ScopeId) :
    (n.viewed k filter deferred capacity).scopes.isFired j = n.scopes.isFired j := by
  simp only [viewed, Scopes.isFired_addRoot, Scopes.isFired_addChild]
  split
  · rename_i hj
    rw [Scopes.isFired_of_length_le _ (Nat.le_refl _), Scopes.isFired_of_length_le]
    subst hj
    simp [Scopes.addRoot]
  · rfl

/-- **A view that has just started reads its parent.** -/
theorem sees_startView {k : Nat} (hs : n.subscriptions[k]? = some s) (hfeed : n.feeds[s.feed]? = some feed)
    (filter : Filter) (deferred : Bool) :
    ∃ t, ((startView k filter deferred).run n).2.Sees n.views.length t s feed ∧
      t.view = .new filter deferred ∧ t.reply = none ∧
      ∀ j, ((startView k filter deferred).run n).2.scopes.isFired j = n.scopes.isFired j := by
  have hdata := data_startView hs filter deferred
  have hlt : s.feed < n.feeds.length := (List.getElem?_eq_some_iff.1 hfeed).1
  refine ⟨_, Sees.of_data (n := n.viewed k filter deferred _) ⟨List.getElem?_concat_length, hs, ?_, ?_⟩ hdata, rfl,
    rfl, fun j => ?_⟩
  · exact (List.getElem?_append_left hlt).trans hfeed
  · exact Nat.ne_of_gt hlt
  · rw [eq_of_data hdata]
    exact isFired_viewed n k filter deferred ((n.feeds[s.feed]?.map Feed.capacity).getD 0) j

end Network

end Replica
