import Replica.Proofs.Network.Run

/-! # What leaves the side of the server alone

Only the tasks of the poller, of the follower, of its sessions and of the coordinator change one of the first
three, or ask the server for a listing.  All that other tasks do, and what all of them are built of, is shown
here to leave these alone: it `Spares` them.

Of the poller's task only the poller and the listings are touched (`keeps_runPoller`).  The coordinator takes
results, reads the output of the follower and makes notes for it, and spares the rest
(`maintains_runCoordinator`). -/

namespace Replica

namespace Network

/-- The poller, with the listings that the server was asked for. -/
def polling (n : Network) : Option PollerTask × List Nat := (n.poller, n.server.listCalls)

/-- The follower and the sessions. -/
def listening (n : Network) : Option FollowerTask × List SessionTask := (n.follower, n.sessions)

/-- What is on the side of the server. -/
def supply (n : Network) : (Option PollerTask × List Nat) × Option FollowerTask × List SessionTask :=
  (n.polling, n.listening)

/-- The computation leaves the side of the server as it is. -/
def Spares {α : Type} (x : Net α) : Prop := Keeps supply x

variable {α : Type}

theorem listening_of_data {n n' : Network} (h : n'.data = n.data) : n'.listening = n.listening := by
  change n'.data.listening = n.data.listening
  rw [h]

theorem polling_of_data {n n' : Network} (h : n'.data = n.data) : n'.polling = n.polling := by
  change n'.data.polling = n.data.polling
  rw [h]

theorem Spares.polling {x : Net α} (hx : Spares x) : Keeps polling x := fun n => congrArg Prod.fst (hx n)

theorem Spares.listening {x : Net α} (hx : Spares x) : Keeps listening x := fun n => congrArg Prod.snd (hx n)

theorem Schedules.spares {x : Net α} (hx : Schedules x) : Spares x := hx.keeps fun _ => rfl

/-! ### Scopes and feeds -/

theorem spares_isFired (s : ScopeId) : Spares (isFired s) := fun _ => rfl

theorem spares_fire (s : ScopeId) : Spares (fire s) := .fire (fun _ => rfl) s

theorem spares_finish (t : TaskId) : Spares (finish t) := (schedules_schedule _).spares

theorem spares_spend : Spares spend := schedules_spend.spares

theorem spares_await (t : TaskId) (o : Occasion) : Spares (await t o) := (schedules_await t o).spares

theorem spares_occur (o : Occasion) : Spares (occur o) := (schedules_occur o).spares

theorem spares_closeFeed (f : FeedId) : Spares (closeFeed f) := fun _ => rfl

theorem spares_writeWith (write : Feed Event → Event → Feed Event × Pushed) (f : FeedId) (e : Event) :
    Spares (writeWith write f e) :=
  .writeWith (fun _ => rfl) write f e

theorem spares_readFeed (f : FeedId) : Spares (readFeed f) := .readFeed (fun _ => rfl) f

theorem spares_reading {t : TaskId} {o : Occasion} {read : Net (Polled α)} (hread : Spares read) :
    Spares (reading t o read) :=
  .reading (fun _ => rfl) hread

theorem spares_nextWithin (t : TaskId) (s : ScopeId) (f : FeedId) : Spares (nextWithin t s f) :=
  .ifFired (fun _ => rfl) (.pure _) (spares_reading (spares_readFeed f))

/-! ### Requests to stores -/

theorem spares_ask (keeper : Nat) (t : TaskId) (r : Request) : Spares (ask keeper t r) :=
  .ask (fun _ => rfl) keeper t r

theorem spares_deliver (recipient : Option TaskId) (reply : Reply) :
    Spares (deliver recipient reply) := by
  unfold deliver
  split
  · exact fun _ => rfl
  · split <;> exact fun _ => rfl

theorem spares_answer? {t : TaskId} {keeper : Nat} {reply : Option Reply} {clear : Net Unit}
    {refused : α} {ofReply : Reply → α} (hclear : Spares clear) :
    Spares (answer? t keeper reply clear refused ofReply) :=
  .answer? (fun _ => rfl) hclear

/-! ### Sources -/

theorem spares_drop (s : Source) : Spares s.drop := .drop (fun _ => rfl) s

/-! ### Tasks -/

/-- A turn leaves alone what looking for an input and taking it leave alone. -/
theorem spares_drive {self : TaskId} {next : Net (Option α)} {take : α → Net Unit}
    (hnext : Spares next) (htake : ∀ a, Spares (take a)) (fuel : Nat) :
    Spares (drive self next take fuel) :=
  .drive (fun _ => rfl) hnext htake fuel

theorem spares_runKeeper (i : Nat) : Spares (runKeeper i) := by
  refine spares_drive (.bind .get fun n => ?_) (fun a => ?_) _
  · split
    · exact .pure _
    refine .bind (spares_isFired _) fun fired => ?_
    split
    · exact .pure _
    refine .ifFired (fun _ => rfl) (.pure _) ?_
    split
    · exact .bind spares_spend fun _ => .pure _
    · exact .bind (spares_await _ _) fun _ => .pure _
  · split
    · refine .bind .get fun n => ?_
      split
      · exact .bind (spares_fire _) fun _ => spares_finish _
      · exact spares_finish _
    · exact .bind (fun _ => rfl) fun _ => spares_deliver _ _

theorem spares_nextForPoller : Spares nextForPoller := by
  refine .bind .get fun n => ?_
  split
  · exact .pure _
  split
  · exact .pure _
  refine .ifFired (fun _ => rfl) (.pure _) ?_
  split
  · split
    · exact .bind spares_spend fun _ => .pure _
    · exact .bind (spares_await _ _) fun _ => .pure _
  · split
    · exact .bind (spares_await _ _) fun _ => .pure _
    · exact .pure _
  · split
    · exact .bind spares_spend fun _ => .pure _
    · split
      · exact .bind spares_spend fun _ => .pure _
      · exact .bind (spares_await _ _) fun _ => .pure _
  · exact .pure _

/-- The poller in its turn changes nothing but itself, and asks for listings. -/
theorem keeps_runPoller : Keeps listening runPoller := by
  refine .drive (fun _ => rfl) spares_nextForPoller.listening (fun input => .bind (fun _ => rfl) fun _ n => ?_) _
  suffices Gives _ n fun _ n' => n'.listening = n.listening from this
  refine .get ?_
  split
  · rfl
  · rfl
  · exact (spares_finish .poller).listening n
  · rfl

theorem spares_nextForSession (i : Nat) : Spares (nextForSession i) := by
  refine .bind .get fun n => ?_
  split
  · exact .pure _
  split
  · exact .pure _
  refine .ifFired (fun _ => rfl) (.pure _) ?_
  split
  · exact .pure _
  · refine .bind (spares_reading (.bind .get fun n => ?_)) fun polled => ?_
    · split
      · exact .pure _
      · exact .bind (fun _ => rfl) fun _ => .pure _
    · split <;> exact .pure _

theorem spares_leaveSession (f : FollowerTask) : Spares (leaveSession f) := by
  unfold leaveSession
  split
  · refine .bind (schedules_schedule _).spares fun _ => .bind .get fun n => ?_
    split
    · exact spares_fire _
    · exact .pure _
  · exact .pure _

theorem spares_nextForHub (i : Nat) : Spares (nextForHub i) := by
  have hsource : ∀ t source, Spares (nextOfSource t source) := by
    intro t source
    refine .bind .get fun n => ?_
    split
    · refine .bind (spares_nextWithin _ _ _) fun polled => ?_
      split <;> exact .pure _
    · exact .pure _
  have hlast : ∀ t source, Spares (do
      if (← MonadState.get).executor.left = 0 then
        schedule (·.pause t)
        return none
      nextOfSource t source) := by
    intro t source
    refine .bind .get fun n => ?_
    split
    · exact .bind (schedules_schedule _).spares fun _ => .pure _
    · exact hsource t source
  refine .bind .get fun n => ?_
  split
  · exact .pure _
  split
  · exact .pure _
  refine .ifFired (fun _ => rfl) (.pure _) ?_
  split
  · exact .bind spares_spend fun _ => .bind (fun _ => rfl) fun _ => .pure _
  refine .bind (spares_await _ _) fun _ => ?_
  split
  · exact .bind spares_spend fun _ => .bind (fun _ => rfl) fun _ => .pure _
  split
  · exact .bind (spares_await _ _) fun _ => hlast _ _
  · exact .bind spares_spend fun _ => hlast _ _

theorem spares_actForHub (i : Nat) (input : HubInput) : Spares (actForHub i input) := by
  intro n
  suffices Gives (actForHub i input) n fun _ n' => n'.supply = n.supply from this
  refine .get ?_
  split
  · split
    · rfl
    · rfl
    · refine (Keeps.forIn (fun f _ _ => ?_) : Spares _) _
      dsimp only
      split
      · exact .bind (spares_occur _) fun _ => .pure _
      · exact .pure _
    · refine (Keeps.bind (spares_finish _) fun _ => .bind (spares_fire _) fun _ =>
        .bind (.bind (spares_drop _) fun _ => .pure _) fun _ => .bind (fun _ => rfl) fun _ =>
        .bind (.forIn fun f _ _ => .bind (spares_closeFeed f) fun _ => .pure _) fun _ =>
        spares_fire _ : Spares _) n
  · rfl

theorem spares_runHub (i : Nat) : Spares (runHub i) :=
  spares_drive (spares_nextForHub i) (spares_actForHub i) _

/-- Whether a scope has fired decides what is done, if it matters. -/
theorem Keeps.ifMattersFired {c : Prop} [Decidable c] {t : TaskId} {s : ScopeId} {x y : Net α}
    (hx : Keeps supply x) (hy : Keeps supply y) :
    Keeps supply (if c then (do if ← hasFired t s then x else y) else y) := by
  split
  · exact .ifFired (fun _ => rfl) hx hy
  · exact hy

theorem spares_nextForView (i : Nat) : Spares (nextForView i) := by
  refine .bind .get fun n => ?_
  split
  · refine .bind .get fun n => ?_
    split
    · dsimp only
      split
      · refine .ifFired (fun _ => rfl) (.pure _) (.ifMattersFired (.pure _) ?_)
        split
        · exact .bind spares_spend fun _ => .bind (fun _ => rfl) fun _ => .pure _
        · refine .bind (spares_await _ _) fun _ => .bind (spares_nextWithin _ _ _) fun polled => ?_
          split <;> exact .pure _
      · exact spares_answer? fun _ => rfl
      · exact spares_answer? fun _ => rfl
      · exact spares_answer? fun _ => rfl
      · exact spares_answer? fun _ => rfl
      · refine .bind .get fun n => ?_
        split
        · exact .bind (schedules_hasFired _ _).spares fun fired => .pure _
        · exact .pure _
      · exact .pure _
    · exact .pure _
  · exact .pure _

theorem spares_actForView (i : Nat) (v : ViewTask) (a : View.Action) : Spares (actForView i v a) := by
  cases a with
  | readParent =>
      refine .bind .get fun n => ?_
      split
      · exact spares_ask _ _ _
      · exact .pure _
  | ask r => exact spares_ask _ _ _
  | fireReady => exact spares_fire _
  | offer events =>
      exact .forIn fun e _ _ => .bind (.bind (spares_writeWith _ _ _) fun _ => .pure _) fun _ => .pure _
  | shutDown =>
      refine .bind (schedules_schedule _).spares fun _ => .bind (spares_fire _) fun _ =>
        .bind .get fun n => ?_
      have hrest : Spares (do
          discard <| Source.drop (.subscription v.parent)
          closeFeed v.feed) :=
        .bind (.bind (spares_drop _) fun _ => .pure _) fun _ => spares_closeFeed _
      split
      · exact .bind (spares_fire _) fun _ => hrest
      · exact hrest
  | fireDone => exact .bind (spares_finish _) fun _ => spares_fire _

theorem spares_runView (i : Nat) : Spares (runView i) := by
  refine spares_drive (spares_nextForView i) (fun input => .bind .get fun n => ?_) _
  split
  · exact .bind (fun _ => rfl) fun _ => .forIn fun a _ _ =>
      .bind (spares_actForView _ _ a) fun _ => .pure _
  · exact .pure _

theorem spares_nextForObserver (i : Nat) : Spares (nextForObserver i) := by
  refine .bind .get fun n => ?_
  split
  · refine .bind .get fun n => ?_
    split
    · split
      · exact .ifFired (fun _ => rfl) (.pure _) (.ifFired (fun _ => rfl) (.pure _)
          (.bind (schedules_hasFired _ _).spares fun fired => .pure _))
      · exact spares_answer? fun _ => rfl
      · refine .ifFired (fun _ => rfl) (.pure _) ?_
        refine .bind (spares_nextWithin _ _ _) fun polled => ?_
        split <;> exact .pure _
      · exact .pure _
    · exact .pure _
  · exact .pure _

theorem spares_actForObserver (i : Nat) (o : ObserverTask) (a : Observer.Action) :
    Spares (actForObserver i o a) := by
  cases a with
  | read =>
      refine .bind .get fun n => ?_
      split
      · exact spares_ask _ _ _
      · exact .pure _
  | call c =>
      rw [actForObserver]
      split
      · exact fun _ => rfl
      · exact .pure _
  | finish =>
      exact .bind (spares_finish _) fun _ => .bind (.bind (spares_drop _) fun _ => .pure _) fun _ =>
        spares_fire _

theorem spares_runObserver (i : Nat) : Spares (runObserver i) := by
  refine spares_drive (spares_nextForObserver i) (fun input => .bind .get fun n => ?_) _
  split
  · exact .bind (fun _ => rfl) fun _ => .forIn fun a _ _ =>
      .bind (spares_actForObserver _ _ a) fun _ => .pure _
  · exact .pure _

/-! ### The coordinator -/

theorem keeps_takeResult : Keeps listening takeResult := by
  refine .bind .get fun n => ?_
  split
  · exact .pure _
  split
  · exact .bind (fun _ => rfl) fun _ => .bind (spares_occur _).listening fun _ => .pure _
  · exact .pure _

theorem Maintains.reading {P : Network → Prop} {t : TaskId} {o : Occasion} {read : Net (Polled α)}
    (hP : IsOfData P) (hread : Maintains P read) : Maintains P (reading t o read) :=
  fun n hn => hP _ _ (run_reading t o read n).2 (hread n hn)

section coordinator

variable {P : Network → Prop} (hP : IsOfData P) (hspares : ∀ {β : Type} {x : Net β}, Spares x → Maintains P x)
  (hfollower : ∀ {change : FollowerTask → FollowerTask}, (∀ f, (change f).follower = f.follower) →
    (∀ f, (change f).deadline = f.deadline) → Maintains P (modifyFollower change))

include hP hspares hfollower

theorem maintains_nextForCoordinator (htake : Maintains P takeResult) (hread : Maintains P readFollower) :
    Maintains P nextForCoordinator := by
  refine .get fun n hn => ?_
  split
  · rename_i c _
    have hanswer : Spares (answer? .coordinator c.keeper c.reply
        (modifyCoordinator fun c => { c with reply := none }) .refused
        (Coordinator.Input.applied ·.eventList)) := spares_answer? fun _ => rfl
    split
    · refine Maintains.bind (hspares (schedules_hasFired _ _).spares) (fun fired => ?_) n hn
      split
      · exact .pure _
      refine .bind (.reading hP htake) fun polled => ?_
      split
      · exact .pure _
      · exact .pure _
      refine .bind (.reading hP hread) fun polled => ?_
      split <;> exact .pure _
    · exact hspares hanswer n hn
    · exact hspares hanswer n hn
    · split
      · exact hspares spares_spend n hn
      · exact hn
    · refine hspares (.ifFired (fun _ => rfl) (.pure _) (.bind (spares_writeWith _ _ _) fun pushed => ?_)) n hn
      split
      · exact .bind spares_spend fun _ => .pure _
      · exact .bind (spares_await _ _) fun _ => .pure _
      · exact .pure _
    · refine Maintains.get (fun n hn => ?_) n hn
      split
      · exact hn
      split
      · refine Maintains.bind (hspares spares_spend) (fun _ => .bind ?_ fun _ => .pure _) n hn
        exact hfollower (fun _ => rfl) fun _ => rfl
      split
      · exact hn
      · exact hspares (spares_await _ _) n hn
    · refine Maintains.get (fun n hn => ?_) n hn
      split
      · exact hspares (schedules_hasFired _ _).spares n hn
      · exact hn
    · exact hn
  · exact hn

omit hP in
theorem maintains_actForCoordinator (c : CoordinatorTask) (a : Coordinator.Action) :
    Maintains P (actForCoordinator c a) := by
  cases a with
  | ask r => exact hspares (spares_ask _ _ _)
  | fireReady => exact hspares (spares_fire _)
  | reset version =>
      exact .bind (hfollower (fun _ => rfl) fun _ => rfl) fun _ => hspares (spares_occur _)
  | shutDown =>
      exact hspares (.bind (schedules_schedule _).spares fun _ => .bind (spares_fire _) fun _ =>
        spares_closeFeed _)
  | fireDone => exact hspares (.bind (spares_finish _) fun _ => spares_fire _)

/-- Of the side of the server the coordinator takes results of listings, reads the output of the follower, and
makes notes for the follower. -/
theorem maintains_runCoordinator (htake : Maintains P takeResult) (hread : Maintains P readFollower) :
    Maintains P runCoordinator := by
  refine .drive hP (maintains_nextForCoordinator hP hspares hfollower htake hread)
    (fun input => .get fun n hn => ?_) _
  split
  · exact Maintains.bind (hspares fun _ => rfl)
      (fun _ => .forIn fun a _ _ => .bind (maintains_actForCoordinator hspares hfollower _ a) fun _ => .pure _) n hn
  · exact hn

end coordinator

end Network

end Replica
