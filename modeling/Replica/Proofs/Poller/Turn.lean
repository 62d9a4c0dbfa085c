import Replica.Network.Start
import Replica.Proofs.Network.Frame
import Replica.Proofs.Poller.Pacing

/-! # A poller in a running network

Whatever runs in a network, and for however long, its poller takes only inputs that can happen
(`stable_isPaced`): those that it finds in its turn (`possible_nextForPoller`), and those by which a result is
taken.  The server is asked for a listing when one is started, and at no other time.  So what is counted of any
run of a poller is what happens at the server (`Paced.bounds`). -/

namespace Replica

namespace Network

variable {n n' : Network} {t : PollerTask} {calls : List Nat} {inputs : List Poller.Input} {earlier : Nat}

/-- Some inputs have made of a new poller what it is, and with each start of a listing the server was asked for
one, after the `earlier` times. -/
structure Paced (earlier : Nat) (inputs : List Poller.Input) (t : PollerTask) (calls : List Nat) : Prop where
  run : Poller.new.after? inputs = some t.poller
  asked : calls.length = earlier + Poller.starts inputs

/-- The poller of the network has taken inputs that could happen. -/
def IsPaced (earlier : Nat) (n : Network) : Prop :=
  ∃ inputs t calls, n.polling = (some t, calls) ∧ Paced earlier inputs t calls

theorem Paced.isPaced (h : Paced earlier inputs t calls) (hn : n.polling = (some t, calls)) :
    IsPaced earlier n := ⟨inputs, t, calls, hn, h⟩

theorem isOfData_isPaced : IsOfData (IsPaced earlier) := by
  rintro n n' hdata ⟨inputs, t, calls, hn, h⟩
  exact h.isPaced ((polling_of_data hdata).trans hn)

theorem Keeps.isPaced {α : Type} {x : Net α} (hx : Keeps polling x) : Maintains (IsPaced earlier) x := by
  rintro n ⟨inputs, t, calls, hn, h⟩
  exact h.isPaced ((hx n).trans hn)

theorem Spares.isPaced {α : Type} {x : Net α} (hx : Spares x) : Maintains (IsPaced earlier) x :=
  hx.polling.isPaced

theorem Paced.step {i : Poller.Input} {t' : PollerTask} {calls' : List Nat} (h : Paced earlier inputs t calls)
    (hstep : t.poller.step i = some t'.poller)
    (hcalls : calls'.length = calls.length + if i.isStart then 1 else 0) :
    Paced earlier (inputs ++ [i]) t' calls' where
  run := by rw [Poller.after?_concat, h.run, Option.bind_some, hstep]
  asked := by rw [hcalls, h.asked, Poller.starts_concat, Nat.add_assoc]

/-- The poller of a network takes an input that is no start of a listing. -/
theorem Paced.modify {i : Poller.Input} {change : PollerTask → PollerTask} (h : Paced earlier inputs t calls)
    (hn : n.polling = (some t, calls)) (hstep : t.poller.step i = some (change t).poller)
    (hi : i.isStart = false) : IsPaced earlier ((modifyPoller change).run n).2 := by
  obtain ⟨hpoller, hcalls⟩ := Prod.mk.inj hn
  have hpaced : Paced earlier (inputs ++ [i]) (change t) calls := h.step hstep (by rw [hi]; rfl)
  refine hpaced.isPaced ?_
  change (n.poller.map _, n.server.listCalls) = _
  rw [hpoller, hcalls]
  rfl

/-- What is noted of a poller besides does not matter. -/
theorem maintains_modifyPoller {change : PollerTask → PollerTask} (poller : ∀ t, (change t).poller = t.poller) :
    Maintains (IsPaced earlier) (modifyPoller change) := by
  rintro n ⟨inputs, t, calls, hn, h⟩
  obtain ⟨hpoller, hcalls⟩ := Prod.mk.inj hn
  refine Paced.isPaced (t := change t) ⟨(poller t).symm ▸ h.run, h.asked⟩ ?_
  change (n.poller.map _, n.server.listCalls) = _
  rw [hpoller, hcalls]
  rfl

/-- **What the server is asked for.**  It has been asked for at most one listing more than results were taken, and
each listing is owed to the beginning, to the end of a period or to a token. -/
theorem Paced.bounds (h : Paced earlier inputs t calls) :
    calls.length ≤ earlier + Poller.takes inputs + 1 ∧
      calls.length ≤ earlier + 1 + Poller.expiries inputs + Poller.new.tokens inputs := by
  have htallied := Poller.tallied_after h.run
  have hasked := h.asked
  have hahead := htallied.ahead
  have hfounded := htallied.founded
  constructor <;> omega

/-! ### The poller -/

/-- What a poller finds to do in its turn can happen. -/
theorem possible_nextForPoller (hn : n.poller = some t) :
    Gives nextForPoller n fun input? _ => ∀ i, input? = some i → (t.poller.step i).isSome = true := by
  refine .get ?_
  rw [hn]
  dsimp only
  split
  · nofun
  rename_i running
  refine .seq (schedules_hasFired _ _) fun fired n₁ _ => ?_
  split
  · rintro _ ⟨⟩
    simp [Poller.step, running]
  split
  · rename_i free
    split
    · rename_i empty
      refine .seq schedules_spend fun _ _ _ => ?_
      rintro _ ⟨⟩
      simp [Poller.step, free, empty]
    · exact .seq (schedules_await _ _) fun _ _ _ => nofun
  · rename_i asked
    have hanswer : ∀ i, n.server.listing.map Poller.Input.answer = some i →
        (t.poller.step i).isSome = true := by
      intro i hi
      obtain ⟨r, -, rfl⟩ := Option.map_eq_some_iff.1 hi
      simp [Poller.step, asked]
    split
    · exact .seq (schedules_await _ _) fun _ _ _ => hanswer
    · exact hanswer
  · rename_i resting
    split
    · refine .seq schedules_spend fun _ _ _ => ?_
      rintro _ ⟨⟩
      simp [Poller.step, resting]
    split
    · rename_i there
      refine .seq schedules_spend fun _ _ _ => ?_
      rintro _ ⟨⟩
      simp [Poller.step, resting, there]
    · exact .seq (schedules_await _ _) fun _ _ _ => nofun
  · nofun

theorem maintains_runPoller : Maintains (IsPaced earlier) runPoller := by
  refine drive_induction isOfData_isPaced (fun n hn => ?_) _
  obtain ⟨inputs, t, calls, hn, h⟩ := hn
  have hpossible := possible_nextForPoller (congrArg Prod.fst hn)
  have hsame := (spares_nextForPoller.polling n).trans hn
  unfold Gives at hpossible ⊢
  generalize (nextForPoller.run n).1 = input?, (nextForPoller.run n).2 = n' at hpossible hsame ⊢
  cases input? with
  | none => exact h.isPaced hsame
  | some input =>
      intro n'' hdata
      have hn'' := (polling_of_data hdata).trans hsame
      have hstep : t.poller.step input = some ((t.poller.step input).getD t.poller) := by
        obtain ⟨p, hp⟩ := Option.isSome_iff_exists.1 (hpossible input rfl)
        rw [hp]
        rfl
      cases input with
      | start =>
          obtain ⟨hpoller, hcalls⟩ := Prod.mk.inj hn''
          have hpaced : Paced earlier (inputs ++ [.start])
              { t with poller := (t.poller.step .start).getD t.poller } (calls ++ [n''.now]) :=
            h.step hstep (by simp)
          refine hpaced.isPaced ?_
          change (n''.poller.map _, n''.server.listCalls ++ [n''.now]) = _
          rw [hpoller, hcalls]
          rfl
      | answer r =>
          have hnoted : Maintains (IsPaced earlier) (do
              modifyPoller fun t => { t with deadline := dueIn n''.now t.period }
              occur .result) :=
            .bind (maintains_modifyPoller fun _ => rfl) fun _ => (spares_occur _).isPaced
          exact hnoted _ (h.modify hn'' hstep rfl)
      | cancel =>
          exact (spares_finish _).isPaced.bind (fun _ => (spares_occur _).isPaced) _ (h.modify hn'' hstep rfl)
      | expire | spend | take | request => exact h.modify hn'' hstep rfl

/-- To take a result is an input that can happen. -/
theorem maintains_takeResult : Maintains (IsPaced earlier) takeResult := by
  refine .get fun n hn => ?_
  obtain ⟨inputs, t, calls, hn, h⟩ := hn
  have hpoller : n.poller = some t := congrArg Prod.fst hn
  rw [hpoller]
  dsimp only
  split
  · rename_i r there
    have hstep : t.poller.step .take = some ((t.poller.step .take).getD t.poller) := by
      simp [Poller.step, there]
    exact (spares_occur _).isPaced.bind (fun _ => .pure _) _ (h.modify hn hstep rfl)
  · exact h.isPaced hn

/-- So is to ask for a listing. -/
theorem maintains_requestListing : Maintains (IsPaced earlier) requestListing := by
  refine .get fun n hn => ?_
  obtain ⟨inputs, t, calls, hn, h⟩ := hn
  have hpoller : n.poller = some t := congrArg Prod.fst hn
  rw [hpoller]
  dsimp only
  split
  · exact h.isPaced hn
  · rename_i p hstep
    have htaken : IsPaced earlier ((modifyPoller fun t => { t with poller := p }).run n).2 :=
      h.modify hn hstep rfl
    have htold : Maintains (IsPaced earlier) (do
        if t.poller.token then return .full
        occur .token
        return .taken : Net Pushed) := by
      split
      · exact .pure _
      · exact (spares_occur _).isPaced.bind fun _ => .pure _
    exact htold _ htaken

/-! ### All tasks -/

theorem keeps_updateSession (i : Nat) (session : Session) : Keeps polling (updateSession i session) := by
  have hfinish : Keeps polling (if session.isOver then finish (.session i) else pure ()) := by
    split
    · exact (spares_finish _).polling
    · exact .pure _
  refine .bind .get fun n => .bind (fun _ => rfl) fun _ => ?_
  dsimp only
  split
  · exact .bind (spares_occur _).polling fun _ => hfinish
  · exact hfinish

theorem keeps_actForSession (i : Nat) (input : SessionInput) : Keeps polling (actForSession i input) := by
  intro n
  suffices Gives (actForSession i input) n fun _ n' => n'.polling = n.polling from this
  refine .get ?_
  split
  · split
    · split
      · exact (Keeps.bind (fun _ => rfl) fun _ => keeps_updateSession i _ : Keeps polling _) n
      · exact keeps_updateSession i _ n
    · dsimp only [Server.openWatch]
      split
      · rfl
      · rfl
    · dsimp only
      split
      · exact keeps_updateSession i _ _
      · exact keeps_updateSession i _ n
  · rfl

theorem keeps_endFollower : Keeps polling endFollower :=
  .bind (fun _ => rfl) fun _ => .bind (spares_finish _).polling fun _ => .bind (spares_occur _).polling fun _ =>
    (spares_occur _).polling

theorem keeps_nextForFollower : Keeps polling nextForFollower := by
  have hread : ∀ i, Keeps polling (readSession i) := by
    intro i
    refine .bind .get fun n => ?_
    split
    · exact .pure _
    · exact .bind (fun _ => rfl) fun _ => .pure _
  refine .bind .get fun n => ?_
  have hlast : ∀ f : FollowerTask, Keeps polling (do
      if f.deadline.any (· ≤ n.now) then
        spend
        return some Follower.Input.retryElapsed
      return none) := by
    intro f
    split
    · exact .bind spares_spend.polling fun _ => .pure _
    · exact .pure _
  split
  · exact .pure _
  split
  · exact .pure _
  refine .bind (schedules_hasFired _ _).spares.polling fun fired => ?_
  split
  · exact .pure _
  split
  · exact .bind spares_spend.polling fun _ => .pure _
  refine .bind (spares_await _ _).polling fun _ => ?_
  dsimp only
  split
  · refine .bind (.reading (fun _ => rfl) (hread _)) fun polled => ?_
    split
    · exact .pure _
    · exact .pure _
    · exact hlast _
  · exact hlast _

theorem keeps_actForFollower (input : Follower.Input) : Keeps polling (actForFollower input) := by
  refine .bind .get fun n => ?_
  split
  · refine .bind (fun _ => rfl) fun _ => ?_
    split
    · refine .bind (fun _ => rfl) fun _ => ?_
      split
      · exact .bind (fun _ => rfl) fun _ => .bind (spares_occur _).polling fun _ =>
          .bind (spares_occur _).polling fun _ => .bind (spares_leaveSession _).polling fun _ => fun _ => rfl
      · exact .pure _
    · split
      · exact (spares_occur _).polling
      · exact .pure _
    · refine .bind (spares_leaveSession _).polling fun _ => .bind (fun _ => rfl) fun _ => ?_
      split
      · exact keeps_endFollower
      · exact .pure _
    · exact .bind (fun _ => rfl) fun _ => fun _ => rfl
    · exact .bind (spares_leaveSession _).polling fun _ => keeps_endFollower
  · exact .pure _

theorem keeps_readFollower : Keeps polling readFollower := by
  refine .bind .get fun n => ?_
  split
  · exact .pure _
  · exact .bind (fun _ => rfl) fun _ => .pure _

/-- **Whatever runs, and for however long, the poller takes only inputs that can happen.** -/
theorem stable_isPaced (earlier : Nat) : Stable (IsPaced earlier) where
  ofData := isOfData_isPaced
  later _ _ hn := hn
  turn t := by
    cases t with
    | keeper i => exact (spares_runKeeper i).isPaced
    | poller => exact maintains_runPoller
    | follower =>
        exact (Keeps.drive (fun _ => rfl) keeps_nextForFollower keeps_actForFollower _).isPaced
    | session i =>
        exact (Keeps.drive (fun _ => rfl) (spares_nextForSession i).polling (keeps_actForSession i) _).isPaced
    | coordinator =>
        exact maintains_runCoordinator isOfData_isPaced Spares.isPaced (fun _ _ => Keeps.isPaced fun _ => rfl)
          maintains_takeResult keeps_readFollower.isPaced
    | hub i => exact (spares_runHub i).isPaced
    | view i => exact (spares_runView i).isPaced
    | observer i => exact (spares_runObserver i).isPaced

/-- **However long a network runs after its poller was started, the server has been asked for as many listings as
the poller has started.** -/
theorem isPaced_startPoller_advance (n : Network) (period : Duration) (parent : ScopeId) (ms : Nat) :
    IsPaced n.server.listCalls.length ((do startPoller period parent; advance ms : Net Unit).run n).2 := by
  refine (stable_isPaced _).advance ms _ ?_
  have hstart : ((startPoller period parent).run n).2.polling =
      (some ⟨.new, period.ceilMillis, 0, n.scopes.list.length⟩, n.server.listCalls) := rfl
  have hnew : Paced n.server.listCalls.length [] ⟨.new, period.ceilMillis, 0, n.scopes.list.length⟩
      n.server.listCalls := ⟨rfl, rfl⟩
  exact hnew.isPaced hstart

end Network

end Replica
