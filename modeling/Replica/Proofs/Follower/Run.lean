import Replica.Network.Start
import Replica.Proofs.Follower.Turn

/-! # A pursuit in a running network

Whatever runs in a network, and for however long, does nothing to the pursuit that the network shows but
moves (`stable_isLed`).  The follower takes resets, events, ends of sessions and its delays, its sessions
take signals (`maintains_runSession`), the coordinator reads the output (`maintains_runCoordinator`), and
no other task has a part in it.  So what holds of a pursuit after any moves holds of the follower of a
network at any time. -/

namespace Replica

namespace Network

variable {n : Network} {p : Pursuit} {f : FollowerTask} {sessions : List SessionTask}

/-! ### Sessions -/

theorem listening_modifySession (hl : n.listening = (some f, sessions)) (i : Nat)
    (change : SessionTask → SessionTask) :
    ((modifySession i change).run n).2.listening = (some f, sessions.modify i change) := by
  obtain ⟨hf, hs⟩ := Prod.mk.inj hl
  rw [← hf, ← hs]
  rfl

theorem shows_updateSession {i : Nat} {s : SessionTask} (hl : n.listening = (some f, sessions))
    (hd : Depicts f sessions p) (hs : sessions[i]? = some s) (signal : StreamSignal) :
    ((updateSession i (s.session.receive signal)).run n).2.Shows (p.step (.signal i signal)) := by
  have hmodified := listening_modifySession hl i fun t => { t with session := s.session.receive signal }
  have hshown : Depicts f (sessions.modify i fun t => { t with session := s.session.receive signal })
      (p.onSession i (·.receive signal)) := hd.onSession hs rfl
  suffices Gives (updateSession i (s.session.receive signal)) n fun _ n' =>
      n'.Shows (p.step (.signal i signal)) from this
  have hfinish : Spares (if (s.session.receive signal).isOver then finish (.session i) else pure ()) := by
    split
    · exact spares_finish _
    · exact .pure _
  refine .get (.thenSpare ⟨f, _, hmodified, hshown⟩ fun _ => ?_)
  dsimp only
  split
  · exact .bind (spares_occur _) fun _ => hfinish
  · exact hfinish

theorem Depicts.connect {i : Nat} {s : SessionTask} (h : Depicts f sessions p)
    (hs : sessions[i]? = some s) (stream : Option Nat) :
    Depicts f (sessions.modify i fun t => { t with stream }) p := by
  have hsame : p.onSession i id = p := by
    change { p with watches := p.watches.modify i id } = p
    rw [List.modify_id]
  exact hsame ▸ h.onSession hs rfl

theorem maintains_actForSession (i : Nat) (input : SessionInput) :
    Maintains (IsLed p) (actForSession i input) := by
  refine .get fun n hn => ?_
  obtain ⟨moves, f, sessions, hl, hd⟩ := hn
  have hsessions : n.sessions = sessions := congrArg Prod.snd hl
  rw [hsessions]
  split
  · rename_i s hs
    split
    · have hclosed := fun n' h => isLed_concat (shows_updateSession (n := n') h hd hs .closed)
      split
      · exact hclosed _ hl
      · exact hclosed _ hl
    · generalize n.server.openWatch s.version n.now = opened
      obtain ⟨server, stream⟩ := opened
      have hserved : ({ n with server, sessions } : Network).listening = (some f, sessions) :=
        congrArg (fun l => (l.1, sessions)) hl
      have hl' := listening_modifySession hserved i fun t => { t with stream }
      have hd' := hd.connect hs stream
      cases stream with
      | none =>
          -- a watch that cannot be opened ends its session as a closed stream does
          have hs' : (sessions.modify i fun t => { t with stream := none })[i]? =
              some { s with stream := none } := getElem?_modify_of_some hs _
          exact isLed_concat (shows_updateSession hl' hd' hs' .closed)
      | some stream => exact ⟨moves, f, _, hl', hd'⟩
    · rename_i stream signal
      have htaken := fun n' h => isLed_concat (shows_updateSession (n := n') h hd hs signal)
      dsimp only
      split
      · exact htaken _ hl
      · exact htaken _ hl
  · exact ⟨moves, f, sessions, hl, hd⟩

/-- A session in its turn makes moves. -/
theorem maintains_runSession (i : Nat) : Maintains (IsLed p) (runSession i) :=
  .drive isOfData_isLed (fun n hn => by
    obtain ⟨moves, hn⟩ := hn
    exact ⟨moves, hn.of_listening ((spares_nextForSession i).listening n)⟩) (maintains_actForSession i) _

/-! ### The coordinator -/

theorem step_read (h : p.follower.IsRead) :
    p.step (.read p.past.length) = { p with follower := p.follower.next.1 } := by
  rw [Pursuit.step, Pursuit.turn, Pursuit.output?_self]
  cases hout : p.follower.output with
  | none =>
      have hnext : p.follower.next.1 = p.follower := by
        rw [Follower.next, hout]
      rw [hnext]
  | some out =>
      simp [h out hout, Pursuit.readOutput]

theorem shows_readFollower (hn : n.Shows p) :
    (readFollower.run n).2.Shows (p.step (.read p.past.length)) := by
  obtain ⟨f, sessions, hl, hd⟩ := hn
  have hf : n.follower = some f := congrArg Prod.fst hl
  rw [step_read hd.isRead]
  suffices Gives readFollower n fun _ n' =>
      n'.Shows { p with follower := p.follower.next.1 } from this
  refine .get ?_
  rw [hf]
  refine .modifyFollower hl fun n' h' => ⟨_, _, h', ?_⟩
  have hnext := Follower.next_eq p.follower
  exact
    { follower := by rw [hd.follower]; rfl
      watches := hd.watches
      opened := by rw [hnext]; exact hd.opened
      live := by rw [hnext]; exact hd.live
      due := by rw [hnext]; exact hd.due
      isRead := hd.isRead.next }

theorem maintains_modifyFollower {change : FollowerTask → FollowerTask}
    (follower : ∀ f, (change f).follower = f.follower)
    (deadline : ∀ f, (change f).deadline = f.deadline) :
    Maintains (IsLed p) (modifyFollower change) := by
  rintro n ⟨moves, f, sessions, hl, hd⟩
  suffices Gives (modifyFollower change >>= pure) n fun _ n' => n'.Shows (p.after moves) from
    ⟨moves, this⟩
  refine .modifyFollower hl fun n' h' => ⟨_, _, h', ?_⟩
  exact ⟨(follower f).trans hd.follower, hd.watches, hd.opened, hd.live,
    fun hdue => hd.due (deadline f ▸ hdue), hd.isRead⟩

theorem Keeps.isLed {α : Type} {x : Net α} (hx : Keeps listening x) : Maintains (IsLed p) x := by
  rintro n ⟨moves, hn⟩
  exact ⟨moves, hn.of_listening (hx n)⟩

theorem Spares.isLed {α : Type} {x : Net α} (hx : Spares x) : Maintains (IsLed p) x := hx.listening.isLed

theorem maintains_readFollower : Maintains (IsLed p) readFollower := by
  rintro n ⟨moves, hn⟩
  exact isLed_concat (shows_readFollower hn)

/-! ### All tasks -/

/-- **Whatever runs, and for however long, only makes moves.** -/
theorem stable_isLed (p : Pursuit) : Stable (IsLed p) where
  ofData := isOfData_isLed
  later n now hn := by
    obtain ⟨moves, hn⟩ := hn
    exact ⟨moves, hn.of_listening rfl⟩
  turn t := by
    cases t with
    | keeper i => exact (spares_runKeeper i).isLed
    | poller => exact keeps_runPoller.isLed
    | follower => exact maintains_runFollower
    | session i => exact maintains_runSession i
    | coordinator =>
        exact maintains_runCoordinator isOfData_isLed Spares.isLed maintains_modifyFollower
          keeps_takeResult.isLed maintains_readFollower
    | hub i => exact (spares_runHub i).isLed
    | view i => exact (spares_runView i).isLed
    | observer i => exact (spares_runObserver i).isLed

theorem maintains_requestReset (version : String) :
    Maintains (IsLed p) (requestReset version).run := by
  refine .run_bind (.lift (.get fun n hn => hn)) fun n => ?_
  split
  · exact .throw _
  · rename_i f _
    have hrest : Maintains (IsLed p) (do
        modifyFollower fun f => { f with inbox := some version, wasReset := false }
        occur .reset
        runUntil fun n => n.follower.all fun f => f.wasReset || f.follower.isStopped
        unless (← MonadState.get).follower.any (·.wasReset) do throw .notRunning : Op Unit).run := by
      refine .run_bind (.lift (maintains_modifyFollower (fun _ => rfl) fun _ => rfl)) fun _ => ?_
      refine .run_bind (.lift (spares_occur _).isLed) fun _ => ?_
      refine .run_bind (.lift ((stable_isLed p).runUntil _)) fun _ => ?_
      refine .run_bind (.lift (.get fun n hn => hn)) fun n => ?_
      split
      · exact .pure _
      · exact .throw _
    split
    · exact .run_bind (.throw _) fun _ => hrest
    · exact hrest

theorem shows_startFollower (hn : n.sessions = []) (reconnect : Reconnect) (capacity : Nat)
    (parent : ScopeId) :
    ((startFollower reconnect capacity parent).run n).2.Shows (.start reconnect capacity) := by
  refine ⟨_, [], Prod.ext rfl hn, rfl, rfl, rfl, ?_, ?_, ?_⟩
  · intro i hi
    cases hi
  · intro hdue
    cases hdue
  · intro out hout
    cases hout

/-- **However long a network runs after its follower was started, the follower has made moves of a
pursuit from its start.** -/
theorem isLed_startFollower_advance (hn : n.sessions = []) (reconnect : Reconnect) (capacity : Nat)
    (parent : ScopeId) (ms : Nat) :
    IsLed (.start reconnect capacity)
      ((do startFollower reconnect capacity parent; advance ms : Net Unit).run n).2 :=
  (stable_isLed _).advance ms _ (shows_startFollower hn reconnect capacity parent).isLed

end Network

end Replica
