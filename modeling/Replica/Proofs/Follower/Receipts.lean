import Mathlib.Data.List.Induction
import Replica.Proofs.Follower.Isolation
import Replica.Proofs.Follower.Run
import Replica.Proofs.Session.Reception

/-! # What a follower receives from its sessions

Each session of a follower is a `Reception` with the follower for its reader: its stream gives
signals, and the follower asks as long as it is the live one.  So what a follower has received from a
session is what that session has forwarded (`Pursuit.forwards_receipts`), and the sessions of a
network are sessions of that kind at any time (`Network.exists_forwards`). -/

namespace Replica

/-- The event that is received from the session `i`. -/
def Mark.receivedFrom? (i : Nat) : Mark → Option Event
  | .received a => if a.session = i then some a.event else none
  | _ => none

theorem Follower.capacity_step (f : Follower) (i : Follower.Input) :
    (f.step i).capacity = f.capacity := by
  cases i with
  | reset version isAwaited => cases isAwaited <;> rfl
  | sessionEnded =>
      rw [Follower.step]
      split
      · split <;> rfl
      · rfl
  | event | retryElapsed | cancel => rfl

namespace Pursuit

variable {p : Pursuit} {t : List Mark} {room : Nat}

/-- The session of a number; one that was not opened yet is as a new one. -/
def sessionAt (room : Nat) (p : Pursuit) (i : Nat) : Session :=
  (p.watches[i]?.map (·.session)).getD (.new room)

/-- What was received from a session, and how the session stands, comes of some moves of it. -/
def Receives (room : Nat) (t : List Mark) (p : Pursuit) : Prop :=
  ∀ i, ∃ stream r, Reception.Sound room stream r ∧ r.session = p.sessionAt room i ∧
    t.filterMap (Mark.receivedFrom? i) = r.received

theorem Receives.of_same (h : Receives room t p) {p' : Pursuit} {u : List Mark}
    (same : ∀ i, p'.sessionAt room i = p.sessionAt room i)
    (quiet : ∀ i, u.filterMap (Mark.receivedFrom? i) = []) : Receives room (t ++ u) p' := by
  intro i
  obtain ⟨stream, r, hr, hsession, hreceived⟩ := h i
  refine ⟨stream, r, hr, hsession.trans (same i).symm, ?_⟩
  rw [List.filterMap_append, quiet, List.append_nil, hreceived]

/-- A session makes a move, and what the follower receives with it is what the move finds. -/
theorem Receives.move (h : Receives room t p) {i : Nat} (m : Reception.Move) {p' : Pursuit}
    {u : List Mark} (own : ∀ r : Reception, r.session = p.sessionAt room i →
      (r.step m).session = p'.sessionAt room i ∧
        (r.step m).received = r.received ++ u.filterMap (Mark.receivedFrom? i))
    (others : ∀ j ≠ i, p'.sessionAt room j = p.sessionAt room j ∧
      u.filterMap (Mark.receivedFrom? j) = []) : Receives room (t ++ u) p' := by
  intro j
  obtain ⟨stream, r, hr, hsession, hreceived⟩ := h j
  rw [List.filterMap_append, hreceived]
  by_cases hj : j = i
  · subst hj
    obtain ⟨hmoved, hfound⟩ := own r hsession
    exact ⟨_, r.step m, hr.step m, hmoved, hfound.symm⟩
  · obtain ⟨hsame, hquiet⟩ := others j hj
    exact ⟨stream, r, hr, hsession.trans hsame.symm, by rw [hquiet, List.append_nil]⟩

theorem sessionAt_launch (hroom : p.follower.capacity = room) (i : Nat) :
    p.launch.sessionAt room i = p.sessionAt room i := by
  rw [sessionAt, sessionAt, launch, List.getElem?_append]
  split
  · rfl
  · rename_i hlt
    rw [List.getElem?_eq_none (Nat.not_lt.1 hlt), hroom]
    cases i - p.watches.length <;> rfl

theorem sessionAt_onSession {i : Nat} {w : Watch} (hw : p.watches[i]? = some w)
    (f : Session → Session) (j : Nat) :
    (p.onSession i f).sessionAt room j = if j = i then f w.session else p.sessionAt room j := by
  rw [sessionAt, sessionAt, onSession, List.getElem?_modify]
  split
  · rename_i hi
    rw [if_pos hi.symm, ← hi, hw]
    rfl
  · rename_i hi
    rw [if_neg (Ne.symm hi)]
    simp

theorem onSession_of_none {i : Nat} (hnone : p.watches[i]? = none) (f : Session → Session) :
    p.onSession i f = p := by
  have hsame : p.watches.modify i (fun w => { w with session := f w.session }) = p.watches := by
    refine List.ext_getElem? fun j => ?_
    rw [List.getElem?_modify]
    by_cases hj : i = j
    · subst hj
      rw [hnone]
      rfl
    · simp [hj]
  rw [onSession, hsame]

theorem sessionAt_of_live? {i : Nat} {s : Session} (h : p.live? = some (i, s)) :
    ∃ w, p.watches[i]? = some w ∧ w.session = s := by
  obtain ⟨k, -, hw⟩ := Option.bind_eq_some_iff.1 h
  obtain ⟨w, hwatch, heq⟩ := Option.map_eq_some_iff.1 hw
  obtain ⟨rfl, rfl⟩ := Prod.mk.inj heq
  exact ⟨w, hwatch, rfl⟩

theorem sessionAt_of_watch {i : Nat} {w : Watch} (hw : p.watches[i]? = some w) :
    p.sessionAt room i = w.session := by
  rw [sessionAt, hw]
  rfl

/-! ### Every move is one of a session or of none -/

theorem Receives.signal (h : Receives room t p) (i : Nat) (x : StreamSignal) :
    Receives room (t ++ p.marks (.signal i x)) (p.step (.signal i x)) := by
  rw [Pursuit.step, marks, turn]
  cases hw : p.watches[i]? with
  | none => exact h.of_same (fun j => by rw [onSession_of_none hw]) fun _ => rfl
  | some w =>
      refine h.move (i := i) (.signal x) (fun r hr => ?_) fun j hj => ?_
      · rw [sessionAt_onSession hw, if_pos rfl, ← sessionAt_of_watch hw, ← hr]
        exact ⟨rfl, (List.append_nil _).symm⟩
      · rw [sessionAt_onSession hw, if_neg hj]
        exact ⟨rfl, rfl⟩

theorem Receives.take (h : Receives room t p) :
    Receives room (t ++ p.marks .take) (p.step .take) := by
  rw [Pursuit.step, marks, turn]
  split
  · exact h.of_same (fun _ => rfl) fun _ => rfl
  · rename_i i s hlive
    obtain ⟨w, hw, rfl⟩ := sessionAt_of_live? hlive
    split
    · rename_i left e hpoll
      refine h.move (i := i) .poll (fun r hr => ?_) fun j hj => ?_
      · have hfound : r.session.poll = (left, .item e) := by rw [hr, sessionAt_of_watch hw, hpoll]
        refine ⟨(congrArg Prod.fst hfound).trans ?_, ?_⟩
        · exact ((sessionAt_onSession hw (fun _ => left) i).trans (if_pos rfl)).symm
        · rw [r.received_step_poll, hfound]
          simp [Mark.receivedFrom?, Polled.item?]
      · refine ⟨(sessionAt_onSession hw (fun _ => left) j).trans (if_neg hj), ?_⟩
        simp [Mark.receivedFrom?, Ne.symm hj]
    · exact h.of_same (fun _ => rfl) fun _ => rfl
    · exact h.of_same (fun _ => rfl) fun _ => rfl

/-- **Every move of the follower keeps it.** -/
theorem Receives.step (h : Receives room t p) (hroom : p.follower.capacity = room) (m : Move) :
    Receives room (t ++ p.marks m) (p.step m) := by
  have htold : ∀ i : Follower.Input, (p.tell i).follower.capacity = room := fun i =>
    (p.follower.capacity_step i).trans hroom
  cases m with
  | signal i x => exact h.signal i x
  | take => exact h.take
  | reset version isAwaited =>
      rw [Pursuit.step, marks, turn]
      split
      · exact h.of_same (fun _ => rfl) fun _ => rfl
      · split
        · exact h.of_same (sessionAt_launch (htold _)) fun _ => rfl
        · exact h.of_same (fun _ => rfl) fun _ => rfl
  | elapse =>
      rw [Pursuit.step, marks, turn]
      split
      · exact h.of_same (fun _ => rfl) fun _ => rfl
      · split
        · exact h.of_same (sessionAt_launch (htold _)) fun _ => rfl
        · exact h.of_same (fun _ => rfl) fun _ => rfl
  | cancel =>
      rw [Pursuit.step, marks, turn]
      split <;> exact h.of_same (fun _ => rfl) fun _ => rfl
  | read j =>
      rw [Pursuit.step, marks, turn]
      split
      · exact h.of_same (fun _ => rfl) fun _ => rfl
      · rename_i out _
        split
        · exact h.of_same (fun _ => rfl) fun _ => rfl
        · obtain ⟨output, past, hread⟩ := p.readOutput_eq j
          refine h.of_same (fun i => by rw [hread]; rfl) fun i => ?_
          cases out.poll.2.item? <;> rfl
  | release j =>
      rw [Pursuit.step, marks, turn]
      split
      · exact h.of_same (fun _ => rfl) fun _ => rfl
      · obtain ⟨output, past, hreleased⟩ := p.releaseOutput_eq j
        exact h.of_same (fun i => by rw [hreleased]; rfl) fun _ => rfl

theorem receives_after (reconnect : Reconnect) (capacity : Nat) (moves : List Move) :
    Receives (max capacity 1) ((start reconnect capacity).trace moves)
      ((start reconnect capacity).after moves) := by
  induction moves using List.reverseRecOn with
  | nil =>
      have hnew := Reception.sound_new (max capacity 1)
      rw [Nat.max_eq_left (Nat.le_max_right capacity 1)] at hnew
      exact fun i => ⟨[], _, hnew, rfl, rfl⟩
  | append_singleton moves m ih =>
      have hmarks : ∀ p : Pursuit, p.trace [m] = p.marks m := fun p => List.append_nil _
      rw [trace_append, after_append, hmarks]
      exact ih.step (sound_after reconnect capacity moves).outlet.width m

/-- **What a follower has received from a session, that session has forwarded.** -/
theorem forwards_receipts (reconnect : Reconnect) (capacity : Nat) (moves : List Move) (i : Nat) :
    ∃ stream r, Reception.Forwards (max capacity 1) stream r ∧
      r.session = ((start reconnect capacity).after moves).sessionAt (max capacity 1) i ∧
      ((start reconnect capacity).trace moves).filterMap (Mark.receivedFrom? i) = r.received := by
  obtain ⟨stream, r, hr, hsession, hreceived⟩ := receives_after reconnect capacity moves i
  exact ⟨stream, r, hr.forwards, hsession, hreceived⟩

end Pursuit

/-- **The sessions of a network forward what they should**, however long it has run. -/
theorem Network.exists_forwards {n : Network} {reconnect : Reconnect} {capacity i : Nat}
    (h : IsLed (.start reconnect capacity) n) {s : SessionTask} (hs : n.sessions[i]? = some s) :
    ∃ stream r, Reception.Forwards (max capacity 1) stream r ∧ r.session = s.session := by
  obtain ⟨moves, f, sessions, hl, hd⟩ := h
  obtain ⟨stream, r, hr, hsession, -⟩ := Pursuit.forwards_receipts reconnect capacity moves i
  refine ⟨stream, r, hr, hsession.trans ?_⟩
  have hwatch : ((Pursuit.start reconnect capacity).after moves).watches[i]? = some s.watch := by
    have hsessions : n.sessions = sessions := congrArg Prod.snd hl
    rw [← hd.watches, List.getElem?_map, ← hsessions, hs]
    rfl
  rw [Pursuit.sessionAt, hwatch]
  rfl

end Replica
