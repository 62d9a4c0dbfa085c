import Replica.Follower
import Replica.Session
import Replica.Proofs.Feed
import Replica.Proofs.Follower.Trace

/-! # A follower with its sessions and its readers

A `Pursuit` is a follower with all that it works on: the sessions that it has opened, each with what its
stream has given and nobody has read yet, and the outputs that it has handed out, of which only the last
is still written.  A `Move` is what can happen next.  Sessions hear from their streams, end, and are
left; a reset can come at any time; the readers of the outputs read when they want or let go.

`turn` says what a move does and what is seen of it, and `Change` is its inversion (`change_turn`). -/

namespace Replica

/-- A session that was opened, with the version that it began at. -/
structure Watch where
  version : String
  session : Session

/-- A follower with its sessions and its readers. -/
structure Pursuit where
  follower : Follower
  /-- The sessions in the order of their opening. -/
  watches : List Watch
  /-- For each reset what the follower had for an output until then. -/
  past : List (Option (Feed Event))

namespace Pursuit

/-- What can happen. -/
inductive Move where
  /-- A reset to a version reaches the follower, and whether somebody still waits for it. -/
  | reset (version : String) (isAwaited : Bool)
  /-- A session takes a signal of its stream. -/
  | signal (session : Nat) (s : StreamSignal)
  /-- The follower takes the next event of its session, or learns that it has ended. -/
  | take
  /-- The delay before the next attempt is over. -/
  | elapse
  /-- The follower is stopped. -/
  | cancel
  /-- The next event of an output is read. -/
  | read (output : Nat)
  /-- The reader of an output lets go of it. -/
  | release (output : Nat)

/-- Whether the move is a reset that somebody waits for. -/
def Move.isReset : Move → Bool
  | .reset _ isAwaited => isAwaited
  | _ => false

/-- A follower that waits for its first reset. -/
def start (reconnect : Reconnect) (capacity : Nat) : Pursuit := ⟨.new reconnect capacity, [], []⟩

/-- The session that the follower has, with its number. -/
def live? (p : Pursuit) : Option (Nat × Session) :=
  p.follower.session.bind fun i => p.watches[i]?.map fun w => (i, w.session)

/-- An output, as long as it can be read: the last one is with the follower. -/
def output? (p : Pursuit) (j : Nat) : Option (Feed Event) :=
  if j = p.past.length then p.follower.output else p.past[j]?.join

/-- The events that wait in an output. -/
def waitingOn (p : Pursuit) (j : Nat) : List Event := (p.output? j).elim [] Feed.items

/-- The follower is told something. -/
def tell (p : Pursuit) (i : Follower.Input) : Pursuit := { p with follower := p.follower.step i }

/-- The session that the follower has just opened begins. -/
def launch (p : Pursuit) : Pursuit :=
  { p with watches := p.watches ++ [⟨p.follower.version, .new p.follower.capacity⟩] }

/-- A session changes. -/
def onSession (p : Pursuit) (i : Nat) (f : Session → Session) : Pursuit :=
  { p with watches := p.watches.modify i fun w => { w with session := f w.session } }

/-- An output is read once. -/
def readOutput (p : Pursuit) (j : Nat) : Pursuit :=
  if j = p.past.length then { p with follower := p.follower.next.1 }
  else { p with past := p.past.modify j (·.map fun out => out.poll.1) }

/-- The reader of an output leaves. -/
def releaseOutput (p : Pursuit) (j : Nat) : Pursuit :=
  if j = p.past.length then
    { p with follower := { p.follower with output := p.follower.output.map Feed.abandon } }
  else { p with past := p.past.modify j fun _ => none }

/-- A move, with what is seen of it; a move that is not possible changes nothing.  A follower that has
stopped takes no part any more. -/
def turn (p : Pursuit) : Move → Pursuit × List Mark
  | .reset version isAwaited =>
    if p.follower.isStopped then (p, [])
    else if isAwaited then
      ({ (p.tell (.reset version true)).launch with
          past := p.past ++ [p.follower.output.map Feed.close] },
        [.reset version, .opened p.follower.opened version false])
    else (p.tell (.reset version false), [])
  | .signal i s => (p.onSession i (·.receive s), [])
  | .take =>
    match p.live? with
    | none => (p, [])
    | some (i, s) =>
      match s.poll with
      | (s, .item e) =>
        ((p.onSession i fun _ => s).tell (.event e),
          [.received ⟨i, e, (p.waitingOn p.past.length).length⟩])
      | (_, .ended) => (p.tell .sessionEnded, [])
      | (_, .pending) => (p, [])
  | .elapse =>
    if p.follower.isStopped then (p, [])
    else if p.follower.retry.isSome then
      ((p.tell .retryElapsed).launch, [.opened p.follower.opened p.follower.version true])
    else (p, [])
  | .cancel => if p.follower.isStopped then (p, []) else (p.tell .cancel, [])
  | .read j =>
    match p.output? j with
    | none => (p, [])
    | some out =>
      if out.isAbandoned then (p, [])
      else (p.readOutput j, out.poll.2.item?.toList.map (.delivered j))
  | .release j =>
    match p.output? j with
    | none => (p, [])
    | some _ => (p.releaseOutput j, [.released j])

/-- What a move does. -/
def step (p : Pursuit) (m : Move) : Pursuit := (p.turn m).1

/-- What is seen of a move. -/
def marks (p : Pursuit) (m : Move) : List Mark := (p.turn m).2

/-- Several moves in order. -/
def after (p : Pursuit) (moves : List Move) : Pursuit := moves.foldl step p

/-- What is seen of several moves. -/
def trace (p : Pursuit) : List Move → List Mark
  | [] => []
  | m :: moves => p.marks m ++ (p.step m).trace moves

theorem after_append (p : Pursuit) (as bs : List Move) :
    p.after (as ++ bs) = (p.after as).after bs :=
  List.foldl_append

theorem trace_append (p : Pursuit) (as bs : List Move) :
    p.trace (as ++ bs) = p.trace as ++ (p.after as).trace bs := by
  induction as generalizing p with
  | nil => rfl
  | cons m as ih =>
      rw [List.cons_append, trace, trace, ih, List.append_assoc]
      rfl

/-! ### What the moves do -/

/-- What a move does, if anything, and what is seen of it. -/
inductive Change (p : Pursuit) (m : Move) : Pursuit → List Mark → Prop
  | still : Change p m p []
  | reset (version : String) (running : p.follower.isStopped = false) (asked : m.isReset = true) :
      Change p m
        { follower :=
            { p.follower with
              version
              session := some p.follower.opened
              opened := p.follower.opened + 1
              output := some (.new p.follower.capacity)
              retry := none
              attempt := 0 }
          watches := p.watches ++ [⟨version, .new p.follower.capacity⟩]
          past := p.past ++ [p.follower.output.map Feed.close] }
        [.reset version, .opened p.follower.opened version false]
  | signal (i : Nat) (s : StreamSignal) : Change p m (p.onSession i (·.receive s)) []
  | event {i : Nat} {e : Event} (s : Session) (live : p.follower.session = some i) :
      Change p m
        { p.onSession i (fun _ => s) with
          follower :=
            { p.follower with
              attempt := 0
              version := e.object.metadata.version
              output := p.follower.output.bind (Follower.passOn e) } }
        [.received ⟨i, e, (p.waitingOn p.past.length).length⟩]
  | ended {i : Nat} {d : Duration} (live : p.follower.session = some i)
      (allowed : p.follower.reconnect.allows p.follower.attempt = true)
      (delay : p.follower.reconnect.delay? p.follower.attempt = some d) :
      Change p m
        { p with
          follower :=
            { p.follower with
              session := none
              retry := some p.follower.attempt
              attempt := min (p.follower.attempt + 1) Follower.attemptLimit } }
        []
  | exhausted {i : Nat} (live : p.follower.session = some i)
      (refused : p.follower.reconnect.allows p.follower.attempt = false) :
      Change p m { p with follower := { p.follower with session := none } } []
  | elapse {a : Nat} (running : p.follower.isStopped = false) (pending : p.follower.retry = some a) :
      Change p m
        { p with
          follower :=
            { p.follower with
              session := some p.follower.opened
              opened := p.follower.opened + 1
              retry := none }
          watches := p.watches ++ [⟨p.follower.version, .new p.follower.capacity⟩] }
        [.opened p.follower.opened p.follower.version true]
  | stop (reason : m = .cancel ∨ p.follower.reconnect.delay? p.follower.attempt = none) :
      Change p m { p with follower := p.follower.stop } []
  | read {j : Nat} {out : Feed Event} (held : p.output? j = some out) (isRead : out.isAbandoned = false) :
      Change p m (p.readOutput j) (out.poll.2.item?.toList.map (.delivered j))
  | release {j : Nat} {out : Feed Event} (held : p.output? j = some out) :
      Change p m (p.releaseOutput j) [.released j]

theorem session_of_live? {p : Pursuit} {i : Nat} {s : Session} (h : p.live? = some (i, s)) :
    p.follower.session = some i := by
  obtain ⟨k, hk, hw⟩ := Option.bind_eq_some_iff.1 h
  obtain ⟨w, -, heq⟩ := Option.map_eq_some_iff.1 hw
  rw [hk, (Prod.mk.inj heq).1]

/-- When the session has ended there are three ways to go on. -/
theorem change_sessionEnded {p : Pursuit} {i : Nat} (live : p.follower.session = some i) (m : Move) :
    p.Change m (p.tell .sessionEnded) [] := by
  rw [tell, Follower.step]
  split
  · rename_i allowed
    split
    · rename_i d delay
      exact .ended live allowed delay
    · rename_i delay
      exact .stop (.inr delay)
  · rename_i refused
    exact .exhausted live (by simpa using refused)

/-- Every move is one of the changes. -/
theorem change_turn (p : Pursuit) (m : Move) : p.Change m (p.step m) (p.marks m) := by
  cases m with
  | reset version isAwaited =>
      rw [step, marks, turn]
      split
      · exact .still
      · rename_i running
        split
        · rename_i asked
          exact .reset version (by simpa using running) asked
        · exact .still
  | signal i s => exact .signal i s
  | take =>
      rw [step, marks, turn]
      split
      · exact .still
      · rename_i i s hlive
        split
        · exact .event _ (session_of_live? hlive)
        · exact change_sessionEnded (session_of_live? hlive) _
        · exact .still
  | elapse =>
      rw [step, marks, turn]
      split
      · exact .still
      · rename_i running
        split
        · rename_i pending
          obtain ⟨a, ha⟩ := Option.isSome_iff_exists.1 pending
          exact .elapse (by simpa using running) ha
        · exact .still
  | cancel =>
      rw [step, marks, turn]
      split
      · exact .still
      · exact .stop (.inl rfl)
  | read j =>
      rw [step, marks, turn]
      split
      · exact .still
      · rename_i out hout
        split
        · exact .still
        · rename_i isRead
          exact .read hout (by simpa using isRead)
  | release j =>
      rw [step, marks, turn]
      split
      · exact .still
      · rename_i out hout
        exact .release hout

/-- **What holds at the start and is kept by every change holds after any moves**, of where they have led
together with what was seen of them. -/
theorem run_induction (P : List Mark → Pursuit → Prop) {p : Pursuit} (h : P [] p)
    (hkept : ∀ t p m p' marks, P t p → p.Change m p' marks → P (t ++ marks) p') (moves : List Move) :
    P (p.trace moves) (p.after moves) := by
  suffices hgeneral : ∀ (t : List Mark) (p : Pursuit), P t p →
      P (t ++ p.trace moves) (p.after moves) from hgeneral [] p h
  induction moves with
  | nil =>
      intro t p h
      rwa [trace, List.append_nil]
  | cons m moves ih =>
      intro t p h
      rw [trace, ← List.append_assoc]
      exact ih _ _ (hkept t p m _ _ h (p.change_turn m))

/-! ### Outputs -/

theorem output?_self (p : Pursuit) : p.output? p.past.length = p.follower.output := if_pos rfl

theorem output?_of_ne {p : Pursuit} {j : Nat} (h : j ≠ p.past.length) :
    p.output? j = p.past[j]?.join := if_neg h

theorem waitingOn_of_some {p : Pursuit} {j : Nat} {out : Feed Event} (h : p.output? j = some out) :
    p.waitingOn j = out.items := by
  rw [waitingOn, h]
  rfl

theorem readOutput_eq (p : Pursuit) (j : Nat) :
    ∃ output past, p.readOutput j = { p with follower := { p.follower with output }, past } := by
  rw [readOutput]
  split
  · refine ⟨p.follower.next.1.output, p.past, ?_⟩
    unfold Follower.next
    split
    · rfl
    · split <;> rfl
  · exact ⟨p.follower.output, _, rfl⟩

theorem releaseOutput_eq (p : Pursuit) (j : Nat) :
    ∃ output past, p.releaseOutput j = { p with follower := { p.follower with output }, past } := by
  rw [releaseOutput]
  split
  · exact ⟨_, p.past, rfl⟩
  · exact ⟨p.follower.output, _, rfl⟩

end Pursuit

end Replica
