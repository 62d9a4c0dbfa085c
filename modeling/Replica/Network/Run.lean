import Replica.Network.Distribution
import Replica.Network.Listening

/-!
# Running a network

The task of the coordinator joins the others.  `settle` runs all tasks, round after round, until all of
them wait; `advance` lets time pass.
-/

namespace Replica.Network

/-! ### Coordinators -/

/-- The next input of the coordinator. -/
def nextForCoordinator : Net (Option Coordinator.Input) := do
  let self := TaskId.coordinator
  let some c := (← get).coordinator | return none
  match c.coordinator.phase with
  | .idle =>
    if ← hasFired self c.scope then return some .cancel
    match ← reading self .result takeResult with
    | .item r => return some (.listed r)
    | .ended => return some .ended
    | .pending =>
      match ← reading self .output readFollower with
      | .item e => return some (.event e)
      | .ended => return some .ended
      | .pending => return none
  | .syncing _ | .updating =>
    answer? self c.keeper c.reply (modifyCoordinator fun c => { c with reply := none }) .refused
      (.applied ·.eventList)
  | .feeding [] version =>
    if version.isSome then spend
    return some .allFed
  | .feeding (e :: _) _ =>
    if ← hasFired self c.scope then return some .cancel
    match ← push c.feed e with
    | .taken =>
      spend
      return some .fed
    | .full =>
      await self (.room c.feed)
      return none
    | .refused => return some .refused
  | .resetting =>
    match (← get).follower with
    | none => return some .refused
    | some f =>
      if f.wasReset then
        spend
        modifyFollower fun f => { f with wasReset := false }
        return some .wasReset
      if f.follower.isStopped then return some .refused
      await self .wasReset
      return none
  | .closing =>
    match (← get).hubs[c.hub]? with
    | some h => return if ← hasFired self h.done then some .hubStopped else none
    | none => return some .hubStopped
  | .closed => return none

/-- Does what the coordinator wants done. -/
def actForCoordinator (c : CoordinatorTask) : Coordinator.Action → Net Unit
  | .ask r => ask c.keeper .coordinator r
  | .fireReady => fire c.ready
  | .reset version => do
    modifyFollower fun f => { f with inbox := some version }
    occur .reset
  | .shutDown => do
    schedule (·.keepOnly .coordinator fun _ => false)
    fire c.scope
    closeFeed c.feed
  | .fireDone => do
    finish .coordinator
    fire c.done

/-- Runs the coordinator. -/
def runCoordinator : Net Unit :=
  drive .coordinator nextForCoordinator (fun input => do
    let some c := (← get).coordinator | return
    let (coordinator, actions) := c.coordinator.step input
    modifyCoordinator fun c => { c with coordinator }
    for a in actions do actForCoordinator c a) turnLimit

/-! ### All tasks -/

/-- Runs a task. -/
def run : TaskId → Net Unit
  | .keeper i => runKeeper i
  | .poller => runPoller
  | .follower => runFollower
  | .session i => runSession i
  | .coordinator => runCoordinator
  | .hub i => runHub i
  | .view i => runView i
  | .observer i => runObserver i

/-- Gives so many turns, as long as there are tasks that can go on. -/
def runTurns : Nat → Net Unit
  | 0 => return
  | turns + 1 => do
    let n ← get
    match n.executor.next? with
    | none => return
    | some (t, executor) =>
      set { n with executor }
      run t
      runTurns turns

/-- Runs a round. -/
def runRound : Net Unit := do
  runTurns Executor.roundLength
  schedule Executor.resume

/-- Runs at most so many rounds, until `isDone` or nobody can go on. -/
def runRounds (isDone : Network → Bool) : Nat → Net Unit
  | 0 => return
  | fuel + 1 => do
    let n ← get
    if isDone n || n.executor.isQuiet then return
    runRound
    runRounds isDone fuel

/-- How many rounds take place at one instant at most. -/
def instantLimit : Nat := 1000000

/-- Runs rounds until something has come about, or nobody can go on. -/
def runUntil (isDone : Network → Bool) : Net Unit := runRounds isDone instantLimit

/-- Runs until all tasks wait. -/
def settle : Net Unit := runUntil fun _ => false

/-! ### Time -/

/-- The tasks that wait for a time, with their times. -/
def deadlines : Net (List (Nat × TaskId)) := do
  let n ← get
  let ofPoller := match n.poller with
    | some p => if p.poller.phase = .resting then [(p.deadline, TaskId.poller)] else []
    | none => []
  let ofFollower := match n.follower with
    | some f => (f.deadline.map fun d => (d, TaskId.follower)).toList
    | none => []
  return ofPoller ++ ofFollower

/-- Lets time pass up to an instant, in as many steps as there are times that tasks wait for. -/
def advanceTo (target : Nat) : Nat → Net Unit
  | 0 => return
  | fuel + 1 => do
    settle
    let now := (← get).now
    let due := (← deadlines).filter fun d => now < d.1 && d.1 ≤ target
    match (due.map Prod.fst).min? with
    | none => modify fun n => { n with now := max n.now target }
    | some next =>
      modify fun n => { n with now := next }
      for (d, t) in due do
        if d = next then wake t
      advanceTo target fuel

/-- Lets so many milliseconds pass, but no more than the longest wait. -/
def advance (ms : Nat) : Net Unit := do
  advanceTo (dueIn (← get).now ms) instantLimit

end Replica.Network
