import Replica.Network.Turn

/-!
# Listening to the server

The tasks of the poller, of the sessions and of the follower that goes through them, and what their
readers do.
-/

namespace Replica.Network

/-! ### Times to wait -/

/-- The longest time that anything waits, in milliseconds: thirty years of 365 days. -/
def longestWait : Nat := 30 * 365 * 24 * 60 * 60 * 1000

/-- When a wait that begins now is over. -/
def dueIn (now ms : Nat) : Nat := now + min ms longestWait

/-! ### Pollers -/

/-- The next input of a poller. -/
def nextForPoller : Net (Option Poller.Input) := do
  let n ← get
  match n.poller with
  | none => return none
  | some p =>
    if p.poller.phase = .stopped then return none
    if ← hasFired .poller p.scope then return some .cancel
    match p.poller.phase with
    | .holding =>
      if p.poller.slot.isNone then
        spend
        return some .start
      await .poller .emptySlot
      return none
    | .listing =>
      if n.server.listing.isNone then await .poller .listing
      return n.server.listing.map .answer
    | .resting =>
      if p.deadline ≤ n.now then
        spend
        return some .expire
      if p.poller.token then
        spend
        return some .spend
      await .poller .token
      return none
    | .stopped => return none

/-- Runs a poller. -/
def runPoller : Net Unit :=
  drive .poller nextForPoller (fun input => do
    modifyPoller fun p => { p with poller := (p.poller.step input).getD p.poller }
    let n ← get
    match input with
    | .start => set { n with server := n.server.noteList n.now }
    | .answer _ =>
      modifyPoller fun p => { p with deadline := dueIn n.now p.period }
      occur .result
    | .cancel =>
      finish .poller
      occur .result
    | _ => return) turnLimit

/-- Takes the result of a poller. -/
def takeResult : Net (Polled ListResult) := do
  match (← get).poller with
  | none => return .ended
  | some p =>
    match p.poller.slot with
    | some r =>
      modifyPoller fun p => { p with poller := (p.poller.step .take).getD p.poller }
      occur .emptySlot
      return .item r
    | none => return if p.poller.phase = .stopped then .ended else .pending

/-! ### Sessions -/

/-- Starts a session for a follower or for outside. -/
def startSession (version : String) (capacity : Nat) (parent : ScopeId) : Net Unit := do
  let scope ← newChild parent
  let i := (← get).sessions.length
  modify fun n => { n with sessions := n.sessions ++ [⟨.new capacity, version, none, scope⟩] }
  wake (.session i)

/-- What a session notices next. -/
inductive SessionInput where
  /-- The session's scope has fired. -/
  | cancel
  /-- The watch is to be opened. -/
  | connect
  /-- A signal of the stream. -/
  | signal (stream : Nat) (s : StreamSignal)

/-- Takes the next item of a stream. -/
def readStream (stream : Nat) : Net (Polled StreamItem) := do
  match (← get).server.streams[stream]? with
  | none => return .ended
  | some feed =>
    let (feed, r) := feed.poll
    modify fun n => { n with server := n.server.onStream stream fun _ => feed }
    return r

/-- The next input of a session. -/
def nextForSession (i : Nat) : Net (Option SessionInput) := do
  match (← get).sessions[i]? with
  | none => return none
  | some s =>
    if s.session.isOver then return none
    if ← hasFired (.session i) s.scope then return some .cancel
    match s.stream with
    | none => return some .connect
    | some stream =>
      match ← reading (.session i) (.item stream) (readStream stream) with
      | .pending => return none
      | .ended => return some (.signal stream .closed)
      | .item (.ok notice) => return some (.signal stream (.notice notice))
      | .item (.error e) => return some (.signal stream (.failure e))

/-- Lets go of the stream of a session. -/
def releaseStream (stream : Nat) : Net Unit :=
  modify fun n => { n with server := n.server.onStream stream Feed.abandon }

/-- Gives a session a new state; its reader notices another event, and the end. -/
def updateSession (i : Nat) (session : Session) : Net Unit := do
  let waiting := ((← get).sessions[i]?.map (·.session.buffer.items.length)).getD 0
  modifySession i fun s => { s with session }
  if session.isOver || waiting < session.buffer.items.length then occur (.followed i)
  if session.isOver then finish (.session i)

/-- What a session does on an input. -/
def actForSession (i : Nat) (input : SessionInput) : Net Unit := do
  let n ← get
  let some s := n.sessions[i]? | return
  match input with
  | .cancel =>
    if let some stream := s.stream then releaseStream stream
    updateSession i s.session.finish
  | .connect =>
    let (server, stream) := n.server.openWatch s.version n.now
    set { n with server }
    modifySession i fun s => { s with stream }
    if stream.isNone then updateSession i s.session.finish
  | .signal stream signal =>
    let session := s.session.receive signal
    if session.isOver then releaseStream stream
    updateSession i session

/-- Runs a session. -/
def runSession (i : Nat) : Net Unit :=
  drive (.session i) (nextForSession i) (actForSession i) turnLimit

/-- Reads the next event of a session. -/
def readSession (i : Nat) : Net (Polled Event) := do
  match (← get).sessions[i]? with
  | none => return .ended
  | some s =>
    let (session, r) := s.session.poll
    modifySession i fun s => { s with session }
    return r

/-- Ends a session that nobody reads any more. -/
def dropSession (i : Nat) : Net Unit := do
  if let some s := (← get).sessions[i]? then fire s.scope

/-! ### Followers -/

/-- The next input of a follower. -/
def nextForFollower : Net (Option Follower.Input) := do
  let n ← get
  match n.follower with
  | none => return none
  | some f =>
    if f.follower.isStopped then return none
    if ← hasFired .follower f.scope then return some .cancel
    if let some version := f.inbox then
      spend
      return some (.reset version true)
    await .follower .reset
    if let some i := f.follower.session then
      match ← reading .follower (.followed i) (readSession i) with
      | .item e => return some (.event e)
      | .ended => return some .sessionEnded
      | .pending => pure ()
    if f.deadline.any (· ≤ n.now) then
      spend
      return some .retryElapsed
    return none

/-- Leaves the session that a follower had. -/
def leaveSession (f : FollowerTask) : Net Unit := do
  if let some i := f.follower.session then
    schedule (·.keepOnly .follower (· != .followed i))
    dropSession i

/-- Starts the session that a follower has just opened. -/
def startFollowed (f : Follower) (scope : ScopeId) : Net Unit :=
  startSession f.version f.capacity scope

/-- Tells the end of a follower. -/
def endFollower : Net Unit := do
  modifyFollower fun f => { f with inbox := none, deadline := none }
  finish .follower
  occur .output
  occur .wasReset

/-- How many events wait in a follower's output. -/
def outputLength (f : Follower) : Nat := (f.output.map (·.items.length)).getD 0

/-- What a follower does on an input. -/
def actForFollower (input : Follower.Input) : Net Unit := do
  let n ← get
  let some f := n.follower | return
  let next := f.follower.step input
  modifyFollower fun f => { f with follower := next }
  match input with
  | .reset _ isAwaited =>
    modifyFollower fun f => { f with inbox := none }
    if isAwaited then
      modifyFollower fun f => { f with deadline := none, wasReset := true }
      occur .wasReset
      occur .output
      leaveSession f
      startFollowed next f.scope
  | .event _ => if outputLength f.follower < outputLength next then occur .output
  | .sessionEnded =>
    leaveSession f
    let delay := next.retry.bind next.reconnect.delay?
    modifyFollower fun f => { f with deadline := delay.map (dueIn n.now ·.ceilMillis) }
    if next.isStopped then endFollower
  | .retryElapsed =>
    modifyFollower fun f => { f with deadline := none }
    startFollowed next f.scope
  | .cancel =>
    leaveSession f
    endFollower

/-- Runs a follower. -/
def runFollower : Net Unit :=
  drive .follower nextForFollower actForFollower turnLimit

/-- Reads the next event of a follower's output. -/
def readFollower : Net (Polled Event) := do
  match (← get).follower with
  | none => return .pending
  | some f =>
    let (follower, r) := f.follower.next
    modifyFollower fun f => { f with follower }
    return r

end Replica.Network
