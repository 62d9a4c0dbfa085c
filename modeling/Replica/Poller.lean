import Replica.Error
import Replica.Object

/-!
# The poller

A poller lists the collection once at its start, and again after each period or on request.

* **Slot.**  A result waits in the `slot` until the consumer takes it.  The next listing starts only
  after that, so at most one result is under way or waiting.
* **Requests.**  A request to list now leaves a token; while a token is there, further requests add
  nothing.
* **Phases.**  The poller waits for an empty slot (`holding`), for the server (`listing`), or for the
  end of the period or a token (`resting`).
-/

namespace Replica

/-- The result of a listing. -/
abbrev ListResult := Except FetchError Listing

namespace Poller

/-- What a poller waits for. -/
inductive Phase where
  /-- The consumer takes the last result. -/
  | holding
  /-- The server answers. -/
  | listing
  /-- The period ends, or a token comes. -/
  | resting
  | stopped
  deriving DecidableEq, Inhabited

end Poller

/-- A poller. -/
structure Poller where
  phase : Poller.Phase
  /-- The result that was not taken yet. -/
  slot : Option ListResult
  /-- Whether a request to list now is waiting. -/
  token : Bool
  deriving Inhabited

namespace Poller

/-- A poller at its start. -/
def new : Poller := ⟨.holding, none, false⟩

/-- What can happen to a poller. -/
inductive Input where
  /-- A listing is started, the slot being empty. -/
  | start
  /-- The server answers. -/
  | answer (r : ListResult)
  /-- The period ends. -/
  | expire
  /-- The token is used up. -/
  | spend
  /-- The consumer takes the result. -/
  | take
  /-- Somebody asks for a listing now. -/
  | request
  /-- The poller's scope fires. -/
  | cancel
  deriving Inhabited

/-- One step; `none` where the input cannot happen. -/
def step (p : Poller) : Input → Option Poller
  | .start => if p.phase = .holding ∧ p.slot.isNone then some { p with phase := .listing } else none
  | .answer r =>
    if p.phase = .listing then some { p with phase := .resting, slot := some r } else none
  | .expire => if p.phase = .resting then some { p with phase := .holding } else none
  | .spend =>
    if p.phase = .resting ∧ p.token then some { p with phase := .holding, token := false } else none
  | .take => if p.slot.isSome then some { p with slot := none } else none
  | .request => if p.phase ≠ .stopped then some { p with token := true } else none
  | .cancel => if p.phase ≠ .stopped then some { p with phase := .stopped } else none

end Poller

end Replica
