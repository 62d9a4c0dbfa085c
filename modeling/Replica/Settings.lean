import Replica.Duration

/-!
# Settings of a pipeline

How a pipeline paces itself and how much it buffers, and the delay before a lost watch is opened
again (`Reconnect.delay?`): from an initial delay it doubles with each attempt up to a bound, with a
deviation of up to a quarter that depends on the attempt alone.
-/

namespace Replica

/-- How a lost watch is opened again. -/
structure Reconnect where
  /-- The delay before the first attempt. -/
  initial : Duration
  /-- The bound on the delay. -/
  max : Duration
  /-- The number of attempts in a row; without it there is no limit. -/
  maxRetries : Option Nat
  deriving DecidableEq

namespace Reconnect

/-- One second before every attempt, without limit. -/
def default : Reconnect := ⟨.ofSecs 1, .ofSecs 1, none⟩

instance : Inhabited Reconnect := ⟨default⟩

/-- The longest delay in seconds: the bound, if that is not below the initial delay. -/
def longest (r : Reconnect) : Float :=
  if r.initial.toFloat ≤ r.max.toFloat then r.max.toFloat else r.initial.toFloat

/-- Keeps a number of seconds between the initial delay and the longest one.  Seconds that are no number
would count as too long; there are none, as the sine of a number is one. -/
def clamp (r : Reconnect) (seconds : Float) : Float :=
  if seconds ≤ r.longest then
    if r.initial.toFloat ≤ seconds then seconds else r.initial.toFloat
  else r.longest

/-- The delay before an attempt in seconds. -/
def delaySeconds (r : Reconnect) (attempt : Nat) : Float :=
  let base := r.initial.toFloat * (UInt64.ofNat (Nat.pow 2 (min attempt 32))).toFloat
  let base := if r.longest < base then r.longest else base
  r.clamp (base * (1.0 + 0.25 * ((UInt64.ofNat attempt).toFloat * 7.3).sin))

/-- The delay before an attempt; `none` if it is longer than any duration. -/
def delay? (r : Reconnect) (attempt : Nat) : Option Duration :=
  Duration.ofFloat? (r.delaySeconds attempt)

/-- Whether another attempt may be made after `attempt` of them. -/
def allows (r : Reconnect) (attempt : Nat) : Bool :=
  match r.maxRetries with
  | none => true
  | some m => attempt < m

end Reconnect

/-- The settings of one pipeline. -/
structure Settings where
  /-- The time from one listing to the next. -/
  refreshPeriod : Duration
  reconnect : Reconnect
  /-- How many events of a watch wait at most. -/
  watchBuffer : Nat
  /-- How many events of a subscription wait at most. -/
  subscriptionBuffer : Nat
  deriving DecidableEq

namespace Settings

/-- A listing every minute, and room for a hundred events. -/
def default : Settings := ⟨.ofSecs 60, .default, 100, 100⟩

instance : Inhabited Settings := ⟨default⟩

end Settings

end Replica
