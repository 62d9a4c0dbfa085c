import Replica.Duration.Text
import Replica.Json.Record
import Replica.Settings

/-!
# The configuration as it is written

A `Config` has six plain fields, durations as texts.  `Config.toSettings` checks it and gives the
settings of a pipeline; the first fault in a fixed order is reported.
-/

namespace Replica

/-- The configuration of a pipeline as it stands in a file. -/
structure Config where
  refreshPeriod : String
  watchRetryDelay : String
  watchRetryMaxDelay : String
  watchMaxRetries : Option Nat
  watchBufferSize : Nat
  subscriptionBufferSize : Nat
  deriving DecidableEq

/-- A field of a configuration does not make sense. -/
structure InvalidField where
  field : String
  reason : String
  deriving DecidableEq, Inhabited

/-- The wording of a fault in a field. -/
def InvalidField.message (e : InvalidField) : String := "invalid " ++ e.field ++ ": " ++ e.reason

/-- Why a configuration gives no settings. -/
inductive ConfigFault where
  /-- A field does not make sense. -/
  | invalid (e : InvalidField)
  /-- The sum of a duration is past the longest one. -/
  | durationPastLongest
  deriving DecidableEq, Inhabited

namespace Config

/-- The values of fields that are not given. -/
def default : Config := ⟨"1m", "1s", "1s", none, 100, 100⟩

instance : Inhabited Config := ⟨default⟩

/-- One more than the largest number of retries. -/
def retriesLimit : Nat := Nat.pow 2 32

/-- One more than the largest buffer size. -/
def sizeLimit : Nat := Nat.pow 2 64

/-- The names of the fields in order. -/
def fieldNames : List String :=
  ["refresh_period", "watch_retry_delay", "watch_retry_max_delay", "watch_max_retries",
    "watch_buffer_size", "subscription_buffer_size"]

/-! ### JSON form -/

/-- The configuration as an object; absent retries are not written. -/
def toJson (c : Config) : Json :=
  .obj <|
    [("refresh_period", .str c.refreshPeriod),
      ("subscription_buffer_size", .int c.subscriptionBufferSize),
      ("watch_buffer_size", .int c.watchBufferSize)]
    ++ (c.watchMaxRetries.map fun n => ("watch_max_retries", Json.int n)).toList
    ++ [("watch_retry_delay", .str c.watchRetryDelay),
      ("watch_retry_max_delay", .str c.watchRetryMaxDelay)]

/-- The retries: a 32-bit number or null. -/
def retriesOfJson? : Json → Option (Option Nat)
  | .null => some none
  | j => (j.natBelow? retriesLimit).map some

/-- A configuration; an absent field takes its default. -/
def ofJson? (j : Json) : Option Config := do
  let r ← j.record? fieldNames
  return {
    refreshPeriod := ← r.withDefault "refresh_period" Json.string? default.refreshPeriod
    watchRetryDelay := ← r.withDefault "watch_retry_delay" Json.string? default.watchRetryDelay
    watchRetryMaxDelay :=
      ← r.withDefault "watch_retry_max_delay" Json.string? default.watchRetryMaxDelay
    watchMaxRetries :=
      ← r.withDefault "watch_max_retries" retriesOfJson? default.watchMaxRetries
    watchBufferSize :=
      ← r.withDefault "watch_buffer_size" (Json.natBelow? sizeLimit) default.watchBufferSize
    subscriptionBufferSize :=
      ← r.withDefault "subscription_buffer_size" (Json.natBelow? sizeLimit)
        default.subscriptionBufferSize }

/-! ### Settings -/

/-- The fault that a field does not make sense. -/
def invalid (field reason : String) : ConfigFault := .invalid ⟨field, reason⟩

/-- The duration that a field holds. -/
def duration (field value : String) : Except ConfigFault Duration :=
  match Duration.parse value with
  | .ok d => .ok d
  | .error .pastLongest => .error .durationPastLongest
  | .error e => .error (invalid field ("'" ++ value ++ "': " ++ e.message))

/-- Checks the fields and gives the settings.  The three durations are read first; then the period
must not be zero, the longest delay not below the first one, and neither buffer empty. -/
def toSettings (c : Config) : Except ConfigFault Settings := do
  let period ← duration "refresh_period" c.refreshPeriod
  let initial ← duration "watch_retry_delay" c.watchRetryDelay
  let longest ← duration "watch_retry_max_delay" c.watchRetryMaxDelay
  if period.nanos = 0 then
    .error (invalid "refresh_period" "must be greater than zero")
  else if longest.nanos < initial.nanos then
    .error (invalid "watch_retry_max_delay" "must not be shorter than watch_retry_delay")
  else if c.watchBufferSize = 0 then
    .error (invalid "watch_buffer_size" "must be greater than zero")
  else if c.subscriptionBufferSize = 0 then
    .error (invalid "subscription_buffer_size" "must be greater than zero")
  else
    .ok ⟨period, ⟨initial, longest, c.watchMaxRetries⟩, c.watchBufferSize,
      c.subscriptionBufferSize⟩

end Config

end Replica
