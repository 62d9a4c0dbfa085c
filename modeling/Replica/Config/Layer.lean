import Replica.Config.Basic
import Replica.Toml.Reader

/-!
# Layers of configuration

A layer gives values to some keys.  Layers are laid over each other key by key, a later one winning
(`Layer.onto`), and only then the values are checked against the types of the fields
(`Layer.toConfig`): keys are visited in alphabetical order, and the first bad one is reported.
-/

namespace Replica

/-- A value of a layer as far as the fields of a configuration tell values apart. -/
inductive Setting where
  | text (s : String)
  | whole (n : Int)
  /-- A truth value, a number with a fraction, a date, a list or a table. -/
  | other
  deriving DecidableEq, Inhabited

/-- Why no configuration could be loaded. -/
inductive LoadError where
  /-- The text of a variable cannot be read, not even as a text. -/
  | cutCharacter
  /-- The file does not parse. -/
  | unreadable
  /-- The value of a key has the wrong type. -/
  | wrongType (key : String)
  /-- The whole number of a key does not fit. -/
  | outOfRange (key : String)
  deriving DecidableEq, Inhabited

/-- Values of some keys. -/
abbrev Layer := SortedMap String Setting

namespace Layer

/-- The lower layer with the keys of the upper one laid over it. -/
def onto (upper lower : Layer) : Layer := upper.toList.foldl (fun m e => m.insert e.1 e.2) lower

/-- The layer of a whole configuration; absent retries are not in it. -/
def ofConfig (c : Config) : Layer :=
  .ofList <|
    [("refresh_period", .text c.refreshPeriod),
      ("watch_retry_delay", .text c.watchRetryDelay),
      ("watch_retry_max_delay", .text c.watchRetryMaxDelay)]
    ++ (c.watchMaxRetries.map fun n => ("watch_max_retries", Setting.whole n)).toList
    ++ [("watch_buffer_size", .whole c.watchBufferSize),
      ("subscription_buffer_size", .whole c.subscriptionBufferSize)]

/-- The setting of a value in a file. -/
def settingOfToml : Toml.Value → Setting
  | .string s => .text s
  | .integer n => .whole n
  | _ => .other

/-- The layer of the top-level keys of a file. -/
def ofToml (fields : Toml.Fields) : Layer :=
  .ofList (fields.map fun f => (f.1, settingOfToml f.2))

/-! ### Checking types -/

/-- The text of a key, or its default. -/
def textAt (layer : Layer) (key default : String) : Except LoadError String :=
  match layer.get? key with
  | none => .ok default
  | some (.text s) => .ok s
  | some _ => .error (.wrongType key)

/-- The whole number of a key from zero to below `limit`, if it is given. -/
def wholeAt? (layer : Layer) (key : String) (limit : Nat) : Except LoadError (Option Nat) :=
  match layer.get? key with
  | none => .ok none
  | some (.whole n) =>
    if 0 ≤ n ∧ n < limit then .ok (some n.toNat) else .error (.outOfRange key)
  | some _ => .error (.wrongType key)

/-- The configuration of a layer, absent keys taking their defaults. -/
def toConfig (layer : Layer) : Except LoadError Config := do
  let base := Config.default
  let refreshPeriod ← layer.textAt "refresh_period" base.refreshPeriod
  let subscriptionBufferSize ← layer.wholeAt? "subscription_buffer_size" Config.sizeLimit
  let watchBufferSize ← layer.wholeAt? "watch_buffer_size" Config.sizeLimit
  let watchMaxRetries ← layer.wholeAt? "watch_max_retries" Config.retriesLimit
  let watchRetryDelay ← layer.textAt "watch_retry_delay" base.watchRetryDelay
  let watchRetryMaxDelay ← layer.textAt "watch_retry_max_delay" base.watchRetryMaxDelay
  return {
    refreshPeriod, watchRetryDelay, watchRetryMaxDelay
    watchMaxRetries := watchMaxRetries.or base.watchMaxRetries
    watchBufferSize := watchBufferSize.getD base.watchBufferSize
    subscriptionBufferSize := subscriptionBufferSize.getD base.subscriptionBufferSize }

end Layer

end Replica
