import Replica.Config.Variable
import Replica.Files
import Replica.Toml.Writer

/-!
# Loading and saving

* `Config.toToml?` writes a configuration as the text of a file, one line for each field;
* `Config.load` lays the file over the defaults and the environment variables over the file;
* `Config.saving` writes the text to a path, missing directories being made, and `Config.save` gives
  the files if that succeeds;
* `Config.path` is where the file stands if no other path is given.
-/

namespace Replica

/-- Why a configuration could not be saved. -/
inductive SaveError where
  /-- The file cannot be written. -/
  | io
  /-- A size is too large for the file format. -/
  | serialization
  deriving DecidableEq, Inhabited

namespace Config

/-! ### The text of a configuration -/

/-- One line. -/
def tomlLine (key value : String) : String := key ++ " = " ++ value ++ "\n"

/-- The text of a file with this configuration; none if a buffer size is no TOML number. -/
def toToml? (c : Config) : Option String :=
  let fits (n : Nat) : Bool := (n : Int) < Toml.Scalar.integerLimit
  if fits c.watchBufferSize && fits c.subscriptionBufferSize then
    some <| String.join <|
      [tomlLine "refresh_period" (Toml.renderString c.refreshPeriod),
        tomlLine "watch_retry_delay" (Toml.renderString c.watchRetryDelay),
        tomlLine "watch_retry_max_delay" (Toml.renderString c.watchRetryMaxDelay)]
      ++ (c.watchMaxRetries.map fun n => tomlLine "watch_max_retries" (toString n)).toList
      ++ [tomlLine "watch_buffer_size" (toString c.watchBufferSize),
        tomlLine "subscription_buffer_size" (toString c.subscriptionBufferSize)]
  else none

/-! ### Loading and saving -/

/-- The configuration of a file, if there is one, and of variables. -/
def loadText (file : Option String) (env : List (String × String)) :
    Except LoadError Config := do
  let fromEnv ← (Variable.layer env).mapError fun _ => LoadError.cutCharacter
  let fileLayer ← match file with
    | none => .ok .empty
    | some text =>
      match Toml.parse? text with
      | some fields => .ok (Layer.ofToml fields)
      | none => .error .unreadable
  (fromEnv.onto (fileLayer.onto (Layer.ofConfig default))).toConfig

/-- The configuration at a path under variables.  Without a file the defaults take its place. -/
def load (files : Files) (env : List (String × String)) (path : String) :
    Except LoadError Config :=
  loadText (files.read? path) env

/-- Writes the configuration to a path: directories are made, then the text, and then it is put in
its place.  The files are those afterwards, also if it could not be saved. -/
def saving (files : Files) (c : Config) (path : String) : Files × Option SaveError :=
  match files.makeDirectories (Path.parent path), c.toToml? with
  | (files, false), _ => (files, some .io)
  | (files, true), none => (files, some .serialization)
  | (files, true), some text =>
    match files.write? path text with
    | none => (files, some .io)
    | some files => (files, none)

/-- The files with the configuration at a path. -/
def save (files : Files) (c : Config) (path : String) : Except SaveError Files :=
  match c.saving files path with
  | (files, none) => .ok files
  | (_, some e) => .error e

/-! ### The usual place -/

/-- A path below a directory. -/
def joinPath (dir file : String) : String :=
  if dir.endsWith "/" then dir ++ file else dir ++ "/" ++ file

/-- The path of the file under the variables that name directories: the configuration directory if
it is an absolute path, else the one in the home directory. -/
def path (env : List (String × String)) : String :=
  let base := match env.lookup "XDG_CONFIG_HOME" with
    | some dir =>
      if dir.startsWith "/" then dir
      else joinPath ((env.lookup "HOME").getD "") ".config"
    | none => joinPath ((env.lookup "HOME").getD "") ".config"
  joinPath (joinPath base "kcache") "config.toml"

end Config

end Replica
