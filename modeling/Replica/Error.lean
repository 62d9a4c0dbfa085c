import Replica.Text.Quoted

/-!
# Errors

* `FetchError`: a request to the server failed;
* `Error`: what an operation of the library reports to its caller.

Each cause has one constructor, and `message` gives its wording.
-/

namespace Replica

/-- Why a request to the server failed. -/
inductive FetchError where
  /-- The request did not get through. -/
  | request (detail : String)
  /-- The answer could not be read. -/
  | decode (detail : String)
  /-- The server refused with a status code. -/
  | status (code : Nat) (detail : String)
  deriving DecidableEq, Inhabited

/-- The wording of a failed request. -/
def FetchError.message : FetchError → String
  | .request m => "request failed: " ++ m
  | .decode m => "decode failed: " ++ m
  | .status code m => "upstream status " ++ toString code ++ ": " ++ m

/-- Why an operation failed. -/
inductive Error where
  /-- The component behind the handle has stopped. -/
  | notRunning
  /-- A request to the server failed. -/
  | fetch (cause : FetchError)
  /-- A version text is no 64-bit number. -/
  | invalidVersion (text : String)
  /-- An object cannot be stored. -/
  | invalidObject (reason : String)
  /-- A component was set up wrongly. -/
  | config (detail : String)
  deriving DecidableEq, Inhabited

namespace Error

/-- The wording of an error. -/
def message : Error → String
  | .notRunning => "not running"
  | .fetch cause => "upstream error: " ++ cause.message
  | .invalidVersion text => "invalid resource version: " ++ Text.quoted text
  | .invalidObject reason => "invalid object: " ++ reason
  | .config detail => "configuration error: " ++ detail

/-- Whether the error means that the component is gone. -/
def isNotRunning : Error → Bool
  | .notRunning => true
  | _ => false

end Error

/-- The wording for a text that is no key. -/
def invalidKeyMessage (text : String) : String := "invalid namespace/name: " ++ Text.quoted text

end Replica
