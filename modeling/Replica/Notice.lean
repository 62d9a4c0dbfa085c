import Replica.Event

/-!
# Notices of the server

A watch delivers notices: an object was added, modified or deleted, or a status message.  Session
and store work on events; `Notice.event?` gives the event that a notice stands for.
-/

namespace Replica

/-- A message of the server that concerns no object. -/
structure Status where
  code : Nat
  message : String
  reason : String
  deriving DecidableEq, Inhabited

/-- One notice of a watch. -/
inductive Notice where
  | added (o : Object)
  | modified (o : Object)
  | deleted (o : Object)
  | status (s : Status)
  deriving DecidableEq, Inhabited

/-- The event that a notice stands for; a status message stands for none. -/
def Notice.event? : Notice → Option Event
  | .added o => some ⟨.create, o⟩
  | .modified o => some ⟨.update, o⟩
  | .deleted o => some ⟨.delete, o⟩
  | .status _ => none

/-- What a listing or a watch is asked for: the version to start from, empty for the current one,
and whether changes are wanted. -/
structure ListOptions where
  version : String
  watch : Bool
  deriving DecidableEq, Inhabited

namespace ListOptions

/-- The options of a plain listing. -/
def plain : ListOptions := ⟨"", false⟩

/-- The options of a watch on the changes after a version. -/
def watchFrom (version : String) : ListOptions := ⟨version, true⟩

end ListOptions

end Replica
