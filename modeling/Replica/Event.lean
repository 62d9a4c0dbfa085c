import Replica.Object

/-!
# Events

An event says that an object appeared, changed or went away, as one particular cache saw it: a
change of the collection may be an update in one view and a creation or deletion in another.
-/

namespace Replica

/-- What happened to an object. -/
inductive EventKind where
  | create
  | update
  | delete
  deriving DecidableEq, Inhabited

namespace EventKind

/-- The kind's name. -/
def text : EventKind → String
  | .create => "create"
  | .update => "update"
  | .delete => "delete"

/-- All kinds. -/
def all : List EventKind := [.create, .update, .delete]

/-- The kind of a name. -/
def parse? (s : String) : Option EventKind := all.find? (·.text == s)

theorem parse?_text (k : EventKind) : parse? k.text = some k := by cases k <;> decide

end EventKind

/-- One transition of one object. -/
structure Event where
  kind : EventKind
  object : Object
  deriving DecidableEq, Inhabited

/-- The written form `kind namespace/name@version`. -/
def Event.text (e : Event) : String := e.kind.text ++ " " ++ e.object.short

end Replica
