import Replica.Error
import Replica.Json.Basic
import Replica.Key

/-!
# Objects

An object of the collection has a key, a version and labels; all else is opaque data that is carried
along.  Versions are natural numbers below `2 ^ 64` in decimal digits (`parseVersion?`), and grow
with each change of an object.
-/

namespace Replica

/-- Labels of an object. -/
abbrev Labels := SortedMap String String

/-- What the library reads of an object. -/
structure Metadata where
  ns : String
  name : String
  version : String
  labels : Labels
  deriving DecidableEq, Inhabited

/-- An object: its metadata, and further fields that are passed through. -/
structure Object where
  metadata : Metadata
  data : SortedMap String Json
  deriving DecidableEq, Inhabited

/-- A snapshot of the collection at a version. -/
structure Listing where
  version : String
  items : List Object
  deriving DecidableEq, Inhabited

/-- One more than the largest version. -/
def versionLimit : Nat := Nat.pow 2 64

/-- The number that a version text stands for: digits, after one plus sign at most, of a value below
`versionLimit`. -/
def parseVersion? (s : String) : Option Nat :=
  let digits := match s.toList with
    | '+' :: ds => ds
    | ds => ds
  let n := digits.foldl (fun n d => 10 * n + (d.toNat - '0'.toNat)) 0
  if !digits.isEmpty && digits.all Char.isDigit && n < versionLimit then some n else none

namespace Object

/-- The object's identity. -/
def key (o : Object) : Key := ⟨o.metadata.ns, o.metadata.name⟩

/-- The object's labels. -/
def labels (o : Object) : Labels := o.metadata.labels

/-- The object's version as a number, if its text is one. -/
def version? (o : Object) : Option Nat := parseVersion? o.metadata.version

/-- The object's version, or the error that its text is none. -/
def version (o : Object) : Except Error Nat :=
  match o.version? with
  | some v => .ok v
  | none => .error (.invalidVersion o.metadata.version)

/-- Whether the object can be stored under its key: its name is not empty. -/
def isNamed (o : Object) : Bool := !o.metadata.name.isEmpty

/-- Refuses an object without a name. -/
def checkNamed (o : Object) : Except Error Unit :=
  if o.isNamed then .ok ()
  else .error (.invalidObject ("missing name (namespace " ++ Text.quoted o.metadata.ns ++ ")"))

/-- The short form `namespace/name@version`. -/
def short (o : Object) : String := o.key.text ++ "@" ++ o.metadata.version

/-- The place of an object among others: by namespace, by name, by the text of its version. -/
def rank (o : Object) : List String := [o.metadata.ns, o.metadata.name, o.metadata.version]

/-- Objects in the order of their ranks. -/
def inOrder (list : List Object) : List Object :=
  list.mergeSort fun a b => (compare a.rank b.rank).isLE

end Object

end Replica
