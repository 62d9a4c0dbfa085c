import Replica.Json.Basic

/-!
# Records in JSON

A record with fixed field names reads from an object, other fields being ignored and none of its own
repeated, or from an array of its first fields in order.
-/

namespace Replica.Json

/-- The fields of a record by name, as far as they are given. -/
abbrev Record := String → Option Json

/-- The fields of a record whose names are listed in the order of the array form. -/
def record? (names : List String) : Json → Option Record
  | .obj fields =>
    if names.any fun n => 1 < fields.countP (·.1 == n) then none else some fun n => fields.lookup n
  | .arr xs => if names.length < xs.length then none else some fun n => (names.zip xs).lookup n
  | _ => none

namespace Record

variable {α : Type}

/-- A field that must be given. -/
def required (r : Record) (name : String) (read : Json → Option α) : Option α := r name >>= read

/-- A field with a value for its absence. -/
def withDefault (r : Record) (name : String) (read : Json → Option α) (default : α) : Option α :=
  match r name with
  | none => some default
  | some j => read j

end Record

/-! ### Plain values -/

/-- A string. -/
def string? : Json → Option String
  | .str s => some s
  | _ => none

/-- A truth value. -/
def bool? : Json → Option Bool
  | .bool b => some b
  | _ => none

/-- A whole number from zero to below `limit`. -/
def natBelow? (limit : Nat) : Json → Option Nat
  | .int n => if 0 ≤ n ∧ n < limit then some n.toNat else none
  | _ => none

/-- An array whose elements all read. -/
def listOf? {α : Type} (read : Json → Option α) : Json → Option (List α)
  | .arr xs => xs.mapM read
  | _ => none

/-- An object of strings; of several fields with one name the last counts. -/
def stringMap? : Json → Option (SortedMap String String)
  | .obj fields => (fields.mapM fun f => (string? f.2).map (f.1, ·)).map SortedMap.ofList
  | _ => none

/-- An object of strings. -/
def ofStringMap (m : SortedMap String String) : Json :=
  .obj (m.toList.map fun e => (e.1, .str e.2))

end Replica.Json
