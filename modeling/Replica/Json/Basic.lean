import Replica.SortedMap

/-!
# JSON values

A JSON value as it was read: the fields of an object stand in the order of the text, and a name may
occur several times.  Whole numbers within 64 bits are exact; every other number is a double, held
by its bits.  A text may be well formed and yet stand for no value; where such a text is only passed
over it does no harm, so it is read, as `Json.unfit`.

* `Json.field?` looks a name up in an object; the last field of that name counts;
* `Json.Canonical` values have their fields in the order of their names, each name once, and nothing
  unfit in them; `Json.canonical?` gives the canonical form of a value, if it has one.
-/

namespace Replica

/-- A JSON value.  What is `unfit` is well formed but stands for no value. -/
inductive Json where
  | null
  | bool (b : Bool)
  | int (n : Int)
  | double (bits : UInt64)
  | str (s : String)
  | arr (xs : List Json)
  | obj (fields : List (String × Json))
  | unfit
  deriving Inhabited

namespace Json

/-! ### Equality -/

mutual

/-- Whether two values are the same. -/
def same : Json → Json → Bool
  | .null, .null => true
  | .bool a, .bool b => a == b
  | .int a, .int b => a == b
  | .double a, .double b => a == b
  | .str a, .str b => a == b
  | .arr a, .arr b => sameElements a b
  | .obj a, .obj b => sameFields a b
  | .unfit, .unfit => true
  | _, _ => false

/-- Whether two lists hold the same values. -/
def sameElements : List Json → List Json → Bool
  | [], [] => true
  | a :: as, b :: bs => same a b && sameElements as bs
  | _, _ => false

/-- Whether two lists hold the same fields. -/
def sameFields : List (String × Json) → List (String × Json) → Bool
  | [], [] => true
  | (k, a) :: as, (l, b) :: bs => k == l && same a b && sameFields as bs
  | _, _ => false

end

mutual

theorem same_iff : ∀ {a b : Json}, same a b = true ↔ a = b
  | .null, b => by cases b <;> simp [same]
  | .bool _, b => by cases b <;> simp [same]
  | .int _, b => by cases b <;> simp [same]
  | .double _, b => by cases b <;> simp [same]
  | .str _, b => by cases b <;> simp [same]
  | .arr as, b => by cases b <;> simp [same, sameElements_iff]
  | .obj as, b => by cases b <;> simp [same, sameFields_iff]
  | .unfit, b => by cases b <;> simp [same]

theorem sameElements_iff : ∀ {as bs : List Json}, sameElements as bs = true ↔ as = bs
  | [], bs => by cases bs <;> simp [sameElements]
  | a :: as, bs => by cases bs <;> simp [sameElements, same_iff, sameElements_iff]

theorem sameFields_iff : ∀ {as bs : List (String × Json)}, sameFields as bs = true ↔ as = bs
  | [], bs => by cases bs <;> simp [sameFields]
  | (k, a) :: as, bs => by
    cases bs with
    | nil => simp [sameFields]
    | cons b bs => simp [sameFields, same_iff, sameFields_iff, Prod.ext_iff]

end

instance : DecidableEq Json := fun _ _ => decidable_of_iff _ same_iff

/-! ### Fields and canonical form -/

/-- The value of the last field called `name`, if the value is an object with one. -/
def field? (j : Json) (name : String) : Option Json :=
  match j with
  | .obj fields => (SortedMap.ofList fields).get? name
  | _ => none

mutual

/-- The value with each object's fields in order of name, of several fields with one name the last;
`none` if something in it is unfit. -/
def canonical? : Json → Option Json
  | .unfit => none
  | .arr xs => (canonicalElements? xs).map .arr
  | .obj fields => (canonicalFields? fields).map fun fs => .obj (SortedMap.ofList fs).toList
  | j => some j

/-- The canonical forms of a list of values. -/
def canonicalElements? : List Json → Option (List Json)
  | [] => some []
  | x :: xs => do return (← canonical? x) :: (← canonicalElements? xs)

/-- The fields with their values in canonical form. -/
def canonicalFields? : List (String × Json) → Option (List (String × Json))
  | [] => some []
  | (k, x) :: xs => do return (k, ← canonical? x) :: (← canonicalFields? xs)

end

/-- A value that is its own canonical form. -/
def Canonical (j : Json) : Prop := canonical? j = some j

instance (j : Json) : Decidable j.Canonical := inferInstanceAs (Decidable (_ = _))

end Json

end Replica
