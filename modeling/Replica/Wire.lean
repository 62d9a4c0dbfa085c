import Replica.Json.Record
import Replica.Notice
import Replica.Selector

/-!
# Wire forms

The JSON form of each type that passes between server and library: `toJson` writes it and `ofJson?`
reads it back.  Reading is generous where a field has a value for its absence, and strict about the
type of what is there.
-/

namespace Replica

open Json (Record)

/-! ### Keys and objects -/

namespace Key

/-- The fields, in the order in which an array of their values has them. -/
def fieldNames : List String := ["namespace", "name"]

/-- The wire form of a key. -/
def toJson (k : Key) : Json := .obj [("name", .str k.name), ("namespace", .str k.ns)]

/-- A key; both components must be given. -/
def ofJson? (j : Json) : Option Key := do
  let r ← j.record? fieldNames
  return ⟨← r.required "namespace" Json.string?, ← r.required "name" Json.string?⟩

end Key

namespace Metadata

/-- The fields, in the order in which an array of their values has them. -/
def fieldNames : List String := ["namespace", "name", "resourceVersion", "labels"]

/-- Metadata; empty labels are not written. -/
def toJson (m : Metadata) : Json :=
  .obj <|
    (if m.labels.isEmpty then [] else [("labels", Json.ofStringMap m.labels)])
      ++ [("name", .str m.name), ("namespace", .str m.ns), ("resourceVersion", .str m.version)]

/-- Metadata; every field is empty if it is absent. -/
def ofJson? (j : Json) : Option Metadata := do
  let r ← j.record? fieldNames
  return {
    ns := ← r.withDefault "namespace" Json.string? ""
    name := ← r.withDefault "name" Json.string? ""
    version := ← r.withDefault "resourceVersion" Json.string? ""
    labels := ← r.withDefault "labels" Json.stringMap? .empty }

end Metadata

namespace Object

/-- An object: its metadata as one field beside the opaque ones, if none of these takes the name. -/
def toJson (o : Object) : Json :=
  .obj <| SortedMap.toList <|
    if o.data.contains "metadata" then o.data else o.data.insert "metadata" o.metadata.toJson

/-- An object; the metadata must be given, once, and every other field is kept. -/
def ofJson? : Json → Option Object
  | .obj fields => do
    let r ← (Json.obj fields).record? ["metadata"]
    let metadata ← r.required "metadata" Metadata.ofJson?
    let data ← Json.canonicalFields? (fields.filter (·.1 != "metadata"))
    return ⟨metadata, .ofList data⟩
  | _ => none

end Object

namespace Listing

/-- The fields, in the order in which an array of their values has them. -/
def fieldNames : List String := ["resourceVersion", "items"]

/-- The wire form of a listing. -/
def toJson (l : Listing) : Json :=
  .obj [("items", .arr (l.items.map Object.toJson)), ("resourceVersion", .str l.version)]

/-- A listing; an absent version or list is empty. -/
def ofJson? (j : Json) : Option Listing := do
  let r ← j.record? fieldNames
  return {
    version := ← r.withDefault "resourceVersion" Json.string? ""
    items := ← r.withDefault "items" (Json.listOf? Object.ofJson?) [] }

end Listing

/-! ### Notices -/

namespace Status

/-- The fields, in the order in which an array of their values has them. -/
def fieldNames : List String := ["code", "message", "reason"]

/-- The wire form of a status message. -/
def toJson (s : Status) : Json :=
  .obj [("code", .int s.code), ("message", .str s.message), ("reason", .str s.reason)]

/-- A status message; its code is a 16-bit number, and absent fields are zero or empty. -/
def ofJson? (j : Json) : Option Status := do
  let r ← j.record? fieldNames
  return {
    code := ← r.withDefault "code" (Json.natBelow? (Nat.pow 2 16)) 0
    message := ← r.withDefault "message" Json.string? ""
    reason := ← r.withDefault "reason" Json.string? "" }

end Status

namespace Json

/-- The name of a case without fields: as a string, or as the only field of an object, with null. -/
def caseName? : Json → Option String
  | .str s => some s
  | .obj [(s, .null)] => some s
  | _ => none

end Json

namespace Notice

/-- The fields, in the order in which an array of their values has them. -/
def fieldNames : List String := ["type", "object"]

/-- The type name of a notice. -/
def typeName : Notice → String
  | .added _ => "ADDED"
  | .modified _ => "MODIFIED"
  | .deleted _ => "DELETED"
  | .status _ => "ERROR"

/-- The wire form of a notice. -/
def toJson (n : Notice) : Json :=
  let body := match n with
    | .added o | .modified o | .deleted o => o.toJson
    | .status s => s.toJson
  .obj [("object", body), ("type", .str n.typeName)]

/-- The notice of a type name, with its object. -/
def ofTyped? (type : String) (body : Json) : Option Notice :=
  match type with
  | "ADDED" => (Object.ofJson? body).map .added
  | "MODIFIED" => (Object.ofJson? body).map .modified
  | "DELETED" => (Object.ofJson? body).map .deleted
  | "ERROR" => (Status.ofJson? body).map .status
  | _ => none

/-- Whether, of the two fields, the object is given before the type. -/
def isObjectFirst : Json → Bool
  | .obj fields => (fields.map (·.1)).find? fieldNames.contains == some "object"
  | _ => false

/-- A notice: its type and its object, in any order.  An object that comes before the type is read
whole, before it is known which of its fields matter, so nothing in it may be unfit. -/
def ofJson? (j : Json) : Option Notice := do
  let r ← j.record? fieldNames
  let type ← r.required "type" Json.caseName?
  let body ← r.required "object" some
  if isObjectFirst j && body.canonical?.isNone then none
  ofTyped? type body

end Notice

namespace ListOptions

/-- The fields, in the order in which an array of their values has them. -/
def fieldNames : List String := ["resourceVersion", "watch"]

/-- The wire form of list options. -/
def toJson (o : ListOptions) : Json :=
  .obj [("resourceVersion", .str o.version), ("watch", .bool o.watch)]

/-- Options; absent fields are empty or false. -/
def ofJson? (j : Json) : Option ListOptions := do
  let r ← j.record? fieldNames
  return {
    version := ← r.withDefault "resourceVersion" Json.string? ""
    watch := ← r.withDefault "watch" Json.bool? false }

end ListOptions

/-! ### Selectors -/

namespace Requirement

/-- The fields, in the order in which an array of their values has them. -/
def fieldNames : List String := ["key", "operator", "values"]

/-- The wire form of a requirement. -/
def toJson (r : Requirement) : Json :=
  .obj [("key", .str r.key), ("operator", .str r.operator.text),
    ("values", .arr (r.values.map .str))]

/-- A requirement; key and operator must be given. -/
def ofJson? (j : Json) : Option Requirement := do
  let r ← j.record? fieldNames
  return {
    key := ← r.required "key" Json.string?
    operator := ← r.required "operator" fun j => j.caseName? >>= Operator.parse?
    values := ← r.withDefault "values" (Json.listOf? Json.string?) [] }

end Requirement

namespace Selector

/-- The fields, in the order in which an array of their values has them. -/
def fieldNames : List String := ["matchLabels", "matchExpressions"]

/-- The wire form of a selector. -/
def toJson (s : Selector) : Json :=
  .obj [("matchExpressions", .arr (s.requirements.map Requirement.toJson)),
    ("matchLabels", Json.ofStringMap s.matchLabels)]

/-- A selector; absent parts are empty. -/
def ofJson? (j : Json) : Option Selector := do
  let r ← j.record? fieldNames
  return {
    matchLabels := ← r.withDefault "matchLabels" Json.stringMap? .empty
    requirements := ← r.withDefault "matchExpressions" (Json.listOf? Requirement.ofJson?) [] }

end Selector

end Replica
