/-!
# TOML values

A TOML document is a table.  While it is read, each table remembers how it came about, since that
decides who may still add to it:

* by its own header, or by a longer header that passes through it;
* by a dotted key;
* written out between braces, and then closed.

`Fields.set` and `Fields.header` add a key or open a table under these rules.
-/

namespace Replica.Toml

/-- How a table came about. -/
inductive TableKind where
  /-- By a header of its own. -/
  | header
  /-- As part of a longer header. -/
  | path
  /-- As part of a dotted key. -/
  | dotted
  /-- Between braces: nothing may be added. -/
  | closed
  deriving DecidableEq, Inhabited

/-- A value; numbers with a fraction and dates keep their texts. -/
inductive Value where
  | string (s : String)
  | integer (n : Int)
  | float (text : String)
  | boolean (b : Bool)
  | datetime (text : String)
  | array (xs : List Value)
  | table (kind : TableKind) (fields : List (String × Value))
  /-- Tables opened one after the other by headers in double brackets. -/
  | tables (xs : List (List (String × Value)))
  deriving Inhabited

/-- The keys and values of a table in the order of the text. -/
abbrev Fields := List (String × Value)

namespace Fields

/-- Changes what stands under a key, or appends the key. -/
def alter (k : String) (f : Option Value → Option Value) : Fields → Option Fields
  | [] => (f none).map fun v => [(k, v)]
  | (k', v) :: rest =>
    if k = k' then (f (some v)).map fun v => (k', v) :: rest
    else (alter k f rest).map ((k', v) :: ·)

/-- Changes the table at the end of a path.  Missing tables on the way are made, by a dotted key or
as part of a header; a dotted key may not pass through a table that has a header of its own. -/
def walk (dotted : Bool) (f : TableKind → Fields → Option Fields) :
    List String → TableKind → Fields → Option Fields
  | [], kind, fields => f kind fields
  | k :: ks, _, fields =>
    fields.alter k fun
      | none =>
        let kind := if dotted then TableKind.dotted else .path
        (walk dotted f ks kind []).map (.table kind)
      | some (.table kind inner) =>
        if kind = .closed ∨ (dotted ∧ kind = .header) then none
        else (walk dotted f ks kind inner).map (.table kind)
      | some (.tables xs) =>
        match xs.getLast? with
        | some last => (walk dotted f ks .header last).map fun l => .tables (xs.dropLast ++ [l])
        | none => none
      | some _ => none

/-- Adds a key, possibly dotted, to a table.  The table that a dotted key ends in must be made of
dotted keys, and the key must be new. -/
def set (path : List String) (key : String) (v : Value) (fields : Fields) : Option Fields :=
  walk true
    (fun kind inner =>
      if !path.isEmpty && kind != .dotted then none
      else inner.alter key fun
        | none => some v
        | some _ => none)
    path .header fields

/-- Adds a key to the table that a header has opened. -/
def setUnder (header path : List String) (key : String) (v : Value) (fields : Fields) :
    Option Fields :=
  walk false (fun _ inner => set path key v inner) header .header fields

/-- Opens the table of a header: a new one, or one that was only part of headers so far. -/
def openTable (path : List String) (key : String) (fields : Fields) : Option Fields :=
  walk false
    (fun _ inner => inner.alter key fun
      | none => some (.table .header [])
      | some (.table .path old) => some (.table .header old)
      | some _ => none)
    path .header fields

/-- Opens a further table of an array of tables. -/
def openElement (path : List String) (key : String) (fields : Fields) : Option Fields :=
  walk false
    (fun _ inner => inner.alter key fun
      | none => some (.tables [[]])
      | some (.tables xs) => some (.tables (xs ++ [[]]))
      | some _ => none)
    path .header fields

end Fields

end Replica.Toml
