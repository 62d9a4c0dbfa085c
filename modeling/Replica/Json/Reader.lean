import Replica.Json.Basic
import Replica.Json.Double
import Replica.Text.Hex

/-!
# Reading JSON

`Json.parse?` reads a whole text under the strict grammar: blanks are the space, tab, line feed and
carriage return, and strings hold no raw controls.  Each step takes the characters that are left and
returns the rest.

What is well formed but stands for no value is read as unfit: a string, or an object with a name, in
which half a surrogate pair stands alone; a number too large for a double; an array or object inside
127 others.
-/

namespace Replica.Json.Reader

/-- Drops blanks. -/
def skipBlanks (cs : List Char) : List Char :=
  cs.dropWhile fun c => c == ' ' || c == '\n' || c == '\t' || c == '\r'

/-- The number of a digit. -/
def digitValue (c : Char) : Nat := c.toNat - '0'.toNat

/-- The digits in front, as numbers. -/
def takeDigits (cs : List Char) : List Nat × List Char :=
  ((cs.takeWhile Char.isDigit).map digitValue, cs.dropWhile Char.isDigit)

/-- The natural number of a list of digits. -/
def natOfDigits (ds : List Nat) : Nat := ds.foldl (fun n d => 10 * n + d) 0

/-! ### Numbers -/

/-- The fraction of a number, if one follows: a point and at least one digit. -/
def fraction : List Char → Option (List Nat × List Char)
  | '.' :: cs =>
    match takeDigits cs with
    | ([], _) => none
    | (ds, rest) => some (ds, rest)
  | cs => some ([], cs)

/-- The exponent of a number, if one follows. -/
def exponent (cs : List Char) : Option (Option Int × List Char) :=
  match cs with
  | 'e' :: r | 'E' :: r =>
    let (negative, r) := match r with
      | '-' :: r => (true, r)
      | '+' :: r => (false, r)
      | r => (false, r)
    match takeDigits r with
    | ([], _) => none
    | (ds, rest) =>
      let n : Int := natOfDigits ds
      some (some (if negative then -n else n), rest)
  | cs => some (none, cs)

/-- The exponent bits of a double, all of them set in an infinity. -/
def exponentMask : UInt64 := 0x7FF0000000000000

/-- Whether a double is neither infinite nor not-a-number. -/
def isFinite (bits : UInt64) : Bool := bits &&& exponentMask != exponentMask

/-- A number from its parts.  It is whole and exact if it has neither fraction nor exponent and fits
into 64 bits; a negative zero is a double. -/
def ofParts (negative : Bool) (whole frac : List Nat) (e : Option Int) : Json :=
  let n := natOfDigits whole
  let exact := frac.isEmpty && e.isNone
  if exact && !negative && n < Nat.pow 2 64 then .int n
  else if exact && negative && n != 0 && n ≤ Nat.pow 2 63 then .int (-(n : Int))
  else
    let bits := (doubleOfDigits negative whole frac (e.getD 0)).toBits
    if isFinite bits then .double bits else .unfit

/-- A number after its sign. -/
def number (negative : Bool) (cs : List Char) : Option (Json × List Char) := do
  let (whole, rest) := takeDigits cs
  if whole.isEmpty || (whole.length > 1 && whole.head? == some 0) then none
  let (frac, rest) ← fraction rest
  let (e, rest) ← exponent rest
  return (ofParts negative whole frac e, rest)

/-! ### Strings -/

/-- The character of a short escape. -/
def shortEscape? : Char → Option Char
  | '"' => some '"'
  | '\\' => some '\\'
  | '/' => some '/'
  | 'b' => some '\x08'
  | 'f' => some '\x0c'
  | 'n' => some '\n'
  | 'r' => some '\r'
  | 't' => some '\t'
  | _ => none

/-- The code point of a high and a low surrogate. -/
def joinSurrogates (high low : Nat) : Nat := 0x10000 + (high - 0xD800) * 0x400 + (low - 0xDC00)

/-- The characters of a string up to its closing quote, collected in reverse; `whole` tells that no
half of a surrogate pair has stood alone so far.  If one does, there is no string. -/
def string (whole : Bool) (acc : List Char) : List Char → Option (Option String × List Char)
  | [] => none
  | '"' :: rest => some (if whole then some (String.ofList acc.reverse) else none, rest)
  | '\\' :: 'u' :: a :: b :: c :: d :: rest => do
    let n ← Text.hexValue? [a, b, c, d]
    if n < 0xD800 || 0xDFFF < n then string whole (Char.ofNat n :: acc) rest
    else if 0xDBFF < n then string false acc rest
    else match rest with
      | '\\' :: 'u' :: a :: b :: c :: d :: rest => do
        let m ← Text.hexValue? [a, b, c, d]
        if m < 0xDC00 || 0xDFFF < m then string false acc rest
        else string whole (Char.ofNat (joinSurrogates n m) :: acc) rest
      | rest => string false acc rest
  | '\\' :: c :: rest => do string whole ((← shortEscape? c) :: acc) rest
  | c :: rest => if c.toNat < 0x20 then none else string whole (c :: acc) rest

/-! ### Values -/

/-- Drops a word that must stand in front. -/
def word (w : List Char) (j : Json) (cs : List Char) : Option (Json × List Char) :=
  if w.isPrefixOf cs then some (j, cs.drop w.length) else none

/-- An array or object, where `depth` more may nest. -/
def nested (depth : Nat) (j : Json) : Json := if depth = 0 then .unfit else j

mutual

/-- A value, containers nesting at most `depth` deep. -/
def value : Nat → Nat → List Char → Option (Json × List Char)
  | 0, _, _ => none
  | fuel + 1, depth, cs =>
    match skipBlanks cs with
    | 'n' :: r => word ['u', 'l', 'l'] .null r
    | 't' :: r => word ['r', 'u', 'e'] (.bool true) r
    | 'f' :: r => word ['a', 'l', 's', 'e'] (.bool false) r
    | '"' :: r => (string true [] r).map fun (s, r) => ((s.map .str).getD .unfit, r)
    | '-' :: r => number true r
    | '[' :: r =>
      match skipBlanks r with
      | ']' :: r => some (nested depth (.arr []), r)
      | _ => (elements fuel (depth - 1) r).map fun (xs, r) => (nested depth (.arr xs), r)
    | '\x7b' :: r =>
      match skipBlanks r with
      | '\x7d' :: r => some (nested depth (.obj []), r)
      | _ => (members fuel (depth - 1) r).map fun (fs, r) =>
          (nested depth ((fs.map .obj).getD .unfit), r)
    | cs => number false cs

/-- The values of an array up to its closing bracket, at least one. -/
def elements : Nat → Nat → List Char → Option (List Json × List Char)
  | 0, _, _ => none
  | fuel + 1, depth, cs => do
    let (x, r) ← value fuel depth cs
    match skipBlanks r with
    | ']' :: r => return ([x], r)
    | ',' :: r =>
      let (xs, r) ← elements fuel depth r
      return (x :: xs, r)
    | _ => none

/-- The fields of an object up to its closing brace, at least one.  If a name is no string there are
no fields. -/
def members : Nat → Nat → List Char → Option (Option (List (String × Json)) × List Char)
  | 0, _, _ => none
  | fuel + 1, depth, cs => do
    let '"' :: r := skipBlanks cs | none
    let (k, r) ← string true [] r
    let ':' :: r := skipBlanks r | none
    let (x, r) ← value fuel depth r
    match skipBlanks r with
    | '\x7d' :: r => return (k.map fun k => [(k, x)], r)
    | ',' :: r =>
      let (fs, r) ← members fuel depth r
      return (do return (← k, x) :: (← fs), r)
    | _ => none

end

end Reader

/-- The deepest nesting of arrays and objects with a value. -/
def maxDepth : Nat := 127

/-- Reads a whole text as one value. -/
def parse? (s : String) : Option Json := do
  let cs := s.toList
  let (j, rest) ← Reader.value (2 * cs.length + 2) maxDepth cs
  if (Reader.skipBlanks rest).isEmpty then some j else none

end Replica.Json
