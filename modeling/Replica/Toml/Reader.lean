import Replica.Toml.Scalar

/-!
# Reading TOML

`Toml.parse?` reads a document, or fails if any part of it breaks the rules, a key that is given
twice among them.  A byte order mark may stand in front.  Each step takes the characters that are
left and returns the rest.
-/

namespace Replica.Toml

namespace Reader

/-! ### Blanks, comments and line ends -/

/-- Drops spaces and tabs. -/
def skipSpaces (cs : List Char) : List Char := cs.dropWhile fun c => c == ' ' || c == '\t'

/-- Whether a character may stand in a comment or a string: no control but the tab. -/
def isText (c : Char) : Bool := c == '\t' || (c.toNat ≥ 0x20 && c.toNat != 0x7F)

/-- What follows a line end, if one stands in front. -/
def lineEnd? : List Char → Option (List Char)
  | '\n' :: cs => some cs
  | '\r' :: '\n' :: cs => some cs
  | _ => none

/-- Drops a comment, if one stands in front. -/
def skipComment : List Char → List Char
  | '#' :: cs => cs.dropWhile isText
  | cs => cs

/-- The rest of a line: spaces, a comment, and the line end or the end of the text. -/
def endOfLine? (cs : List Char) : Option (List Char) :=
  match skipComment (skipSpaces cs) with
  | [] => some []
  | cs => lineEnd? cs

/-- Drops spaces, comments and line ends. -/
def skipLines : Nat → List Char → List Char
  | 0, cs => cs
  | fuel + 1, cs =>
    let cs := skipComment (skipSpaces cs)
    match lineEnd? cs with
    | some rest => skipLines fuel rest
    | none => cs

/-! ### Strings -/

/-- The character of a code number, if it has one. -/
def scalar? (n : Nat) : Option Char := if n.isValidChar then some (Char.ofNat n) else none

/-- The character of an escape after its backslash. -/
def escape? : List Char → Option (Char × List Char)
  | 'b' :: cs => some ('\x08', cs)
  | 't' :: cs => some ('\t', cs)
  | 'n' :: cs => some ('\n', cs)
  | 'f' :: cs => some ('\x0c', cs)
  | 'r' :: cs => some ('\r', cs)
  | '"' :: cs => some ('"', cs)
  | '\\' :: cs => some ('\\', cs)
  | 'u' :: cs => do
    if cs.length < 4 then none
    return (← scalar? (← Text.hexValue? (cs.take 4)), cs.drop 4)
  | 'U' :: cs => do
    if cs.length < 8 then none
    return (← scalar? (← Text.hexValue? (cs.take 8)), cs.drop 8)
  | _ => none

/-- A string between double quotes, after the opening one. -/
def basic (acc : List Char) : Nat → List Char → Option (String × List Char)
  | 0, _ => none
  | _ + 1, [] => none
  | _ + 1, '"' :: cs => some (String.ofList acc.reverse, cs)
  | fuel + 1, '\\' :: cs => do
    let (c, rest) ← escape? cs
    basic (c :: acc) fuel rest
  | fuel + 1, c :: cs => if isText c then basic (c :: acc) fuel cs else none

/-- A string between single quotes, after the opening one. -/
def literal (cs : List Char) : Option (String × List Char) :=
  match cs.dropWhile fun c => c != '\'' && isText c with
  | '\'' :: rest => some (String.ofList (cs.takeWhile fun c => c != '\'' && isText c), rest)
  | _ => none

/-- The quotes at the end of a string over several lines: three close it, up to two more before them
belong to it. -/
def closing (quote : Char) (acc cs : List Char) : Option (String × List Char) :=
  let run := (cs.takeWhile (· == quote)).length
  if run < 3 then none
  else
    let own := min (run - 3) 2
    some (String.ofList (List.replicate own quote ++ acc).reverse, cs.drop (own + 3))

/-- A line end after a backslash, with all blanks and line ends behind it. -/
def continuation? (cs : List Char) : Option (List Char) := do
  let rest ← lineEnd? (skipSpaces cs)
  let blank (c : Char) : Bool := c == ' ' || c == '\t' || c == '\n'
  -- a carriage return goes only in front of a line feed
  let rec skip : Nat → List Char → List Char
    | 0, cs => cs
    | fuel + 1, cs =>
      match cs with
      | '\r' :: '\n' :: r => skip fuel r
      | c :: r => if blank c then skip fuel r else cs
      | [] => []
  return skip rest.length rest

/-- A string over several lines between threefold double quotes, after the opening ones. -/
def basicLines (acc : List Char) : Nat → List Char → Option (String × List Char)
  | 0, _ => none
  | fuel + 1, cs =>
    match closing '"' acc cs with
    | some r => some r
    | none =>
      match lineEnd? cs, cs with
      | some rest, _ => basicLines ('\n' :: acc) fuel rest
      | none, '\\' :: rest =>
        match continuation? rest, escape? rest with
        | some rest, _ => basicLines acc fuel rest
        | none, some (c, rest) => basicLines (c :: acc) fuel rest
        | none, none => none
      | none, c :: rest => if isText c then basicLines (c :: acc) fuel rest else none
      | none, [] => none

/-- A string over several lines between threefold single quotes, after the opening ones. -/
def literalLines (acc : List Char) : Nat → List Char → Option (String × List Char)
  | 0, _ => none
  | fuel + 1, cs =>
    match closing '\'' acc cs with
    | some r => some r
    | none =>
      match lineEnd? cs, cs with
      | some rest, _ => literalLines ('\n' :: acc) fuel rest
      | none, c :: rest => if isText c then literalLines (c :: acc) fuel rest else none
      | none, [] => none

/-- The first line end of a string over several lines does not count. -/
def dropLineEnd (cs : List Char) : List Char := (lineEnd? cs).getD cs

/-- A string of any of the four kinds. -/
def string : List Char → Option (String × List Char)
  | '"' :: '"' :: '"' :: cs => basicLines [] (cs.length + 1) (dropLineEnd cs)
  | '\'' :: '\'' :: '\'' :: cs => literalLines [] (cs.length + 1) (dropLineEnd cs)
  | '"' :: cs => basic [] (cs.length + 1) cs
  | '\'' :: cs => literal cs
  | _ => none

/-! ### Keys -/

/-- Whether a character may stand in a key without quotes. -/
def isBareChar (c : Char) : Bool := c.isAlphanum || c == '-' || c == '_'

/-- One part of a key: a word, or a string on one line. -/
def simpleKey (cs : List Char) : Option (String × List Char) :=
  match cs with
  | '"' :: r => basic [] (r.length + 1) r
  | '\'' :: r => literal r
  | cs =>
    match cs.takeWhile isBareChar with
    | [] => none
    | w => some (String.ofList w, cs.dropWhile isBareChar)

/-- One more than the deepest nesting of values, and than the most parts of a key. -/
def nestingLimit : Nat := 80

/-- A key with its parts, spaces around the dots and behind it dropped. -/
def dottedKey : Nat → List Char → Option (List String × List Char)
  | 0, _ => none
  | fuel + 1, cs => do
    let (k, rest) ← simpleKey (skipSpaces cs)
    match skipSpaces rest with
    | '.' :: rest =>
      let (ks, rest) ← dottedKey fuel rest
      return (k :: ks, rest)
    | rest => return ([k], rest)

/-- The parts of a key before the last one, and the last. -/
def key (cs : List Char) : Option ((List String × String) × List Char) := do
  let (ks, rest) ← dottedKey (nestingLimit - 1) cs
  let last ← ks.getLast?
  return ((ks.dropLast, last), rest)

/-! ### Values -/

/-- A scalar without quotes.  After a day, a space may go before the time of day. -/
def scalar (cs : List Char) : Option (Value × List Char) :=
  let word := cs.takeWhile Scalar.isWordChar
  let rest := cs.dropWhile Scalar.isWordChar
  match Scalar.isDate word, rest with
  | true, ' ' :: r =>
    match r with
    | a :: b :: ':' :: _ =>
      if a.isDigit && b.isDigit then
        (Scalar.value? (word ++ ' ' :: r.takeWhile Scalar.isWordChar)).map
          (·, r.dropWhile Scalar.isWordChar)
      else (Scalar.value? word).map (·, rest)
    | _ => (Scalar.value? word).map (·, rest)
  | _, _ => (Scalar.value? word).map (·, rest)

mutual

/-- A value, containers nesting at most `depth` deep. -/
def value : Nat → Nat → List Char → Option (Value × List Char)
  | 0, _, _ => none
  | fuel + 1, depth, cs =>
    match cs with
    | '"' :: _ | '\'' :: _ => (string cs).map fun (s, r) => (.string s, r)
    | '[' :: r =>
      if depth = 0 then none
      else (elements fuel (depth - 1) r).map fun (xs, r) => (.array xs, r)
    | '\x7b' :: r =>
      if depth = 0 then none
      else match skipSpaces r with
        | '\x7d' :: r => some (.table .closed [], r)
        | r => (inlineFields fuel (depth - 1) [] r).map fun (fs, r) => (.table .closed fs, r)
    | cs => scalar cs

/-- The elements of an array up to its closing bracket; a comma may stand after the last one. -/
def elements : Nat → Nat → List Char → Option (List Value × List Char)
  | 0, _, _ => none
  | fuel + 1, depth, cs =>
    match skipLines cs.length cs with
    | ']' :: r => some ([], r)
    | cs => do
      let (x, r) ← value fuel depth cs
      match skipLines r.length r with
      | ']' :: r => return ([x], r)
      | ',' :: r =>
        let (xs, r) ← elements fuel depth r
        return (x :: xs, r)
      | _ => none

/-- The fields of a table between braces up to the closing one, on one line. -/
def inlineFields : Nat → Nat → Fields → List Char → Option (Fields × List Char)
  | 0, _, _, _ => none
  | fuel + 1, depth, fields, cs => do
    let ((path, k), r) ← key cs
    let '=' :: r := r | none
    let (v, r) ← value fuel depth (skipSpaces r)
    let fields ← fields.set path k v
    match skipSpaces r with
    | '\x7d' :: r => return (fields, r)
    | ',' :: r => inlineFields fuel depth fields r
    | _ => none

end

/-! ### Lines -/

/-- One line of a document: the header that keys stand under, and the fields so far, after it. -/
def line (header : List String) (fields : Fields) (cs : List Char) :
    Option ((List String × Fields) × List Char) :=
  match skipSpaces cs with
  | '[' :: '[' :: r => do
    let ((path, k), r) ← key r
    let ']' :: ']' :: r := r | none
    return ((path ++ [k], ← fields.openElement path k), ← endOfLine? r)
  | '[' :: r => do
    let ((path, k), r) ← key r
    let ']' :: r := r | none
    return ((path ++ [k], ← fields.openTable path k), ← endOfLine? r)
  | cs =>
    match endOfLine? cs with
    | some rest => some ((header, fields), rest)
    | none => do
      let ((path, k), r) ← key cs
      let '=' :: r := r | none
      let (v, r) ← value (2 * r.length + 2) (nestingLimit - 1) (skipSpaces r)
      return ((header, ← fields.setUnder header path k v), ← endOfLine? r)

/-- All lines. -/
def lines : Nat → List String → Fields → List Char → Option Fields
  | 0, _, fields, cs => if cs.isEmpty then some fields else none
  | fuel + 1, header, fields, cs =>
    if cs.isEmpty then some fields
    else do
      let ((header, fields), rest) ← line header fields cs
      lines fuel header fields rest

end Reader

/-- Reads a document; the result is its top-level keys and values. -/
def parse? (s : String) : Option Fields :=
  let cs := match s.toList with
    | '\ufeff' :: cs => cs
    | cs => cs
  Reader.lines cs.length [] [] cs

end Replica.Toml
