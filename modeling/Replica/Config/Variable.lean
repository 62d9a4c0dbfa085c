import Replica.Config.Layer
import Replica.Text.Blank

/-!
# Environment variables as a layer

A variable whose name begins with `KCACHE_`, in any case, sets the key of the rest of its name in
lower case.  Its text is read as a truth value, a list in brackets, a table in braces, a string or a
character in quotes, a number, or else as a text without the blanks around it.  A text that has none
of these forms as a whole stands for itself, blanks included.

A quoted string without escapes stands as it is.  In one with escapes, what comes before the first
of them is kept only as far as its first bytes, as many as it has characters; if that would cut a
character, the text cannot be read at all.
-/

namespace Replica.Variable

/-- What the names of the variables begin with. -/
def namePrefix : String := "KCACHE_"

/-! ### Texts without quotes -/

/-- Whether a text is a number with a point. -/
def isPointed (cs : List Char) : Bool :=
  let cs := match cs with
    | '+' :: r | '-' :: r => r
    | r => r
  let whole := cs.takeWhile Char.isDigit
  match cs.dropWhile Char.isDigit with
  | '.' :: r =>
    let fraction := r.takeWhile Char.isDigit
    !(whole.isEmpty && fraction.isEmpty) &&
      match r.dropWhile Char.isDigit with
      | [] => true
      | e :: r =>
        let digits := match r with
          | '+' :: r | '-' :: r => r
          | r => r
        (e == 'e' || e == 'E') && !digits.isEmpty && digits.all Char.isDigit
  | _ => false

/-- The whole number of a text: digits after one sign, within 64 bits, negative ones with sign. -/
def wholeNumber? (cs : List Char) : Option Int :=
  let (negative, ds) := match cs with
    | '-' :: r => (true, r)
    | '+' :: r => (false, r)
    | r => (false, r)
  let n : Int := ds.foldl (fun n c => 10 * n + (c.toNat - '0'.toNat : Nat)) 0
  if ds.isEmpty || !ds.all Char.isDigit then none
  else if negative then if n ≤ Nat.pow 2 63 then some (-n) else none
  else if n < Nat.pow 2 64 then some n
  else none

/-- The setting of a text without quotes. -/
def plain (cs : List Char) : Setting :=
  let cs := Text.trim Text.isBlank cs
  if isPointed cs then .other
  else match wholeNumber? cs with
    | some n => .whole n
    | none => .text (String.ofList cs)

/-! ### Structured texts -/

/-- Why a text gives no value. -/
inductive Fault where
  /-- It has not the form of a value, and so stands for itself. -/
  | noValue
  /-- Text before an escape would have to be cut inside a character. -/
  | cutCharacter
  deriving DecidableEq, Inhabited

/-- A result, unless there is none. -/
def orNoValue {α : Type} : Option α → Except Fault α
  | some a => .ok a
  | none => .error .noValue

/-- Drops blanks. -/
def skipBlanks (cs : List Char) : List Char := cs.dropWhile Text.isAsciiBlank

/-- The text before a closing quote as it stands, and the rest behind the quote.  A backslash takes
the next character along. -/
def untilQuote? : List Char → Option (List Char × List Char)
  | [] => none
  | '"' :: cs => some ([], cs)
  | '\\' :: c :: cs => (untilQuote? cs).map fun (t, rest) => ('\\' :: c :: t, rest)
  | c :: cs => (untilQuote? cs).map fun (t, rest) => (c :: t, rest)

/-- The characters that make up the first bytes of a text, if these end with a character. -/
def firstBytes? : Nat → List Char → Option (List Char)
  | 0, _ | _, [] => some []
  | n, c :: cs =>
    if c.utf8Size ≤ n then (firstBytes? (n - c.utf8Size) cs).map (c :: ·) else none

/-- A text with its escapes replaced. -/
def unescape? : Nat → List Char → Option (List Char)
  | 0, _ => none
  | _ + 1, [] => some []
  | fuel + 1, '\\' :: cs => do
    let (c, rest) ← Toml.Reader.escape? cs
    return c :: (← unescape? fuel rest)
  | fuel + 1, c :: cs => if Toml.Reader.isText c then (unescape? fuel cs).map (c :: ·) else none

/-- The string of a text between quotes. -/
def unquoted (cs : List Char) : Except Fault String := do
  let start := cs.takeWhile (· != '\\')
  let escaped := cs.dropWhile (· != '\\')
  if !start.all Toml.Reader.isText then .error .noValue
  else if escaped.isEmpty then .ok (String.ofList start)
  else match firstBytes? start.length start with
    | none => .error .cutCharacter
    | some kept => do
      let rest ← orNoValue (unescape? (escaped.length + 1) escaped)
      return String.ofList (kept ++ rest)

/-- A string up to its closing quote. -/
def quotedText (cs : List Char) : Except Fault (String × List Char) := do
  let (inner, rest) ← orNoValue (untilQuote? cs)
  return (← unquoted inner, rest)

/-- What is left after a key of a table and the blanks around it. -/
def tableKey (cs : List Char) : Except Fault (List Char) :=
  match skipBlanks cs with
  | '"' :: r => (quotedText r).map fun (_, r) => skipBlanks r
  | cs =>
    let isNameChar (c : Char) : Bool := c.isAlphanum || c == '_' || c == '-'
    if (cs.takeWhile isNameChar).isEmpty then .error .noValue
    else .ok (skipBlanks (cs.dropWhile isNameChar))

/-- Whether a character ends a text without quotes. -/
def isSeparator (c : Char) : Bool :=
  c == ',' || c == '[' || c == ']' || c == '\x7b' || c == '\x7d'

/-- What is left after a word in front. -/
def afterWord? (w : String) (cs : List Char) : Option (List Char) :=
  if w.toList.isPrefixOf cs then some (cs.drop w.length) else none

mutual

/-- A value, with the blanks around it. -/
def value : Nat → List Char → Except Fault (Setting × List Char)
  | 0, _ => .error .noValue
  | fuel + 1, cs => do
    let (v, rest) ← bareValue fuel (skipBlanks cs)
    return (v, skipBlanks rest)

/-- A value without the blanks around it. -/
def bareValue : Nat → List Char → Except Fault (Setting × List Char)
  | 0, _ => .error .noValue
  | fuel + 1, cs =>
    match (afterWord? "true" cs).or (afterWord? "false" cs), cs with
    | some rest, _ => .ok (.other, rest)
    | none, '\x7b' :: r => (entries fuel r).map (.other, ·)
    | none, '[' :: r => (elements fuel r).map (.other, ·)
    | none, '"' :: r => (quotedText r).map fun (s, r) => (.text s, r)
    | none, '\'' :: r =>
      match r with
      | c :: '\'' :: r => .ok (.text (String.ofList [c]), r)
      | _ => .error .noValue
    | none, cs =>
      .ok (plain (cs.takeWhile (!isSeparator ·)), cs.dropWhile (!isSeparator ·))

/-- What is left after the elements of a list and its closing bracket; a comma may come before
that. -/
def elements : Nat → List Char → Except Fault (List Char)
  | 0, _ => .error .noValue
  | _ + 1, ']' :: r => .ok r
  | fuel + 1, cs => do
    let (_, rest) ← value fuel cs
    match rest with
    | ',' :: r => elements fuel r
    | ']' :: r => .ok r
    | _ => .error .noValue

/-- What is left after the entries of a table and its closing brace; a comma may come before
that. -/
def entries : Nat → List Char → Except Fault (List Char)
  | 0, _ => .error .noValue
  | _ + 1, '\x7d' :: r => .ok r
  | fuel + 1, cs => do
    let '=' :: rest ← tableKey cs | .error .noValue
    let (_, rest) ← value fuel rest
    match rest with
    | ',' :: r => entries fuel r
    | '\x7d' :: r => .ok r
    | _ => .error .noValue

end

/-- The setting of the text of a variable. -/
def setting (s : String) : Except Fault Setting :=
  match value (4 * s.length + 4) s.toList with
  | .ok (v, []) => .ok v
  | .error .cutCharacter => .error .cutCharacter
  | _ => .ok (.text s)

/-! ### Variables -/

/-- The key that a variable sets, in parts at its dots; none if it does not begin as it must, or if
a part is empty. -/
def keyParts? (name : String) : Option (List String) :=
  let lower := (Text.trim Text.isBlank name.toList).map Char.toLower
  let start := namePrefix.toList.map Char.toLower
  if start.isPrefixOf lower then
    let key := Text.trim Text.isBlank (lower.drop start.length)
    let parts := (key.splitOn '.').map String.ofList
    if parts.any String.isEmpty then none else some parts
  else none

/-- The layer of a list of variables; of several that set one key the last counts.  A key in parts
makes its first part a table. -/
def layer (env : List (String × String)) : Except Fault Layer := do
  let settings ← env.filterMapM fun v =>
    match keyParts? v.1 with
    | some (key :: more) => do
      let s ← setting v.2
      return some (key, if more.isEmpty then s else .other)
    | _ => return none
  return .ofList settings

end Replica.Variable
