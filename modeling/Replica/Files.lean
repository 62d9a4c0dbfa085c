/-!
# Files and directories

A place is given by the names on the way to it.  A path gives the way: names between slashes, where
an empty name or a dot stays and two dots go back.

* `Files.makeDirectories` goes along the names of a path and makes the directories that are missing;
* `Files.write?` puts a text at the end of a path, `Files.read?` looks up the text there.

A way leads through directories only, also where it goes back again.
-/

namespace Replica

/-- The names on the way to a directory or text. -/
abbrev Place := List String

namespace Place

/-- Where a name of a path leads from a directory. -/
def step (dir : Place) (name : String) : Place :=
  if name != ".." then dir ++ [name]
  else match dir.getLast? with
    | none | some ".." => dir ++ [".."]
    | some _ => dir.dropLast

end Place

/-! ### Paths -/

namespace Path

/-- The most bytes of a name. -/
def longestName : Nat := 255

/-- More bytes than a path may have. -/
def sizeLimit : Nat := 4096

/-- What stands between the slashes of a path. -/
def segments (path : String) : List String := (path.toList.splitOn '/').map String.ofList

/-- Whether a segment stays where it is. -/
def isStill (segment : String) : Bool := segment == "" || segment == "."

/-- The segments that lead somewhere. -/
def names (path : String) : List String := (segments path).filter (!isStill ·)

/-- The path of the directory of the last name: what stands before it. -/
def parent (path : String) : String :=
  "/".intercalate (((segments path).reverse.dropWhile isStill).drop 1).reverse

/-- Whether a name can be that of a file. -/
def isName (name : String) : Bool :=
  name.utf8ByteSize ≤ longestName && !name.toList.contains '\x00'

/-- Whether the end of a path says that it leads to a directory. -/
def isDirectory (path : String) : Bool :=
  isStill ((segments path).getLastD "") || (names path).getLast? == some ".."

end Path

/-! ### Contents -/

/-- Texts and directories at places. -/
structure Files where
  texts : List (Place × String)
  directories : List Place

namespace Files

/-- An empty directory. -/
def empty : Files := ⟨[], []⟩

/-- Whether a text stands at a place. -/
def isText (files : Files) (place : Place) : Bool := files.texts.any (·.1 == place)

/-- Whether a directory is at a place. -/
def isDirectory (files : Files) (place : Place) : Bool := files.directories.contains place

/-- The files with a directory at a place. -/
def addDirectory (files : Files) (place : Place) : Files :=
  ⟨files.texts, place :: files.directories.filter (· != place)⟩

/-- Goes along names from a directory; what is missing becomes a directory.  A name that is taken by
a text, or can be none, is in the way; the directories made before it stay. -/
def make : List String → Place → Files → Files × Bool
  | [], _, files => (files, true)
  | name :: names, dir, files =>
    let next := dir.step name
    if name == ".." then make names next files
    else if !Path.isName name || files.isText next then (files, false)
    else make names next (files.addDirectory next)

/-- The files with the directories on a path, and whether all of them are there now.  A path that is
too long, or has a zero character, fails as a whole. -/
def makeDirectories (files : Files) (path : String) : Files × Bool :=
  if path.utf8ByteSize < Path.sizeLimit && !path.toList.contains '\x00' then
    files.make (Path.names path) []
  else (files, false)

/-- Where names lead from a directory, if all but the last are there. -/
def follow? (files : Files) : List String → Place → Option Place
  | [], dir => some dir
  | [name], dir => some (dir.step name)
  | name :: names, dir =>
    let next := dir.step name
    if name == ".." || files.isDirectory next then files.follow? names next else none

/-- Where a path leads. -/
def place? (files : Files) (path : String) : Option Place := files.follow? (Path.names path) []

/-- The text at the end of a path. -/
def read? (files : Files) (path : String) : Option String :=
  do files.texts.lookup (← files.place? path)

/-- Where a text can be put at the end of a path. -/
def spot? (files : Files) (path : String) : Option Place := do
  let place ← files.place? path
  if Path.isDirectory path || !(Path.names path).all Path.isName || files.isDirectory place
      || Path.sizeLimit ≤ path.utf8ByteSize then none
  return place

/-- Puts a text at a place, over the one that was there. -/
def put (files : Files) (place : Place) (text : String) : Files :=
  ⟨(place, text) :: files.texts.filter (·.1 != place), files.directories⟩

/-- Puts a text at the end of a path. -/
def write? (files : Files) (path text : String) : Option Files :=
  (files.spot? path).map (files.put · text)

end Files

end Replica
