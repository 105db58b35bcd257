/-!
# Paths

A path is the list of its components. In the text of a path, repeated slashes count once and
`.` components are left out; a leading slash is a component of its own.

Components are texts, as the names of entries are, and `toText` gives back every one of them as
it is. A path whose components are bytes but no text has no counterpart here.
-/

namespace CodeAtlas

/-- A path as its components, outermost first. -/
abbrev Path := List String

namespace Path

/-- The pieces of a text between its slashes. -/
def pieces (text : String) : List String :=
  text.splitOn "/"

/-- The components of the text of a path. -/
def ofText (text : String) : Path :=
  let root := if text.startsWith "/" then ["/"] else []
  root ++ (pieces text).filter fun piece ↦ piece != "" && piece != "."

/-- The text of a path. -/
def toText (path : Path) : String :=
  "/".intercalate path

/-- The text of a path with another below it, unless that starts at the top. -/
def join (base below : String) : String :=
  if below.startsWith "/" || base == "" then below
  else if base.endsWith "/" then base ++ below
  else base ++ "/" ++ below

/-- The extension of a file name: what follows its last dot, unless that dot is its first
character or there is none. -/
def extension? (file : String) : Option String :=
  let tail := file.toList.reverse.takeWhile (· != '.')
  if tail.length + 1 < file.length then some (String.ofList tail.reverse) else none

end Path

end CodeAtlas
