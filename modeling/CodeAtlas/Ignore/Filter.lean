import CodeAtlas.Files.Entry
import CodeAtlas.Ignore.Glob

/-!
# Ignore filters

A filter is a list of rules, one for each line of an ignore file that holds one. The last rule
that matches a path decides whether the path is ignored. Paths are taken from the root of the
project, and only the path itself is matched, not what it lies in.
-/

namespace CodeAtlas

/-- A rule of a filter. -/
structure Rule where
  pattern : Pattern
  /-- Whether the rule takes paths back in. -/
  includes : Bool
  /-- Whether the rule is about directories only. -/
  onlyDirectories : Bool

/-- The rules of an ignore file, in order. -/
abbrev Filter := List Rule

namespace Rule

/-- A line without its marks: what is left of it, and what the marks say. -/
structure Marked where
  glob : List Char
  includes : Bool := false
  anchored : Bool := false
  onlyDirectories : Bool := false

/-- The ranges of white space characters. -/
def blankRanges : List (Nat × Nat) :=
  [(0x9, 0xD), (0x20, 0x20), (0x85, 0x85), (0xA0, 0xA0), (0x1680, 0x1680), (0x2000, 0x200A),
   (0x2028, 0x2029), (0x202F, 0x202F), (0x205F, 0x205F), (0x3000, 0x3000)]

/-- Whether a character is white space. -/
def isBlank (c : Char) : Bool :=
  blankRanges.any fun (low, high) ↦ low ≤ c.toNat && c.toNat ≤ high

/-- Takes off the white space at the end of a line, unless a backslash keeps the last space. -/
def trimEnd (line : List Char) : List Char :=
  match line.reverse with
  | ' ' :: '\\' :: _ => line
  | reversed => (reversed.dropWhile isBlank).reverse

/-- Takes off a leading slash, which anchors a line at the root. -/
def dropAnchor (includes : Bool) : List Char → Marked
  | '/' :: rest => { glob := rest, includes, anchored := true }
  | glob => { glob, includes }

/-- Takes off the marks at the start of a line: `!`, an escape of `!` or `#`, and a slash. -/
def dropLeading : List Char → Marked
  | '\\' :: '!' :: rest => { glob := '!' :: rest }
  | '\\' :: '#' :: rest => { glob := '#' :: rest }
  | '!' :: rest => dropAnchor true rest
  | glob => dropAnchor false glob

/-- Takes off a slash at the end, which restricts a line to directories, and a backslash
before it. -/
def dropTrailing (m : Marked) : Marked :=
  match m.glob.reverse with
  | '/' :: '\\' :: before => { m with glob := before.reverse, onlyDirectories := true }
  | '/' :: before => { m with glob := before.reverse, onlyDirectories := true }
  | _ => m

/-- The whole glob of a line: a line without a slash inside matches at any depth, and one that
ends in `/**` matches what is inside only. -/
def Marked.whole (m : Marked) : List Char :=
  let anywhere := "**/".toList
  let inside := "/**".toList
  let glob :=
    if m.anchored || m.glob.contains '/' || m.glob = "**".toList then m.glob
    else anywhere ++ m.glob
  if inside.isSuffixOf glob then glob ++ "/*".toList else glob

/-- The rule of a line, if the line holds one. -/
def ofLine? (line : List Char) : Option Rule :=
  if line.head? = some '#' then none
  else
    let line := trimEnd line
    if line.isEmpty then none
    else do
      let m := dropTrailing (dropLeading line)
      return ⟨← Glob.toPattern? m.whole, m.includes, m.onlyDirectories⟩

/-- Whether the rule is about a path. -/
def covers (r : Rule) (bytes : List UInt8) (isDirectory : Bool) : Bool :=
  (!r.onlyDirectories || isDirectory) && r.pattern.accepts bytes

end Rule

namespace Filter

/-- Whether a path is ignored. -/
def ignores (f : Filter) (path : Path) (isDirectory : Bool) : Bool :=
  let bytes := path.toText.toUTF8.toList
  match f.reverse.find? (·.covers bytes isDirectory) with
  | some rule => !rule.includes
  | none => false

/-- The rules of some lines. -/
def ofLines (lines : List String) : Filter :=
  lines.filterMap (Rule.ofLine? ·.toList)

/-! ### Ignore files -/

/-- The parts of a list between the elements of a kind. -/
def splitAll {α : Type} (at? : α → Bool) : List α → List (List α)
  | [] => [[]]
  | a :: rest =>
    if at? a then [] :: splitAll at? rest
    else match splitAll at? rest with
      | [] => [[a]]
      | part :: parts => (a :: part) :: parts

/-- The lines of a file. A carriage return before a line break belongs to the break. -/
def lines (bytes : ByteArray) : List (List UInt8) :=
  let pieces := splitAll (· == 10) bytes.toList
  pieces.dropLast.map (fun line ↦ if line.getLast? = some 13 then line.dropLast else line) ++
    pieces.getLast?.toList

/-- The lines of a file as text, up to the first that is no text. -/
def textLines (bytes : ByteArray) : List String :=
  let texts := (lines bytes).map fun line ↦ String.fromUTF8? ⟨line.toArray⟩
  (texts.takeWhile Option.isSome).filterMap id

/-- The lines of an ignore file without a byte order mark. -/
def fileLines (bytes : ByteArray) : List String :=
  match textLines bytes with
  | [] => []
  | first :: rest => String.ofList (first.toList.dropWhile (· = '\ufeff')) :: rest

/-- The names of ignore files. -/
def fileNames : List String :=
  [".gitignore", ".ignore"]

/-- Directories that hold no sources of a project. -/
def defaults : List String :=
  ["__pycache__/", ".git/", ".hg/", ".venv/", "venv/", ".tox/", ".mypy_cache/", "*.egg-info/"]

/-- The filter of a project: the lines of the ignore files in its root, the defaults, and the
patterns given besides. -/
def ofRoot (root : List Entry) (exclude : List String) : Filter :=
  let read (name : String) : List String :=
    match Entry.read root [name] with
    | .ok bytes => fileLines bytes
    | .error _ => []
  ofLines (fileNames.flatMap read ++ defaults ++ exclude)

end Filter

end CodeAtlas
