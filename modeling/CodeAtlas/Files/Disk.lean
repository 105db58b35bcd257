import CodeAtlas.Files.Entry

/-!
# Disks

A disk is a tree of files and directories together with the directory in which work is done.
Texts of paths are followed from there, or from the top if they start with a slash. Every
component before the last has to be a directory; `..` leads to the directory around it, and
empty components and `.` lead nowhere else.
-/

namespace CodeAtlas

/-- The entries at the top, the text that stands for the top, and the working directory. -/
structure Disk where
  entries : List Entry
  top : String := ""
  workDirectory : Path := []

namespace Disk

/-- The text of a path from the top. -/
def shown (d : Disk) (path : Path) : String :=
  d.top ++ path.toText

/-- Where the text of a path is followed from. -/
def start (d : Disk) (text : String) : Path :=
  if text.startsWith "/" then [] else d.workDirectory

/-- Follows the components of a path. -/
def follow (d : Disk) (here : Path) : List String → Except FileError Path
  | [] => .ok here
  | piece :: rest => do
    let entries ← Entry.list d.entries here
    if piece = "" || piece = "." then follow d here rest
    else if piece = ".." then follow d here.dropLast rest
    else if (Entry.find? entries piece).isSome then follow d (here ++ [piece]) rest
    else .error .notFound

/-- The path from the top of what the text of a path leads to. -/
def locate (d : Disk) (text : String) : Except FileError Path :=
  if text = "" then .error .notFound else d.follow (d.start text) (Path.pieces text)

/-- Whether the text of a path leads to something. -/
def has (d : Disk) (text : String) : Bool :=
  (d.locate text).isOk

/-- Reads the text of a file. -/
def readText (d : Disk) (text : String) : Except FileError String := do
  Entry.readText d.entries (← d.locate text)

/-- Writes a file into a directory that is there. A path that ends in a slash is not that of a
file. -/
def write (d : Disk) (text : String) (bytes : ByteArray) : Except FileError Disk := do
  let pieces := Path.pieces text
  let named := (pieces.reverse.dropWhile (· = "")).reverse
  match named.getLast? with
  | none => .error (if text = "" then .notFound else .isDirectory)
  | some name =>
    let parent ← d.follow (d.start text) named.dropLast
    if name = "." || name = ".." then .error .isDirectory
    else if named.length < pieces.length then
      .error (if (Entry.read d.entries (parent ++ [name])).isOk then .notDirectory
        else .isDirectory)
    else return { d with entries := ← Entry.write d.entries bytes (parent ++ [name]) }

/-- Makes the directories of a path that are not there. -/
def makeDirectories (d : Disk) (here : Path) : List String → Except FileError Disk
  | [] => .ok d
  | piece :: rest =>
    if piece = "" || piece = "." then makeDirectories d here rest
    else if piece = ".." then makeDirectories d here.dropLast rest
    else
      match Entry.makeDirectory d.entries (here ++ [piece]) with
      | .ok entries => makeDirectories { d with entries } (here ++ [piece]) rest
      | .error .taken => .error (if rest.isEmpty then .taken else .notDirectory)
      | .error e => .error e

/-- Makes the directory at a path, and those above it. -/
def makeDirectory (d : Disk) (text : String) : Except FileError Disk :=
  d.makeDirectories (d.start text) (Path.pieces text)

/-- The files that another disk has and this one has not, or has with other contents. -/
def changes (old new : Disk) : List (Path × ByteArray) :=
  let before := Entry.filesOfList [] old.entries
  (Entry.filesOfList [] new.entries).filter fun (path, bytes) ↦
    !before.any fun (oldPath, oldBytes) ↦ oldPath == path && oldBytes == bytes

end Disk

end CodeAtlas
