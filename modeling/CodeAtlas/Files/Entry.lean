import CodeAtlas.Files.Path

/-!
# Directory entries

Files and directories as a tree. The entries of a directory have different names and are kept
in the order of their names, so that a directory is listed by reading its entries in order.

## What is left out

* A name is a text. On a real disk it is a string of bytes, and one that is no text would be
  shown with replacement characters; such names are not entries here.
* Every entry can be read. Listing a directory never fails, and reading a file fails only for
  the reasons of `FileError`: the path leads nowhere or to a directory, or the bytes are no
  text. Missing permissions, devices that fail and trees that change while they are walked are
  not modelled, so building a namespace fails over the contents of a source file and never over
  the walk to it.
* An entry is a file or a directory. There are no links and no special files.
-/

namespace CodeAtlas

/-- An entry of a directory. -/
inductive Entry where
  | file (name : String) (bytes : ByteArray)
  | directory (name : String) (entries : List Entry)

/-- Why a file cannot be used. -/
inductive FileError where
  | notFound
  | taken
  | notDirectory
  | isDirectory
  | notText
deriving DecidableEq, Repr

/-- The wording of an error. -/
def FileError.message : FileError → String
  | notFound => "No such file or directory (os error 2)"
  | taken => "File exists (os error 17)"
  | notDirectory => "Not a directory (os error 20)"
  | isDirectory => "Is a directory (os error 21)"
  | notText => "stream did not contain valid UTF-8"

namespace Entry

def name : Entry → String
  | file name _ => name
  | directory name _ => name

def isDirectory : Entry → Bool
  | file .. => false
  | directory .. => true

/-- The entry of a name. -/
def find? (entries : List Entry) (name : String) : Option Entry :=
  entries.find? (·.name == name)

/-- Adds an entry at its place, instead of one of the same name. -/
def put (e : Entry) : List Entry → List Entry
  | [] => [e]
  | other :: rest =>
    if e.name < other.name then e :: other :: rest
    else if e.name = other.name then e :: rest
    else other :: put e rest

/-- The entries of the directory at a path. -/
def list (entries : List Entry) : Path → Except FileError (List Entry)
  | [] => .ok entries
  | name :: rest =>
    match find? entries name with
    | none => .error .notFound
    | some (file ..) => .error .notDirectory
    | some (directory _ inner) => list inner rest

/-- The contents of the file at a path. -/
def read (entries : List Entry) : Path → Except FileError ByteArray
  | [] => .error .isDirectory
  | [name] =>
    match find? entries name with
    | none => .error .notFound
    | some (file _ bytes) => .ok bytes
    | some (directory ..) => .error .isDirectory
  | name :: rest =>
    match find? entries name with
    | none => .error .notFound
    | some (file ..) => .error .notDirectory
    | some (directory _ inner) => read inner rest

/-- The text of a file's contents. -/
def decode (bytes : ByteArray) : Except FileError String :=
  match String.fromUTF8? bytes with
  | some text => .ok text
  | none => .error .notText

/-- The text of the file at a path. -/
def readText (entries : List Entry) (path : Path) : Except FileError String := do
  decode (← read entries path)

/-- Makes a directory at a path, and those above it. -/
def makeDirectory (entries : List Entry) : Path → Except FileError (List Entry)
  | [] => .ok entries
  | name :: rest =>
    match find? entries name with
    | none => return put (directory name (← makeDirectory [] rest)) entries
    | some (file ..) => .error (if rest.isEmpty then .taken else .notDirectory)
    | some (directory _ inner) => return put (directory name (← makeDirectory inner rest)) entries

/-- Writes a file into a directory that is there. -/
def write (entries : List Entry) (bytes : ByteArray) : Path → Except FileError (List Entry)
  | [] => .error .isDirectory
  | [name] =>
    match find? entries name with
    | some (directory ..) => .error .isDirectory
    | _ => .ok (put (file name bytes) entries)
  | name :: rest =>
    match find? entries name with
    | none => .error .notFound
    | some (file ..) => .error .notDirectory
    | some (directory _ inner) => return put (directory name (← write inner bytes rest)) entries

/-- Puts an entry into the directory at a path, which is made if it is not there. -/
def mount (entries : List Entry) (e : Entry) : Path → List Entry
  | [] => put e entries
  | name :: rest =>
    let inner := match find? entries name with
      | some (directory _ inner) => inner
      | _ => []
    put (directory name (mount inner e rest)) entries

/-- Removes the file or directory at a path. -/
def remove (entries : List Entry) : Path → List Entry
  | [] => entries
  | [name] => entries.filter (·.name != name)
  | name :: rest =>
    match find? entries name with
    | some (directory _ inner) => put (directory name (remove inner rest)) entries
    | _ => entries

mutual

/-- The files in an entry and below, with their paths. -/
def files (above : Path) : Entry → List (Path × ByteArray)
  | file name bytes => [(above ++ [name], bytes)]
  | directory name entries => filesOfList (above ++ [name]) entries

/-- The files in some entries and below, with their paths. -/
def filesOfList (above : Path) : List Entry → List (Path × ByteArray)
  | [] => []
  | e :: rest => files above e ++ filesOfList above rest

end

end Entry

end CodeAtlas
