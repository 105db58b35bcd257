import CodeAtlas.Failure
import CodeAtlas.Files.Disk
import CodeAtlas.Ignore.Filter
import CodeAtlas.Source.Parser.Stmt

/-!
# Projects

A project is a directory of source files with a name, together with the filter that says what
in it is ignored.
-/

namespace CodeAtlas

/-- A project: its name, where its root directory is, what is in the root, and what is
ignored. -/
structure Project where
  name : String
  location : String
  entries : List Entry
  filter : Filter

namespace Project

/-- The path of something in the project as it is shown. -/
def shown (p : Project) (path : Path) : String :=
  Path.join p.location path.toText

/-- The project in a directory of a disk. Without a name it is called as the directory is. -/
def locate (disk : Disk) (root : String) (name : Option String) (exclude : List String) :
    Except Failure Project := do
  let path ← (disk.locate root).mapError (Failure.missingRoot root)
  let location := disk.shown path
  let name ← match name <|> path.getLast? with
    | some name => .ok name
    | none => .error (.unnamedRoot location)
  match Entry.list disk.entries path with
  | .error _ => .error (.rootNotDirectory location)
  | .ok entries => return { name, location, entries, filter := .ofRoot entries exclude }

/-- The statements of a source file. -/
def parse (p : Project) (path : Path) (bytes : ByteArray) : Except Failure (List Stmt) :=
  match Entry.decode bytes with
  | .error cause => .error (.unreadable cause)
  | .ok text =>
    match Stmt.ofText? text with
    | none => .error (.malformed (p.shown path))
    | some file => .ok file

/-- Reads the statements of the source file at a path. -/
def source (p : Project) (path : Path) : Except Failure (List Stmt) :=
  match Entry.read p.entries path with
  | .error cause => .error (.unreadable cause)
  | .ok bytes => p.parse path bytes

end Project

end CodeAtlas
