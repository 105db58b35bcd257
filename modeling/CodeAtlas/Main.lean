import CodeAtlas.Command.Elapsed
import CodeAtlas.Command.Run

/-!
# The program

Reads what a command needs from the file system, runs the command, writes the files that it
changed, and prints what it says.
-/

namespace CodeAtlas

namespace Main

/-- The path of something relative to the working directory, or from the top. -/
def place (text : String) : IO IO.FS.DirEntry := do
  return ⟨← IO.currentDir, text⟩

/-- Files of which an analysis reads the contents. -/
def isRead (name : String) : Bool :=
  Path.extension? name = some moduleExtension || Filter.fileNames.contains name

/-- Reads a file or a directory with all that is in it. -/
partial def readEntry (wanted : String → Bool) (e : IO.FS.DirEntry) (name : String) :
    IO Entry := do
  if ← e.path.isDir then
    let inner ← e.path.readDir
    let entries ← inner.toList.mapM fun i ↦ readEntry wanted i i.fileName
    return .directory name (entries.foldl (fun all e ↦ Entry.put e all) [])
  else if wanted name then return .file name (← IO.FS.readBinFile e.path)
  else return .file name ByteArray.empty

/-- The components of the real path of something that is there. -/
def realPath (e : IO.FS.DirEntry) : IO Path := do
  let real ← IO.FS.realPath e.path
  return (Path.ofText (toString real)).filter (· ≠ "/")

/-- Puts what is at a path onto a disk, if anything is there. -/
def mount (disk : Disk) (wanted : String → Bool) (text : String) : IO Disk := do
  let e ← place text
  if text = "" || !(← e.path.pathExists) then return disk
  let path ← realPath e
  match path.getLast? with
  | none => return disk
  | some name =>
    let entry ← readEntry wanted e name
    return { disk with entries := Entry.mount disk.entries entry path.dropLast }

/-- Puts the directory around a path onto a disk, with nothing in it, and then the file at the
path. -/
def mountFile (disk : Disk) (text : String) : IO Disk := do
  let parent ← place (Path.join "." (Path.toText (Path.pieces text).dropLast))
  let parent := if text.startsWith "/" then
    { parent with fileName := "/" ++ Path.toText (Path.pieces text).dropLast } else parent
  let mut disk := disk
  if ← parent.path.isDir then
    let path ← realPath parent
    if let some name := path.getLast? then
      unless (Entry.list disk.entries path).isOk do
        let empty := .directory name []
        disk := { disk with entries := Entry.mount disk.entries empty path.dropLast }
  mount disk (fun _ ↦ true) text

/-- The disk that a command works on. -/
def diskFor (command : Command) : IO Disk := do
  let here ← realPath (← place ".")
  let disk : Disk := { entries := [], top := "/", workDirectory := here }
  let disk ← match here.getLast? with
    | none => pure disk
    | some name =>
      pure { disk with entries := Entry.mount [] (.directory name []) here.dropLast }
  match command with
  | .init request => mountFile disk (request.config.getD Settings.defaultFile)
  | .analyze request =>
    let file := request.config.getD Settings.defaultFile
    let configured ← mountFile disk file
    match Settings.load configured file with
    | .error _ => return configured
    | .ok settings =>
      let plan := Command.plan request (settings.getD {})
      let disk ← mount disk isRead plan.root
      let disk ← mount disk isRead plan.outDir
      mountFile disk file

/-- Writes the files that are on one disk and not, or with other contents, on another. -/
def writeChanges (old new : Disk) : IO Unit :=
  (old.changes new).forM fun (path, bytes) ↦ do
    IO.FS.createDirAll ("/" ++ Path.toText path.dropLast)
    IO.FS.writeBinFile ("/" ++ path.toText) bytes

/-- Prints what a run says. -/
def report (started : Nat) (outcome : Outcome) : IO Unit := do
  for line in outcome.output do
    match line with
    | .text s => IO.println s
    | .elapsed => IO.println ("⏱️ " ++ Elapsed.words ((← IO.monoMsNow) - started))
  for line in outcome.errors do
    IO.eprintln line

end Main

end CodeAtlas

open CodeAtlas in
def main (words : List String) : IO UInt32 := do
  let started ← IO.monoMsNow
  let disk ← match Command.ofWords words with
    | .ok command => Main.diskFor command
    | .error _ => pure { entries := [] }
  let outcome := Command.runWords disk words
  Main.writeChanges disk outcome.disk
  Main.report started outcome
  return outcome.exitCode.toUInt32
