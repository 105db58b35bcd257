import CodeAtlas.Files.Entry

/-!
# Walking a directory tree

The directories below a root are handed over from the inside out: each one after those below
it, in the order of names, and the root last. The filter is asked about a directory when its
turn comes, when what is below it has been handed over already. A directory that is ignored is
not handed over, and the walk leaves its parent: what comes after it there is not walked.
-/

namespace CodeAtlas

/-- A directory below a root: its path from there, and what is in it. -/
structure Directory where
  path : Path
  entries : List Entry

mutual

/-- The directories that the walk hands over from an entry of a directory. -/
def Entry.walk (ignored : Path → Bool) (above : Path) : Entry → List Directory
  | .file .. => []
  | .directory name entries =>
    let path := above ++ [name]
    let below := Entry.walkList ignored path entries
    if ignored path then below else below ++ [⟨path, entries⟩]

/-- The directories that the walk hands over from the entries of a directory. -/
def Entry.walkList (ignored : Path → Bool) (above : Path) : List Entry → List Directory
  | [] => []
  | e :: rest =>
    let below := Entry.walk ignored above e
    if e.isDirectory && ignored (above ++ [e.name]) then below
    else below ++ Entry.walkList ignored above rest

end

/-- The directories that the walk of a root hands over, in order. -/
def Directory.walk (ignored : Path → Bool) (root : List Entry) : List Directory :=
  Entry.walkList ignored [] root ++ [⟨[], root⟩]

end CodeAtlas
