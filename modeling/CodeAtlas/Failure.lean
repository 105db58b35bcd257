import CodeAtlas.Files.Entry

/-!
# Failures of an analysis

An analysis fails if there is no project to analyze, or at the first source file that cannot
be read or is not well-formed.
-/

namespace CodeAtlas

/-- Why an analysis fails. Paths are as they are shown. -/
inductive Failure where
  | missingRoot (path : String) (cause : FileError)
  | rootNotDirectory (path : String)
  | unnamedRoot (path : String)
  | malformed (path : String)
  | unreadable (cause : FileError)
deriving DecidableEq, Repr

/-- The wording of a failure. -/
def Failure.message : Failure → String
  | missingRoot path cause => s!"Invalid project root: {path}: {cause.message}"
  | rootNotDirectory path => s!"Invalid project root: {path} is not a directory"
  | unnamedRoot path => s!"Invalid project root: {path} has no directory name"
  | malformed path => s!"Parse error in {path}: syntax error"
  | unreadable cause => s!"IO error: {cause.message}"

end CodeAtlas
