import Std.Data.ExtTreeMap

/-!
# Qualified names

The name of an entity within its project: segments separated by dots, the project's name
first. A qualified name is its text; `segments` is the view on which everything else is
defined. Every text has at least one segment, and segments may be empty.

Names of directories and files become segments as they are (`ofPath`): they are texts to begin
with, so none of their characters has to be replaced. A dot in the name of a directory makes two
segments of it.
-/

namespace CodeAtlas

/-- The qualified name of an entity. -/
structure QualName where
  text : String
deriving DecidableEq

namespace QualName

/-! ### Order -/

instance : Ord QualName := ⟨compareOn text⟩

instance : Std.TransOrd QualName :=
  inferInstanceAs (Std.TransCmp (compareOn text))

instance : Std.LawfulEqOrd QualName where
  eq_of_compare {p q} h := by
    have h : compare p.text q.text = .eq := h
    cases p
    cases q
    simpa using h

instance : Inhabited QualName := ⟨⟨""⟩⟩

/-! ### Segments -/

/-- The pieces of a text between its dots. -/
def splitDots : List Char → List (List Char)
  | [] => [[]]
  | c :: rest =>
    if c = '.' then [] :: splitDots rest
    else match splitDots rest with
      | [] => [[c]]
      | piece :: pieces => (c :: piece) :: pieces

/-- The segments of a name, outermost first. -/
def segments (q : QualName) : List String :=
  (splitDots q.text.toList).map String.ofList

/-- The name with the given segments. -/
def ofSegments (segments : List String) : QualName :=
  ⟨".".intercalate segments⟩

/-- The number of segments. -/
def depth (q : QualName) : Nat :=
  q.segments.length

/-- The last segment. -/
def name (q : QualName) : String :=
  q.segments.getLast?.getD ""

/-- The name without its last `levels` segments, if any segment is left. -/
def ancestor (q : QualName) (levels : Nat) : Option QualName :=
  if levels < q.depth then some (ofSegments (q.segments.take (q.depth - levels))) else none

/-- The name without its last segment, if it has more than one. -/
def parent (q : QualName) : Option QualName :=
  q.ancestor 1

/-- The name of something inside the named entity. -/
def child (q : QualName) (name : String) : QualName :=
  ⟨q.text ++ "." ++ name⟩

/-- What stands before the first dot of a file name. -/
def stem (file : String) : String :=
  String.ofList (file.toList.takeWhile (· != '.'))

/-- The name of a directory of a project, given by its path below the root, or of a file in
that directory. -/
def ofPath (project : String) (directory : List String) (file : Option String) : QualName :=
  ofSegments (project :: directory ++ (file.map stem).toList)

end QualName

end CodeAtlas
