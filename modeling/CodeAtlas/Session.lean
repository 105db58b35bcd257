import CodeAtlas.Analysis
import CodeAtlas.Report

/-!
# Sessions

A session runs the passes of an analysis one at a time, in any order, while the files of the
project may change. Every pass keeps its count from one run to the next; the counts of
unresolved references can be reset. Files are read again by every pass, but what files there
are was settled when the namespace was built.
-/

namespace CodeAtlas

/-- The passes that are repeated until their counts settle. -/
inductive Repeated where
  | exports
  | imports
deriving DecidableEq, Repr

/-- The passes that add relations. -/
inductive Relating where
  | attributes
  | inheritance
  | calls
deriving DecidableEq, Repr

namespace Repeated

/-- What the pass resolves. -/
def label : Repeated → String
  | exports => "export lists"
  | imports => "imports"

def pass : Repeated → Pass
  | exports => Exports.pass
  | imports => Imports.pass

end Repeated

namespace Relating

def pass : Relating → Pass
  | attributes => Attributes.pass
  | inheritance => Inheritance.pass
  | calls => Calls.pass

end Relating

/-- The counts of all passes. -/
structure Counts where
  exports : Nat := 0
  imports : Nat := 0
  attributes : Nat := 0
  inheritance : Nat := 0
  calls : Nat := 0
deriving DecidableEq

namespace Counts

def repeated (c : Counts) : Repeated → Nat
  | .exports => c.exports
  | .imports => c.imports

def setRepeated (c : Counts) (n : Nat) : Repeated → Counts
  | .exports => { c with exports := n }
  | .imports => { c with imports := n }

def relating (c : Counts) : Relating → Nat
  | .attributes => c.attributes
  | .inheritance => c.inheritance
  | .calls => c.calls

def setRelating (c : Counts) (n : Nat) : Relating → Counts
  | .attributes => { c with attributes := n }
  | .inheritance => { c with inheritance := n }
  | .calls => { c with calls := n }

end Counts

/-- A project, its namespace, and the counts of the passes so far. -/
structure Session where
  project : Project
  ns : Namespace
  counts : Counts := {}

namespace Session

/-- Starts a session by building the namespace. -/
def start (project : Project) : Except Failure Session := do
  return { project, ns := ← project.build }

/-- Runs a repeated pass once, and gives its count. -/
def runRepeated (s : Session) (r : Repeated) : Session × Except Failure Nat :=
  let (progress, failure) := s.project.run r.pass ⟨s.ns, s.counts.repeated r⟩
  let s := { s with ns := progress.ns, counts := s.counts.setRepeated progress.count r }
  (s, match failure with
    | none => .ok progress.count
    | some failure => .error failure)

/-- Sets the counts of unresolved references to zero. -/
def reset (s : Session) : Session :=
  { s with counts := { s.counts with exports := 0, imports := 0 } }

/-- Repeats a pass until its count settles. -/
def settle (s : Session) (r : Repeated) : Session × Except Failure Settled :=
  let (progress, result) := s.project.settle r.pass s.ns
  ({ s with ns := progress.ns, counts := s.counts.setRepeated progress.count r }, result)

/-- Runs a pass that adds relations, and gives the number of relations it has added so far. -/
def relate (s : Session) (r : Relating) : Session × Except Failure Nat :=
  let (progress, failure) := s.project.run r.pass ⟨s.ns, s.counts.relating r⟩
  let s := { s with ns := progress.ns, counts := s.counts.setRelating progress.count r }
  (s, match failure with
    | none => .ok progress.count
    | some failure => .error failure)

/-- Condenses the relations, and gives the number of new ones. -/
def condense (s : Session) : Session × Nat :=
  let progress := s.ns.condensing
  ({ s with ns := progress.ns }, progress.count)

/-- The documents of a report on the namespace, which are pretty. -/
def documents (s : Session) : Report.Documents :=
  (Report.ofNamespace s.ns).documents true

/-- Puts other entries into the root of the project. -/
def setEntries (s : Session) (entries : List Entry) : Session :=
  { s with project := { s.project with entries } }

end Session

end CodeAtlas
