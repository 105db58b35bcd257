import CodeAtlas.Build
import CodeAtlas.Namespace.Condense
import CodeAtlas.Pass.Attributes
import CodeAtlas.Pass.Calls
import CodeAtlas.Pass.Exports
import CodeAtlas.Pass.Imports
import CodeAtlas.Pass.Inheritance

/-!
# The analysis of a project

After the namespace is built, export lists and imports are resolved by passes over all source
files, repeated until the number of unresolved references stays the same. Then follow one pass
each for attributes, inheritance and calls, and the relations are condensed.
-/

namespace CodeAtlas

/-! ### Passes over all files -/

/-- One pass over source files, in order. A file that cannot be used ends the pass; what the
pass did before is kept. -/
def Project.traverse (project : Project) (pass : Pass) :
    List SourceFile → Progress → Progress × Option Failure
  | [], progress => (progress, none)
  | file :: rest, progress =>
    match project.source file.path with
    | .error failure => (progress, some failure)
    | .ok statements => project.traverse pass rest (pass file.component statements progress)

/-- One pass over all source files of a namespace. -/
def Project.run (project : Project) (pass : Pass) (progress : Progress) :
    Progress × Option Failure :=
  project.traverse pass progress.ns.sources progress

/-- How a pass that was repeated ended: how often it ran, and what was left unresolved. -/
structure Settled where
  iterations : Nat
  unresolved : Nat
deriving DecidableEq, Repr

/-- Repeats a pass until it counts as many unresolved references as the time before, where
`previous` is that number. A count can only rise against the one before at the first two
passes: the first is compared with zero, and the second no longer sees what earlier passes left
behind. So `rises` bounds how often it may. -/
def Project.settleFrom (project : Project) (pass : Pass) (rises previous iterations : Nat)
    (ns : Namespace) : Progress × Except Failure Settled :=
  match project.run pass { ns } with
  | (progress, some failure) => (progress, .error failure)
  | (progress, none) =>
    let iterations := iterations + 1
    if progress.count = previous then (progress, .ok ⟨iterations, previous⟩)
    else if progress.count < previous then
      project.settleFrom pass rises progress.count iterations progress.ns
    else
      match rises with
      | 0 => (progress, .ok ⟨iterations, previous⟩)
      | rises + 1 => project.settleFrom pass rises progress.count iterations progress.ns
termination_by (rises, previous)

/-- Repeats a pass until its count settles. -/
def Project.settle (project : Project) (pass : Pass) (ns : Namespace) :
    Progress × Except Failure Settled :=
  project.settleFrom pass 2 0 0 ns

/-! ### The analysis -/

/-- What an analysis finds. -/
structure Analysis where
  ns : Namespace
  exports : Settled
  imports : Settled

/-- Repeats a pass, or fails. -/
def Project.resolve (project : Project) (pass : Pass) (ns : Namespace) :
    Except Failure (Namespace × Settled) :=
  let (progress, result) := project.settle pass ns
  result.map (progress.ns, ·)

/-- Runs a pass once, or fails. -/
def Project.runOnce (project : Project) (pass : Pass) (ns : Namespace) :
    Except Failure Namespace :=
  match project.run pass { ns } with
  | (progress, none) => .ok progress.ns
  | (_, some failure) => .error failure

/-- Analyzes a project. -/
def Project.analyze (project : Project) : Except Failure Analysis := do
  let ns ← project.build
  let (ns, exports) ← project.resolve Exports.pass ns
  let (ns, imports) ← project.resolve Imports.pass ns
  let ns ← project.runOnce Attributes.pass ns
  let ns ← project.runOnce Inheritance.pass ns
  let ns ← project.runOnce Calls.pass ns
  return { ns := ns.condense, exports, imports }

end CodeAtlas
