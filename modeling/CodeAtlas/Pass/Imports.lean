import CodeAtlas.Pass.Basic

/-!
# Imports

Every import binds names in the scope it stands in, if what it imports is part of the project.
A name that is imported from a module and is not an entity itself may be one that the module
imports; whether it is may only turn out in a later pass over the files.
-/

namespace CodeAtlas

namespace Imports

/-- A local name and what it refers to. -/
abbrev Binding := String × QualName

/-- Binds names in a scope; a later binding of a name replaces an earlier one. -/
def bind (ns : Namespace) (scope : Id) (bindings : List Binding) : Namespace :=
  ns.modify scope (·.mapScope fun s ↦
    { s with imported := bindings.foldl (fun table b ↦ table.insert b.1 b.2) s.imported })

/-- What `import` binds: the modules that are components. -/
def ofModules (ns : Namespace) (clauses : List ImportClause) : List Binding :=
  clauses.filterMap fun clause ↦
    if (ns.lookup ⟨clause.name⟩).bind ns.kind? == some .component then
      some (clause.binding, ⟨clause.name⟩)
    else none

/-- What a name that a module lists as exported refers to there. -/
def exported (c : Component) (name : String) : Option QualName :=
  c.scope.imported[name]? <|> c.scope.declared[name]?

/-- Whether a name is kept out of wildcard imports. -/
def isPrivate (name : String) : Bool :=
  name.toList.head? == some '_'

/-- What a wildcard import of an entity binds, and how many names of the export list are not
known. Without an export list, a module gives its public classes and functions. -/
def ofWildcard (ns : Namespace) (source : Id) : List Binding × Nat :=
  match ns.component? source with
  | none => ([], 0)
  | some c =>
    match c.exports with
    | some names =>
      let found := names.map fun name ↦ (exported c name).map (name, ·)
      (found.filterMap id, found.countP Option.isNone)
    | none =>
      let entities := (c.classes.toList ++ c.functions.toList).filterMap ns.get?
      ((entities.filter fun e ↦ !isPrivate e.name).map fun e ↦ (e.name, e.qualName), 0)

/-- What a name imported from a module refers to: an entity inside it, or a name that it
imports. -/
def forwarded (ns : Namespace) (sourceName : QualName) (source : Option Id) (name : String) :
    Option QualName :=
  let inside := sourceName.child name
  if (ns.lookup inside).isSome then some inside
  else ((source.bind ns.scope?).bind fun s ↦ s.imported[name]?)

/-- What the clauses of an import bind, and how many of them are unresolved. Names imported
from outside the project do not count. -/
def ofClauses (ns : Namespace) (sourceName : QualName) (clauses : List ImportClause) :
    List Binding × Nat :=
  let source := ns.lookup sourceName
  let found := (clauses.filter (·.name != exportVariable)).map fun clause ↦
    (forwarded ns sourceName source clause.name).map (clause.binding, ·)
  (found.filterMap id, if source.isSome then found.countP Option.isNone else 0)

/-- What an import of names from a module binds, and how many names are unresolved. -/
def ofFrom (ns : Namespace) (component : Id) (source : FromImport) : List Binding × Nat :=
  match ns.importSource component source.path source.level with
  | none => ([], 0)
  | some name =>
    if source.wildcard then
      match ns.lookup name with
      | some id => ofWildcard ns id
      | none => ([], 0)
    else ofClauses ns name source.clauses

/-- One statement. -/
def step (p : Progress) (visit : Visit) : Progress :=
  match visit.site with
  | .importModules clauses =>
    { p with ns := bind p.ns visit.scopes.current (ofModules p.ns clauses) }
  | .importFrom source =>
    let (bindings, unresolved) := ofFrom p.ns visit.scopes.component source
    { ns := bind p.ns visit.scopes.current bindings, count := p.count + unresolved }
  | _ => p

/-- Resolves the imports of a file. The count is that of unresolved names. -/
def pass : Pass := fun component file p ↦
  (Visit.ofFile p.ns {} component file).foldl step p

end Imports

end CodeAtlas
