import CodeAtlas.ScopeStack
import CodeAtlas.Source.Stmt

/-!
# Visiting a source file

What a pass sees of a file is a list of visits: the places of interest in source order, each
with the scopes around it. The body of a definition that is an entity is visited inside the
scope of that entity; its decorators, bases, parameters and annotations belong to the scope
around it. The body of a definition that is no entity stays in the scope around it.

Passes differ in how far they reach: some do not enter definitions, and some do not look
inside assignments.
-/

namespace CodeAtlas

/-- A place of interest in a source file. -/
inductive Site where
  | expr (e : Expr)
  | importModules (clauses : List ImportClause)
  | importFrom (source : FromImport)
  | classDef (head : ClassHead)
  | funcDef (head : FunctionHead)

/-- A visit to a place: the scopes around it, and how many of the function definitions around
it are methods without a receiver. -/
structure Visit where
  scopes : ScopeStack
  unbound : Nat
  site : Site

/-- How far a pass reaches: whether it enters definitions, and which expressions it enters. -/
structure Reach where
  definitions : Bool := true
  enters : Expr → Bool := fun _ ↦ true

/-- Decorators of methods that have no instance as receiver. -/
def unboundDecorators : List String :=
  ["staticmethod", "classmethod"]

/-- Whether a function is a method without a receiver. -/
def FunctionHead.isUnbound (head : FunctionHead) : Bool :=
  (decoratorNames head.decorators).any fun name ↦ unboundDecorators.contains (lastSegment name)

namespace Visit

/-- The visits to expressions at one place. -/
def ofExprs (reach : Reach) (scopes : ScopeStack) (unbound : Nat) (exprs : List Expr) :
    List Visit :=
  (Expr.nodesOfList reach.enters exprs).map fun e ↦ ⟨scopes, unbound, .expr e⟩

/-- The scopes inside the definition of a name. -/
def enter (ns : Namespace) (scopes : ScopeStack) (name : Ident) : ScopeStack :=
  match scopes.childScope ns name.text with
  | some id => scopes.push id
  | none => scopes

mutual

/-- The visits to a statement. -/
def ofStmt (ns : Namespace) (reach : Reach) (scopes : ScopeStack) (unbound : Nat) :
    Stmt → List Visit
  | .simple exprs => ofExprs reach scopes unbound exprs
  | .importModules clauses => [⟨scopes, unbound, .importModules clauses⟩]
  | .importFrom source => [⟨scopes, unbound, .importFrom source⟩]
  | .compound head body =>
    ofExprs reach scopes unbound head ++ ofStmts ns reach scopes unbound body
  | .classDef head body =>
    ofExprs reach scopes unbound head.decorators ++
      ⟨scopes, unbound, .classDef head⟩ ::
        if reach.definitions then
          ofExprs reach scopes unbound head.parts ++
            ofStmts ns reach (enter ns scopes head.name) unbound body
        else []
  | .funcDef head body =>
    ofExprs reach scopes unbound head.decorators ++
      ⟨scopes, unbound, .funcDef head⟩ ::
        if reach.definitions then
          let unbound := if head.isUnbound then unbound + 1 else unbound
          ofExprs reach scopes unbound head.parts ++
            ofStmts ns reach (enter ns scopes head.name) unbound body
        else []

/-- The visits to a sequence of statements. -/
def ofStmts (ns : Namespace) (reach : Reach) (scopes : ScopeStack) (unbound : Nat) :
    List Stmt → List Visit
  | [] => []
  | s :: rest => ofStmt ns reach scopes unbound s ++ ofStmts ns reach scopes unbound rest

end

/-- The visits to the file of a component. -/
def ofFile (ns : Namespace) (reach : Reach) (component : Id) (file : List Stmt) : List Visit :=
  ofStmts ns reach { component } 0 file

end Visit

end CodeAtlas
