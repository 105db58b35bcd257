import CodeAtlas.Source.Stmt

/-!
# Declarations of a module

A module declares the classes and functions that stand in it directly or inside compound
statements, and a class declares methods in the same way. The bodies of functions, and the
classes inside a class, declare nothing.
-/

namespace CodeAtlas

/-- A declared function or method and the names of its parameters. -/
structure FunctionDecl where
  name : Ident
  params : List Ident
deriving DecidableEq

/-- What a module declares. -/
inductive Declaration where
  | classDecl (name : Ident) (methods : List FunctionDecl)
  | functionDecl (function : FunctionDecl)
deriving DecidableEq

namespace Declaration

/-- The declaration that a function definition makes. -/
def ofFunction (head : FunctionHead) : FunctionDecl :=
  ⟨head.name, head.paramNames⟩

mutual

/-- The methods that a statement of a class body declares. -/
def methods : Stmt → List FunctionDecl
  | .funcDef head _ => [ofFunction head]
  | .compound _ body => methodsOfList body
  | .simple _ | .importModules _ | .importFrom _ | .classDef .. => []

/-- The methods that the statements of a class body declare. -/
def methodsOfList : List Stmt → List FunctionDecl
  | [] => []
  | s :: rest => methods s ++ methodsOfList rest

end

mutual

/-- The declarations that a statement of a module makes. -/
def ofStmt : Stmt → List Declaration
  | .classDef head body => [classDecl head.name (methodsOfList body)]
  | .funcDef head _ => [functionDecl (ofFunction head)]
  | .compound _ body => ofStmts body
  | .simple _ | .importModules _ | .importFrom _ => []

/-- The declarations of a module, in the order they are written. -/
def ofStmts : List Stmt → List Declaration
  | [] => []
  | s :: rest => ofStmt s ++ ofStmts rest

end

end Declaration

end CodeAtlas
