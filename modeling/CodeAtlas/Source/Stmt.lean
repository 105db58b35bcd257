import CodeAtlas.Source.Expr

/-!
# Statements of a source file

Only what the analysis distinguishes is told apart: imports, class and function definitions,
compound statements, and simple statements, which are just the expressions they hold. A
compound statement has head expressions and the statements it governs; an alternative branch
(`else`, `except`, `case`) is a compound statement inside it.
-/

namespace CodeAtlas

/-- One clause of an import: what it names, and the name it is bound to if it says so. -/
structure ImportClause where
  name : String
  boundAs : Option String
deriving DecidableEq

/-- The name that a clause binds in the importing scope. -/
def ImportClause.binding (clause : ImportClause) : String :=
  clause.boundAs.getD clause.name

/-- An import of names from a module. `level` counts the leading dots of its path. -/
structure FromImport where
  path : Option String
  level : Nat
  wildcard : Bool
  clauses : List ImportClause
deriving DecidableEq

/-- A parameter: its name, if it has one, and the annotation and default value in it. -/
structure Param where
  name : Option Ident
  parts : List Expr

/-- What stands before the body of a function definition. -/
structure FunctionHead where
  name : Ident
  decorators : List Expr
  typeParams : List Expr
  params : List Param
  returns : List Expr

/-- What stands before the body of a class definition. -/
structure ClassHead where
  name : Ident
  decorators : List Expr
  typeParams : List Expr
  bases : List Expr

/-- A statement. -/
inductive Stmt where
  | simple (exprs : List Expr)
  | importModules (clauses : List ImportClause)
  | importFrom (source : FromImport)
  | compound (head : List Expr) (body : List Stmt)
  | classDef (head : ClassHead) (body : List Stmt)
  | funcDef (head : FunctionHead) (body : List Stmt)

instance : Inhabited Stmt := ⟨.simple []⟩

/-- The dotted names of decorators. A decorator that is called gives the name of its callee;
one of another shape gives none. -/
def decoratorNames (decorators : List Expr) : List String :=
  decorators.filterMap Expr.calleeName

/-- The names of the parameters that have one. -/
def FunctionHead.paramNames (head : FunctionHead) : List Ident :=
  head.params.filterMap Param.name

/-- The expressions between a function's name and its body. -/
def FunctionHead.parts (head : FunctionHead) : List Expr :=
  head.typeParams ++ head.params.flatMap Param.parts ++ head.returns

/-- The expressions between a class's name and its body. -/
def ClassHead.parts (head : ClassHead) : List Expr :=
  head.typeParams ++ head.bases

end CodeAtlas
