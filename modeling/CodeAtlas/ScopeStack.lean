import CodeAtlas.Namespace.Basic

/-!
# Scope stacks

The scopes around a place in a source file, innermost first. The component that the file
belongs to is always at the bottom, so it is a field of its own and never taken off.
-/

namespace CodeAtlas

/-- The scopes around a place in a file. -/
structure ScopeStack where
  component : Id
  inner : List Id := []
deriving DecidableEq

namespace ScopeStack

/-- The innermost scope. -/
def current (s : ScopeStack) : Id :=
  s.inner.head?.getD s.component

/-- The number of scopes. -/
def depth (s : ScopeStack) : Nat :=
  s.inner.length + 1

/-- Whether the place is directly in the module. -/
def atModuleLevel (s : ScopeStack) : Bool :=
  s.inner.isEmpty

/-- Enters a scope. -/
def push (s : ScopeStack) (id : Id) : ScopeStack :=
  { s with inner := id :: s.inner }

/-- Leaves the innermost scope, which is not the component. -/
def pop (s : ScopeStack) : Option (Id × ScopeStack) :=
  match s.inner with
  | [] => none
  | id :: outer => some (id, { s with inner := outer })

/-- All scopes, innermost first. -/
def toList (s : ScopeStack) : List Id :=
  s.inner ++ [s.component]

/-- The innermost class. -/
def enclosingClass (s : ScopeStack) (ns : Namespace) : Option Id :=
  s.toList.find? fun id ↦ ns.kind? id == some .cls

/-- The class or function that the current scope declares under a name. A definition whose
qualified name belongs to something else is not declared. -/
def childScope (s : ScopeStack) (ns : Namespace) (name : String) : Option Id := do
  let scope ← ns.scope? s.current
  let id ← ns.lookup (← scope.declared[name]?)
  match ← ns.kind? id with
  | .cls | .function => some id
  | .package | .component => none

end ScopeStack

end CodeAtlas
