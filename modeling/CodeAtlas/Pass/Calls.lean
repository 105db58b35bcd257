import CodeAtlas.Pass.Inheritance

/-!
# Calls

A call of something in the project is a use of it by the scope that the call stands in. A call
of a class uses its constructor, if the class declares one, and else instantiates the class.
-/

namespace CodeAtlas

namespace Calls

/-- The name of a constructor. -/
def constructorName : String := "__init__"

/-- What a call of an entity uses, and how. -/
def used (ns : Namespace) (id : Id) : Option (Id × Stereotype) := do
  let e ← ns.get? id
  match e.body with
  | .cls c =>
    match c.scope.declared[constructorName]? with
    | some init => (ns.lookup init).map (·, .calls)
    | none => some (id, .instantiates)
  | _ => some (id, .calls)

/-- What a call uses, seen from the scope it stands in. -/
def target (ns : Namespace) (current : Id) (callee : Expr) : Option (Id × Stereotype) := do
  ns.resolve current ⟨← callee.dotted⟩ >>= used ns

/-- One call. -/
def step (p : Progress) (visit : Visit) : Progress :=
  match visit.site with
  | .expr (.call _ callee _) =>
    match target p.ns visit.scopes.current callee with
    | some (id, stereotype) =>
      Inheritance.record p (.dependency visit.scopes.current id .uses (some stereotype))
    | none => p
  | _ => p

/-- Finds the calls in a file. The count is that of dependencies added. -/
def pass : Pass := fun component file p ↦
  (Visit.ofFile p.ns {} component file).foldl step p

end Calls

end CodeAtlas
