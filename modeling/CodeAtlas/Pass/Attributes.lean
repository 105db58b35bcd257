import CodeAtlas.Namespace.Resolve
import CodeAtlas.Pass.Basic

/-!
# Attributes of instances

An assignment to a member of the receiver (the first parameter) inside a method gives the
class an attribute. It is labelled with the class that the value names or is made of, in which
case that class is also associated with the owner, or with the category of a literal or
conversion. The first assignment to an attribute decides its label.
-/

namespace CodeAtlas

namespace Attributes

/-- The categories that an attribute can be labelled with. -/
def primitives : List String :=
  ["str", "int", "float", "complex", "bool", "bytes", "null", "list", "tuple", "set", "dict"]

/-- What a value tells about the attribute it is assigned to. -/
inductive Label where
  | cls (id : Id) (name : String)
  | primitive (category : String)
  | unknown
deriving DecidableEq

def Label.text : Label → String
  | cls _ name => name
  | primitive category => category
  | unknown => ""

/-- The label of a value: of what it names or calls, or else of the literal that it is. -/
def infer (ns : Namespace) (current : Id) (value : Expr) : Label :=
  match value.bare.calleeName with
  | some name =>
    match (ns.resolve current ⟨name⟩).bind ns.get? with
    | some ⟨id, qualName, .cls _⟩ => .cls id qualName.name
    | _ => if primitives.contains name then .primitive name else .unknown
  | none =>
    match value.category with
    | some category => .primitive category
    | none => .unknown

/-- The targets of a chain of assignments and the value at its end, if there is one. -/
def chain : Expr → List Expr × Option Expr
  | .assign _ left _ (some right) =>
    match right with
    | .assign .. =>
      let (targets, value) := chain right
      (left :: targets, value)
    | _ => ([left], some right)
  | .assign _ left _ none => ([left], none)
  | _ => ([], none)

/-- The class and the name of the receiver, if the innermost scope is a method that has one. -/
def receiver (ns : Namespace) (visit : Visit) : Option (Id × String) := do
  guard (visit.unbound == 0)
  let method := visit.scopes.current
  let owner ← visit.scopes.enclosingClass ns
  let e ← ns.get? method
  let f ← e.body.function?
  guard (ns.parent? method == some owner)
  let first ← f.params.head?
  return (owner, first.name)

/-- The attribute of the receiver that a target stands for. -/
def attributeOf (receiver : String) : Expr → Option String
  | .member _ (.name object) id => if object.text == receiver then some id.text else none
  | _ => none

/-- Records an attribute and its label. A class that is part of the owner is associated with
it. -/
def record (owner : Id) (label : Label) (p : Progress) (name : String) : Progress :=
  let p : Progress := match label with
    | .cls part _ =>
      let r := Relation.association part owner .aggregation
      { ns := p.ns.addAssociation r
        count := if p.ns.associations.contains r.toRelationKey then p.count else p.count + 1 }
    | .primitive _ | .unknown => p
  { p with ns := p.ns.modify owner (·.mapClass (·.addAttribute ⟨name, label.text⟩)) }

/-- One statement. -/
def step (p : Progress) (visit : Visit) : Progress :=
  match visit.site with
  | .expr e@(.assign ..) =>
    match chain e, receiver p.ns visit with
    | (targets, some value), some (owner, name) =>
      (targets.filterMap (attributeOf name)).foldl
        (record owner (infer p.ns visit.scopes.current value)) p
    | _, _ => p
  | _ => p

/-- A chain of assignments is taken as a whole. -/
def reach : Reach where
  enters
    | .assign .. => false
    | _ => true

/-- Finds the attributes in a file. The count is that of associations added. -/
def pass : Pass := fun component file p ↦
  (Visit.ofFile p.ns reach component file).foldl step p

end Attributes

end CodeAtlas
