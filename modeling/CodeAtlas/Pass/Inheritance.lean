import CodeAtlas.Namespace.Resolve
import CodeAtlas.Pass.Basic

/-!
# Inheritance

A class of a module refines each of its bases that is a class of the project. It realizes them
if it is abstract, and derives from them otherwise.
-/

namespace CodeAtlas

namespace Inheritance

/-- Whether an expression is a dotted name that ends in the given segment. -/
def endsIn (segment : String) (e : Expr) : Bool :=
  match e.dotted with
  | some name => lastSegment name == segment
  | none => false

/-- Whether the bases make a class abstract: `ABC` among them, or the metaclass `ABCMeta`. -/
def isAbstract (bases : List Expr) : Bool :=
  bases.any fun
    | e@(.name _) | e@(.member ..) => endsIn "ABC" e
    | .keyword _ id value => id.is "metaclass" && endsIn "ABCMeta" value
    | _ => false

/-- The entity that a base names. A plain name is looked up in the module. -/
def target (ns : Namespace) (component cls : Id) : Expr → Option Id
  | .name id => do
    let scope ← ns.scope? component
    ns.lookup (← scope.find? id.text)
  | e@(.member ..) => do ns.resolve cls ⟨← e.dotted⟩
  | _ => none

/-- The classes of the project among the bases of a class, itself excepted. -/
def targets (ns : Namespace) (component cls : Id) (bases : List Expr) : List Id :=
  (bases.filterMap (target ns component cls)).filter fun id ↦
    id != cls && ns.kind? id == some .cls

/-- Records a dependency, which counts if it is new. -/
def record (p : Progress) (r : Relation) : Progress :=
  { ns := p.ns.addDependency r
    count := if p.ns.dependencies.contains r.toRelationKey then p.count else p.count + 1 }

/-- One class definition. -/
def step (p : Progress) (visit : Visit) : Progress :=
  match visit.site with
  | .classDef head =>
    if visit.scopes.atModuleLevel then
      match visit.scopes.childScope p.ns head.name.text with
      | some cls =>
        let stereotype := if isAbstract head.bases then .realizes else .derives
        (targets p.ns visit.scopes.component cls head.bases).foldl
          (fun p base ↦ record p (.dependency cls base .refines (some stereotype))) p
      | none => p
    else p
  | _ => p

/-- Finds the inheritance in a file. The count is that of dependencies added. -/
def pass : Pass := fun component file p ↦
  (Visit.ofFile p.ns { definitions := false } component file).foldl step p

end Inheritance

end CodeAtlas
