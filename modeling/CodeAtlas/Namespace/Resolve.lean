import CodeAtlas.Namespace.Basic

/-!
# Resolving names

A name used in a scope is looked up in that scope and then in those around it; the innermost
scope that knows the name decides. Of a dotted name the longest beginning that is known as a
whole is looked up, and the segments after it are followed as members.
-/

namespace CodeAtlas

namespace Namespace

/-- What the innermost scope that knows a name refers it to. -/
def binding? (ns : Namespace) (fromId : Id) (name : String) : Option QualName :=
  (ns.ancestors fromId).findSome? fun id ↦ (ns.scope? id).bind (·.find? name)

/-- The entity that an undotted name refers to, seen from an entity. -/
def resolveName (ns : Namespace) (fromId : Id) (name : String) : Option Id :=
  (ns.binding? fromId name).bind ns.lookup

/-- What a name refers to inside an entity: a name it knows, or an entity contained by name. -/
def member (ns : Namespace) (owner : Id) (name : String) : Option Id := do
  let e ← ns.get? owner
  match e.body.scope?.bind (·.find? name) with
  | some target => ns.lookup target
  | none => ns.lookup (e.qualName.child name)

/-- The entity reached from an entity by following members. -/
def members (ns : Namespace) (owner : Id) (names : List String) : Option Id :=
  names.foldlM ns.member owner

/-- The ways to cut a list in two with something in the first part, longest first part
first. -/
def cuts {α : Type} (segments : List α) : List (List α × List α) :=
  (List.range segments.length).reverse.map fun k ↦
    (segments.take (k + 1), segments.drop (k + 1))

/-- The entity that a name refers to, seen from an entity. -/
def resolve (ns : Namespace) (fromId : Id) (name : QualName) : Option Id := do
  let (id, rest) ← (cuts name.segments).findSome? fun (known, rest) ↦
    (ns.resolveName fromId (".".intercalate known)).map (·, rest)
  ns.members id rest

end Namespace

end CodeAtlas
