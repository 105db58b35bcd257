import CodeAtlas.Namespace.Basic

/-!
# Condensing relations

Every dependency and association is lifted to a relation between siblings: its ends are
replaced by entities that contain them until both have the same parent. The lifted relation
is a plain use, kept with that parent and among the condensed relations. Those that were not
among the condensed relations before are counted on the way.
-/

namespace CodeAtlas

namespace Namespace

/-- A relation between siblings and their parent. -/
structure Lifted where
  parent : Id
  source : Id
  target : Id
deriving DecidableEq

/-- Lifts the ends of a relation until they are siblings, in at most `steps` steps. The end
with the longer name is lifted first, both if they are equally long. There is no result if
the ends meet or one of them has no parent. -/
def liftWithin (ns : Namespace) : (steps : Nat) → (source target : Id) → Option Lifted
  | 0, _, _ => none
  | steps + 1, source, target =>
    if source = target then none
    else do
      let sourceParent ← ns.parent? source
      let targetParent ← ns.parent? target
      if sourceParent = targetParent then return ⟨sourceParent, source, target⟩
      let sourceDepth := ns.depth source
      let targetDepth := ns.depth target
      liftWithin ns steps
        (if sourceDepth ≥ targetDepth then sourceParent else source)
        (if targetDepth ≥ sourceDepth then targetParent else target)

/-- Lifts the ends of a relation until they are siblings. Each step shortens a name, so the
lengths of the names bound the steps. -/
def lift (ns : Namespace) (source target : Id) : Option Lifted :=
  ns.liftWithin (ns.depth source + ns.depth target + 1) source target

/-- The plain use between two siblings. -/
def Lifted.relation (l : Lifted) : Relation :=
  .dependency l.source l.target .uses none

/-- Records a lifted relation with the parent and among the condensed relations. -/
def addLifted (ns : Namespace) (l : Lifted) : Namespace :=
  let ns := ns.modify l.parent (·.mapRelations (·.insert l.relation))
  { ns with condensed := ns.condensed.insert l.relation }

/-- Condenses one relation. What it is lifted to counts if it is new among the condensed
relations. -/
def condenseStep (p : Progress) (r : Relation) : Progress :=
  match p.ns.lift r.source r.target with
  | some l =>
    { ns := p.ns.addLifted l
      count := if p.ns.condensed.contains l.relation.toRelationKey then p.count else p.count + 1 }
  | none => p

/-- Condenses all dependencies and associations, and counts the relations that are new. -/
def condensing (ns : Namespace) : Progress :=
  (ns.dependencies.toList ++ ns.associations.toList).foldl condenseStep { ns }

/-- The namespace with all dependencies and associations condensed. -/
def condense (ns : Namespace) : Namespace :=
  ns.condensing.ns

/-- The number of relations that condensing adds. -/
def condensedBy (ns : Namespace) : Nat :=
  ns.condensing.count

end Namespace

end CodeAtlas
