import Std.Data.ExtTreeMap

/-!
# Relations between entities

A relation points from one entity to another and has a weight and a kind. Relations are
identified by source, target and weight: of two that differ only in kind, a set keeps the one
it got first. The relations of a set are in the order of source, target and weight.
-/

namespace CodeAtlas

/-- The number of an entity. -/
abbrev Id := Nat

/-- The two kinds of dependency. -/
inductive DependencyKind where
  | uses
  | refines
deriving DecidableEq, Repr

/-- The two kinds of association. -/
inductive AssociationKind where
  | aggregation
  | composition
deriving DecidableEq, Repr

/-- What a dependency stands for. -/
inductive Stereotype where
  | calls
  | instantiates
  | derives
  | realizes
deriving DecidableEq, Repr

/-- The kind of a relation. -/
inductive RelationKind where
  | dependency (kind : DependencyKind) (stereotype : Option Stereotype)
  | association (kind : AssociationKind)
deriving DecidableEq, Repr

namespace DependencyKind

def label : DependencyKind → String
  | uses => "uses"
  | refines => "refines"

end DependencyKind

namespace AssociationKind

def label : AssociationKind → String
  | aggregation => "aggregation"
  | composition => "composition"

end AssociationKind

namespace Stereotype

def label : Stereotype → String
  | calls => "calls"
  | instantiates => "instantiates"
  | derives => "derives"
  | realizes => "realizes"

end Stereotype

namespace RelationKind

/-- The kind of the relation without its stereotype. -/
def label : RelationKind → String
  | dependency kind _ => kind.label
  | association kind => kind.label

/-- The stereotype of a dependency. -/
def stereotype? : RelationKind → Option Stereotype
  | dependency _ stereotype => stereotype
  | association _ => none

/-- The kind with its stereotype in angle brackets. -/
def display (kind : RelationKind) : String :=
  match kind.stereotype? with
  | some stereotype => kind.label ++ "<" ++ stereotype.label ++ ">"
  | none => kind.label

end RelationKind

/-- What identifies a relation. -/
structure RelationKey where
  source : Id
  target : Id
  weight : Nat
deriving DecidableEq, Repr

namespace RelationKey

instance : Ord RelationKey :=
  ⟨compareLex (compareOn source) (compareLex (compareOn target) (compareOn weight))⟩

instance : Std.TransOrd RelationKey :=
  inferInstanceAs <| Std.TransCmp <|
    compareLex (compareOn source) (compareLex (compareOn target) (compareOn weight))

instance : Std.LawfulEqOrd RelationKey where
  eq_of_compare {k l} h := by
    have h : compareLex (compareOn source)
        (compareLex (compareOn target) (compareOn weight)) k l = .eq := h
    simp only [compareLex, Ordering.then_eq_eq, compareOn,
      Std.LawfulEqCmp.compare_eq_iff_eq] at h
    cases k
    cases l
    simpa using h

end RelationKey

/-- A relation between two entities. -/
structure Relation extends RelationKey where
  kind : RelationKind
deriving DecidableEq, Repr

namespace Relation

/-- A dependency of weight zero. -/
def dependency (source target : Id) (kind : DependencyKind) (stereotype : Option Stereotype) :
    Relation :=
  ⟨⟨source, target, 0⟩, .dependency kind stereotype⟩

/-- An association of weight zero. -/
def association (source target : Id) (kind : AssociationKind) : Relation :=
  ⟨⟨source, target, 0⟩, .association kind⟩

end Relation

/-- A set of relations. -/
structure RelationSet where
  kinds : Std.ExtTreeMap RelationKey RelationKind

namespace RelationSet

instance : EmptyCollection RelationSet := ⟨⟨∅⟩⟩

instance : Inhabited RelationSet := ⟨∅⟩

/-- Whether the set holds a relation with this source, target and weight. -/
def contains (s : RelationSet) (key : RelationKey) : Bool :=
  s.kinds.contains key

/-- Adds a relation unless the set holds one with the same source, target and weight. -/
def insert (s : RelationSet) (r : Relation) : RelationSet :=
  ⟨s.kinds.insertIfNew r.toRelationKey r.kind⟩

/-- The number of relations. -/
def size (s : RelationSet) : Nat :=
  s.kinds.size

/-- The relations in order. -/
def toList (s : RelationSet) : List Relation :=
  s.kinds.toList.map fun (key, kind) ↦ ⟨key, kind⟩

end RelationSet

end CodeAtlas
