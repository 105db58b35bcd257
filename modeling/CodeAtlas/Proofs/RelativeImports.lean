import CodeAtlas.Pass.Basic
import CodeAtlas.Proofs.QualNames

/-!
# Relative imports

A relative import says how many levels outward a module is found. It starts at the component itself
if that is a directory, and else at what stands before the last dot of its name
(`Component.StartsAt`), and each level after the first leaves out one more segment.

## Where imports start

A module starts at the directory that its file is in (`Component.startsAt_ofPath_file`), and so does
the marker of this directory (`Component.startsAt_self`). So a module and the marker of its
directory mean the same by every relative import. A component that is no directory, and whose name
has no dot, has no place to start, and its relative imports lead nowhere.

## Levels

With the first level nothing is left out; each further level leaves out one segment
(`importSource_none_succ`), until none is left. The path of the import, if there is one, is put
inside the name that remains.
-/

namespace CodeAtlas

/-- `start` is where the relative imports of a component with a qualified name start: the component
itself if it is a directory, and else what stands before the last dot of the name. -/
def Component.StartsAt (c : Component) (name start : QualName) : Prop :=
  if c.isDirectory then start = name
  else ∃ last : String, '.' ∉ last.toList ∧ name = start.child last

/-- Where the relative imports of a component start, as it is computed. -/
theorem Component.startsAt_iff {c : Component} {name start : QualName} :
    c.StartsAt name start ↔
      (if c.isDirectory then some name else name.parent) = some start := by
  unfold StartsAt
  split
  · rw [Option.some.injEq, eq_comm]
  · exact QualName.parent_eq_some_iff.symm

/-- The relative imports of a module start at the directory that its file is in. -/
theorem Component.startsAt_ofPath_file {c : Component} (h : c.isDirectory = false)
    (project : String) (directory : List String) (file : String) :
    c.StartsAt (.ofPath project directory (some file)) (.ofPath project directory none) := by
  rw [StartsAt, h, if_neg Bool.false_ne_true]
  exact ⟨QualName.stem file, QualName.not_mem_stem file, QualName.ofPath_file ..⟩

/-- The relative imports of the marker of a directory start at this directory. -/
theorem Component.startsAt_self {c : Component} (h : c.isDirectory = true) (name : QualName) :
    c.StartsAt name name := by
  rw [StartsAt, h, if_pos rfl]

namespace Namespace

variable {ns : Namespace} {id : Id} {e : Entity} {c : Component}

/-- A relative import of a component climbs from where it starts. -/
theorem importSource_succ (he : ns.get? id = some e) (hc : e.body = .component c)
    (path : Option String) (outward : Nat) :
    ns.importSource id path (outward + 1) =
      ((if c.isDirectory then some e.qualName else e.qualName.parent).bind
        (·.ancestor outward)).map fun base ↦ path.elim base base.child := by
  simp only [importSource, he, hc, Body.component?, Option.map_some, Option.getD_some,
    Option.bind_eq_bind, Option.bind_some, Option.map_bind]
  rcases path with - | path <;> rcases c.isDirectory with - | - <;>
    simp [Option.map_eq_bind, Function.comp_def]

/-- A relative import climbs from where the imports of its component start. -/
theorem importSource_of_startsAt {start : QualName} (he : ns.get? id = some e)
    (hc : e.body = .component c) (hstart : c.StartsAt e.qualName start) (path : Option String)
    (outward : Nat) :
    ns.importSource id path (outward + 1) =
      (start.ancestor outward).map fun base ↦ path.elim base base.child := by
  rw [importSource_succ he hc, Component.startsAt_iff.1 hstart, Option.bind_some]

/-- A relative import of a component without a place to start leads nowhere. -/
theorem importSource_of_not_startsAt (he : ns.get? id = some e) (hc : e.body = .component c)
    (hnone : ∀ start, ¬ c.StartsAt e.qualName start) (path : Option String) (outward : Nat) :
    ns.importSource id path (outward + 1) = none := by
  have hbase : (if c.isDirectory then some e.qualName else e.qualName.parent) = none :=
    Option.eq_none_iff_forall_ne_some.2 fun start hstart ↦
      hnone start (Component.startsAt_iff.2 hstart)
  rw [importSource_succ he hc, hbase]
  rfl

/-- One level more is one segment less. -/
theorem importSource_none_succ (he : ns.get? id = some e) (hc : e.body = .component c)
    (outward : Nat) :
    ns.importSource id none (outward + 2) =
      (ns.importSource id none (outward + 1)).bind QualName.parent := by
  rw [importSource_succ he hc, importSource_succ he hc]
  simp only [Option.elim_none, Option.map_id', Option.bind_assoc, QualName.ancestor_succ]

/-- **Relative imports by segments.** From where the relative imports of a component start, those of
a level take from the name that is left when one segment less than the level is dropped from the
end, or from the module of the path in it; there is nothing to import from if no segment is left or
there is no place to start. Without a path, one level more leads to the parent. A module in a
directory imports from the same modules as the marker of the directory. -/
theorem relative_import_by_segments (he : ns.get? id = some e) (hc : e.body = .component c)
    {level : Nat} (hlevel : 1 ≤ level) (path : Option String) :
    ((∀ start, ¬ c.StartsAt e.qualName start) → ns.importSource id path level = none) ∧
    (∀ start, c.StartsAt e.qualName start → start.depth < level →
      ns.importSource id path level = none) ∧
    (∀ start, c.StartsAt e.qualName start → level ≤ start.depth →
      let base := QualName.ofSegments (start.segments.take (start.depth - level + 1))
      ns.importSource id path level = some (path.elim base base.child)) ∧
    ns.importSource id none (level + 1) = (ns.importSource id none level).bind QualName.parent ∧
    ∀ (marker : Id) (e' : Entity) (c' : Component), ns.get? marker = some e' →
      e'.body = .component c' → c.isDirectory = false → c'.isDirectory = true →
      ∀ project directory file, e.qualName = .ofPath project directory (some file) →
        e'.qualName = .ofPath project directory none →
        ns.importSource id path level = ns.importSource marker path level := by
  obtain ⟨outward, rfl⟩ := Nat.exists_eq_add_of_le' hlevel
  refine ⟨fun hnone ↦ importSource_of_not_startsAt he hc hnone path outward, ?_, ?_,
    importSource_none_succ he hc outward, ?_⟩
  · intro start hstart hdepth
    rw [importSource_of_startsAt he hc hstart, QualName.ancestor, if_neg (by omega)]
    rfl
  · intro start hstart hdepth base
    have hkept : start.depth - (outward + 1) + 1 = start.depth - outward := by omega
    rw [importSource_of_startsAt he hc hstart, QualName.ancestor, if_pos (by omega), ← hkept]
    rfl
  · intro marker e' c' he' hc' hmodule hmarker project directory file hname hname'
    have hstart := Component.startsAt_ofPath_file hmodule project directory file
    have hstart' := Component.startsAt_self hmarker (.ofPath project directory none)
    rw [← hname] at hstart
    rw [← hname'] at hstart hstart'
    rw [importSource_of_startsAt he hc hstart, importSource_of_startsAt he' hc' hstart']

/-- A directory inside a project, and a module in it. -/
def packageNamespace : Namespace where
  project := "p"
  nextId := 2
  entities := ((∅ : Std.ExtTreeMap Id Entity).insert 0
    ⟨0, ⟨"p.pkg"⟩, .component { isDirectory := true }⟩).insert 1 ⟨1, ⟨"p.pkg.mod"⟩, .component {}⟩
  ids := ((∅ : Std.ExtTreeMap QualName Id).insert ⟨"p.pkg"⟩ 0).insert ⟨"p.pkg.mod"⟩ 1

/-- Two levels from the module, or from the marker of its directory, lead to the project, and three
lead nowhere. -/
theorem relative_imports_of_package :
    packageNamespace.get? 1 = some ⟨1, ⟨"p.pkg.mod"⟩, .component {}⟩ ∧
      packageNamespace.get? 0 = some ⟨0, ⟨"p.pkg"⟩, .component { isDirectory := true }⟩ ∧
      Component.StartsAt {} ⟨"p.pkg.mod"⟩ ⟨"p.pkg"⟩ ∧
      packageNamespace.importSource 1 (some "x.y") 2 = some ⟨"p.x.y"⟩ ∧
      packageNamespace.importSource 1 none 3 = none ∧
      packageNamespace.importSource 1 none 3 =
        (packageNamespace.importSource 1 none 2).bind QualName.parent ∧
      packageNamespace.importSource 1 (some "x.y") 2 =
        packageNamespace.importSource 0 (some "x.y") 2 := by
  have hmodule : packageNamespace.get? 1 = some ⟨1, ⟨"p.pkg.mod"⟩, .component {}⟩ := rfl
  have hmarker : packageNamespace.get? 0 =
      some ⟨0, ⟨"p.pkg"⟩, .component { isDirectory := true }⟩ := rfl
  have hstart : Component.StartsAt {} ⟨"p.pkg.mod"⟩ ⟨"p.pkg"⟩ := ⟨"mod", by decide, rfl⟩
  have hpath := relative_import_by_segments hmodule rfl (show 1 ≤ 2 by decide) (some "x.y")
  have hnone := relative_import_by_segments hmodule rfl (show 1 ≤ 3 by decide) none
  have hlevels := relative_import_by_segments hmodule rfl (show 1 ≤ 2 by decide) none
  exact ⟨hmodule, hmarker, hstart, hpath.2.2.1 ⟨"p.pkg"⟩ hstart (by decide),
    hnone.2.1 ⟨"p.pkg"⟩ hstart (by decide), hlevels.2.2.2.1,
    hpath.2.2.2.2 0 _ _ hmarker rfl rfl rfl "p" ["pkg"] "mod.py" rfl rfl⟩

end Namespace

end CodeAtlas
