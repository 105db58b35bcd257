import Mathlib.Logic.Function.Iterate
import CodeAtlas.Proofs.Condense

/-!
# Ancestors of names and of entities

Leaving out segments at the end of a name, cutting at its last dot again and again, and the loop
that climbs from an entity to the one that is named by what stands before the last dot of its name
are three ways to say the same. They agree on every text.

## Names

What is left out of a name by its ancestors is what its parents leave out one after another
(`QualName.ancestor_eq_iterate`). A name inside another adds its segments to those of the other, and
leaving them all out leads back (`QualName.ancestor_child`). Directories whose names have no dots
have different names, each inside that of the directory around it (`QualName.ofPath_injective`,
`QualName.parent_ofPath`).

## Entities

`Namespace.ClimbLoop` is the loop that climbs, without a bound, as a relation with an outcome. In a
consistent namespace it ends, with the chain that the bounded climb gives
(`Namespace.Consistent.climbLoop_iff`). The entities that it passes are those of the ancestors of
the name, up to the first that names no entity (`Namespace.Consistent.exists_map_ancestors`). It
does not go further, even if an ancestor above that one names an entity again.
-/

namespace CodeAtlas

namespace QualName

/-! ### Names -/

/-- Every name has a segment. -/
theorem depth_pos (q : QualName) : 0 < q.depth := by
  rw [depth, segments, List.length_map]
  exact List.length_pos_iff.2 (splitDots_ne_nil _)

theorem ancestor_zero (q : QualName) : q.ancestor 0 = some q := by
  rw [ancestor, if_pos q.depth_pos, Nat.sub_zero, depth, List.take_length, ofSegments_segments]

/-- Leaving out levels is taking the parent as many times. -/
theorem ancestor_eq_iterate (q : QualName) (levels : Nat) :
    q.ancestor levels = (Option.bind · parent)^[levels] (some q) := by
  induction levels with
  | zero => exact q.ancestor_zero
  | succ levels ih => rw [ancestor_succ, ih, Function.iterate_succ_apply']

/-- At least one segment of a name has to be left. -/
theorem ancestor_eq_none_iff {q : QualName} {levels : Nat} :
    q.ancestor levels = none ↔ q.depth ≤ levels := by
  rw [ancestor]
  split
  · next hlt => simpa using hlt
  · next hge => simpa using hge

/-- A name without dots has no parent. -/
theorem parent_eq_none_iff {q : QualName} : q.parent = none ↔ '.' ∉ q.text.toList := by
  rw [parent, ancestor_eq_none_iff]
  constructor
  · intro hdepth hdot
    obtain ⟨before, after, htext⟩ := List.append_of_mem hdot
    have hbefore := List.length_pos_iff.2 (splitDots_ne_nil before)
    have hafter := List.length_pos_iff.2 (splitDots_ne_nil after)
    rw [depth, segments, htext, splitDots_append_dot, List.length_map, List.length_append] at hdepth
    omega
  · intro hdot
    rw [depth, segments, splitDots_of_not_mem hdot]
    exact Nat.le_refl 1

/-- A name inside another has as many segments as both together. -/
theorem depth_child (q : QualName) (name : String) :
    (q.child name).depth = q.depth + (⟨name⟩ : QualName).depth := by
  rw [depth, segments_child_eq, List.length_append]
  rfl

/-- Leaving out all of the segments of a name inside another leaves that other. -/
theorem ancestor_child (q : QualName) (name : String) :
    (q.child name).ancestor (⟨name⟩ : QualName).depth = some q := by
  have hpos := q.depth_pos
  rw [ancestor, depth_child, if_pos (by omega), Nat.add_sub_cancel, segments_child_eq, depth,
    List.take_left, ofSegments_segments]

/-- The short name of a name inside another is that of the part that was added. -/
theorem name_child_eq (q : QualName) (name : String) :
    (q.child name).name = (⟨name⟩ : QualName).name := by
  have hne : (⟨name⟩ : QualName).segments ≠ [] := mt List.map_eq_nil_iff.1 (splitDots_ne_nil _)
  rw [QualName.name, QualName.name, segments_child_eq, List.getLast?_append,
    List.getLast?_eq_some_getLast hne, Option.some_or]

/-! ### Directories -/

/-- Directories have different names. -/
theorem ofPath_injective {project : String} {path path' : List String}
    (hpath : ∀ name ∈ path, '.' ∉ name.toList) (hpath' : ∀ name ∈ path', '.' ∉ name.toList)
    (h : ofPath project path none = ofPath project path' none) : path = path' := by
  have hsegments := congrArg segments h
  rw [segments_ofPath hpath, segments_ofPath hpath'] at hsegments
  exact List.append_cancel_left hsegments

/-- The parent of a directory's name is the name of the directory around it. -/
theorem parent_ofPath {project : String} {path : List String} (hne : path ≠ [])
    (hpath : ∀ name ∈ path, '.' ∉ name.toList) :
    (ofPath project path none).parent = some (ofPath project path.dropLast none) := by
  have hlast := hpath (path.getLast hne) (List.getLast_mem hne)
  rw [← parent_child hlast, ← ofPath_directory, List.dropLast_concat_getLast]

end QualName

namespace Namespace

variable {ns : Namespace} {id p : Id} {r : List Id}

/-! ### The loop without a bound -/

/-- The loop that climbs, with the chain so far and the entity at its end, and this is the
outcome. -/
inductive ClimbLoop (ns : Namespace) : (chain : List Id) → (current : Id) → List Id → Prop
  /-- There is nothing around the entity. -/
  | top {chain : List Id} {current : Id} (h : ns.parent? current = none) :
      ClimbLoop ns chain current chain
  /-- What is around the entity is added to the chain. -/
  | up {chain r : List Id} {current parent : Id} (h : ns.parent? current = some parent)
      (next : ClimbLoop ns (chain ++ [parent]) parent r) : ClimbLoop ns chain current r

/-- In a consistent namespace the loop ends, and with the chain that the bounded climb gives. -/
theorem Consistent.climbLoop_iff (h : ns.Consistent) (chain : List Id) :
    ns.ClimbLoop (chain ++ [id]) id r ↔ r = chain ++ ns.ancestors id := by
  induction id using h.parent_induction generalizing chain with
  | step id ih =>
    cases hp : ns.parent? id with
    | none =>
      rw [ancestors_of_parent?_eq_none hp]
      constructor
      · rintro (_ | ⟨hp', _⟩)
        · rfl
        · rw [hp] at hp'
          cases hp'
      · rintro rfl
        exact .top hp
    | some p =>
      have hnext : chain ++ ns.ancestors id = (chain ++ [id]) ++ ns.ancestors p := by
        rw [h.ancestors_of_parent? hp, List.append_assoc]
        rfl
      rw [hnext, ← ih p hp]
      constructor
      · rintro (hp' | ⟨hp', hloop⟩)
        · rw [hp] at hp'
          cases hp'
        · cases hp.symm.trans hp'
          exact hloop
      · exact .up hp

/-! ### The entities of the ancestors of a name -/

/-- The entity that is named by the ancestor of a name. -/
def ancestor? (ns : Namespace) (q : QualName) (levels : Nat) : Option Id :=
  (q.ancestor levels).bind ns.lookup

/-- The ancestors of the parent of a name are those of the name, from the second on. -/
theorem ancestor?_of_parent {q name : QualName} (h : q.parent = some name) (levels : Nat) :
    ns.ancestor? q (levels + 1) = ns.ancestor? name levels := by
  have hancestor : q.ancestor (levels + 1) = name.ancestor levels := by
    rw [QualName.ancestor_eq_iterate, Function.iterate_succ_apply, Option.bind_some, h,
      QualName.ancestor_eq_iterate]
  rw [ancestor?, ancestor?, hancestor]

/-- The chain of an entity is that of the ancestors of its name, up to the first of them that names
no entity. -/
theorem Consistent.exists_map_ancestors (h : ns.Consistent) {e : Entity}
    (he : ns.get? id = some e) :
    ∃ j, (ns.ancestors id).map some = (List.range (j + 1)).map (ns.ancestor? e.qualName) ∧
      ns.ancestor? e.qualName (j + 1) = none := by
  induction id using h.parent_induction generalizing e with
  | step id ih =>
    have hself : ns.ancestor? e.qualName 0 = some id := by
      rw [ancestor?, QualName.ancestor_zero]
      exact h.lookup_of_get? id e he
    cases hp : ns.parent? id with
    | none =>
      refine ⟨0, ?_, ?_⟩
      · rw [ancestors_of_parent?_eq_none hp]
        exact congrArg (· :: []) hself.symm
      · rw [parent?, he] at hp
        exact hp
    | some p =>
      obtain ⟨_, he', name, hname, hlookup⟩ := parent?_eq_some_iff.1 hp
      cases he.symm.trans he'
      obtain ⟨above, habove, rfl⟩ := h.exists_of_lookup name p hlookup
      obtain ⟨j, hmap, htop⟩ := ih p hp habove
      refine ⟨j + 1, ?_, ?_⟩
      · rw [h.ancestors_of_parent? hp, List.map_cons, hmap, List.range_succ_eq_map (n := j + 1),
          List.map_cons, hself, List.map_map]
        exact congrArg _ (List.map_congr_left fun i _ ↦ (ancestor?_of_parent hname i).symm)
      · rw [ancestor?_of_parent hname, htop]

/-- **Ancestors.** On every text, leaving out segments is cutting at the last dot again and again;
a name inside another adds its segments to those of the other; directories without dots in their
names have different names, each inside that of the directory around it. In a consistent namespace
the loop that climbs from an entity ends, and its chain is that of the entities which the ancestors
of the entity's name lead to, up to the first that leads to none. -/
theorem ancestors_of_names :
    (∀ (q : QualName) (k : Nat),
      q.ancestor k = (Option.bind · QualName.parent)^[k] (some q) ∧
      (q.ancestor k = none ↔ q.depth ≤ k) ∧
      ∀ a, q.ancestor k = some a → a.depth = q.depth - k) ∧
    (∀ q : QualName,
      (q.parent = none ↔ '.' ∉ q.text.toList) ∧
      ∀ p, q.parent = some p ↔ ∃ last : String, '.' ∉ last.toList ∧ q = p.child last) ∧
    (∀ (q : QualName) (n : String),
      (q.child n).depth = q.depth + (⟨n⟩ : QualName).depth ∧
      (q.child n).ancestor (⟨n⟩ : QualName).depth = some q ∧
      (q.child n).name = (⟨n⟩ : QualName).name) ∧
    (∀ (project : String) (d : List String), (∀ name ∈ d, '.' ∉ name.toList) →
      (∀ d' : List String, (∀ name ∈ d', '.' ∉ name.toList) →
        QualName.ofPath project d none = QualName.ofPath project d' none → d = d') ∧
      (d ≠ [] → (QualName.ofPath project d none).parent =
        some (QualName.ofPath project d.dropLast none))) ∧
    ∀ ns : Namespace, ns.Consistent → ∀ id e, ns.get? id = some e →
      (∀ chain, ns.ClimbLoop [id] id chain ↔ chain = ns.ancestors id) ∧
      ∃ j, (ns.ancestors id).map some = (List.range (j + 1)).map (ns.ancestor? e.qualName) ∧
        ns.ancestor? e.qualName (j + 1) = none := by
  refine ⟨fun q k ↦ ⟨q.ancestor_eq_iterate k, QualName.ancestor_eq_none_iff, fun a ha ↦ ?_⟩,
    fun q ↦ ⟨QualName.parent_eq_none_iff, fun p ↦ QualName.parent_eq_some_iff⟩,
    fun q n ↦ ⟨q.depth_child n, q.ancestor_child n, q.name_child_eq n⟩,
    fun project d hd ↦ ⟨fun d' hd' ↦ QualName.ofPath_injective hd hd',
      fun hne ↦ QualName.parent_ofPath hne hd⟩,
    fun ns hns id e he ↦ ⟨fun chain ↦ hns.climbLoop_iff [], hns.exists_map_ancestors he⟩⟩
  have hdepth := QualName.depth_of_ancestor ha
  omega

/-- A function in a module that is in no package: what is between the module and the project has no
entity. -/
def gapped : Namespace :=
  ofBodies "p" [(⟨"p"⟩, .package {}), (⟨"p.a.m"⟩, .component {}), (⟨"p.a.m.f"⟩, .function {})]

/-- The climb from the function ends at its module, though the project above is an entity. -/
theorem ancestors_of_names_gapped :
    gapped.Consistent ∧ gapped.ClimbLoop [2] 2 [2, 1] ∧
    (∃ j, [some 2, some 1] = (List.range (j + 1)).map (gapped.ancestor? ⟨"p.a.m.f"⟩) ∧
      gapped.ancestor? ⟨"p.a.m.f"⟩ (j + 1) = none) ∧
    (⟨".p"⟩ : QualName).depth = (⟨".p..q"⟩ : QualName).depth - 2 ∧
    QualName.ofPath "p" ["a", "b"] none ≠ QualName.ofPath "p" ["b"] none ∧
    (QualName.ofPath "p" ["a", "b"] none).parent = some (QualName.ofPath "p" ["a"] none) := by
  obtain ⟨hlevels, -, -, hpaths, hchains⟩ := ancestors_of_names
  have hconsistent : gapped.Consistent := consistent_ofBodies "p" _
  have hname : (gapped.get? 2).map (·.qualName) = some ⟨"p.a.m.f"⟩ := by decide +kernel
  obtain ⟨e, he, hname⟩ := Option.map_eq_some_iff.1 hname
  obtain ⟨hloop, hchain⟩ := hchains gapped hconsistent 2 e he
  have hancestors : gapped.ancestors 2 = [2, 1] := by decide +kernel
  rw [hname, hancestors] at hchain
  obtain ⟨hinjective, hparent⟩ := hpaths "p" ["a", "b"] (by decide)
  refine ⟨hconsistent, (hloop _).2 hancestors.symm, hchain, ?_, fun heq ↦ ?_,
    hparent (by decide)⟩
  · exact (hlevels ⟨".p..q"⟩ 2).2.2 ⟨".p"⟩ (by decide +kernel)
  · exact absurd (hinjective ["b"] (by decide) heq) (by decide)

end Namespace

end CodeAtlas
