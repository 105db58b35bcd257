import CodeAtlas.Proofs.Later
import CodeAtlas.Proofs.LiveNames
import CodeAtlas.Proofs.Turns

/-!
# The scopes of a file

A visit to a file finds the entity it stands in by names, through a stack of scopes, and the names
may lead anywhere: a definition may be nested to any depth, and its name may belong to something
else. Still the stack never leaves the component of the file.

## What is declared

What a scope declares is named below the scope and held by it (`Namespace.Housed`), so entering a
definition leads from a component to one of its classes or functions and from a class to one of its
methods, and from a function nowhere (`Housed.houses_of_childScope`). This holds of what is built
(`housed_build`) and is seen in outlines (`SameOutline.housed`), so it holds after passes.

## Stacks

The stacks of a file are therefore of four shapes (`ScopeStack.Own`), whatever its statements are:
they end at the module, in a class, in a function or in a method. Each entity has an innermost
component around it (`Namespace.home?`), and for the scope in which a visit stands this is the
component of the file (`ScopeStack.Own.home?_current`). So no entity is a scope in the files of two
components, which is why files can be visited in any order.
-/

namespace CodeAtlas

namespace Namespace

variable {built ns ns' : Namespace} {m id owner : Id} {s : Shelf}

/-! ### What is around what is declared -/

/-- What is declared is named below the entity that declares it, and held by the entity around it by
name. -/
structure Housed (ns : Namespace) : Prop extends Tidy ns where
  declared : ∀ id e, ns.get? id = some e → e.DeclaresIn ns
  owned : ∀ i kind, ns.kind? i = some kind → ns.Owned i kind

/-- An entity has another on a shelf and is around it by name. -/
structure Houses (ns : Namespace) (owner : Id) (s : Shelf) (id : Id) : Prop where
  parent : ns.parent? id = some owner
  holds : ns.Holds owner s id
  kind : ∃ kind, ns.kind? id = some kind ∧ s.Admits kind

/-- On the shelf of the classes there are classes. -/
theorem Houses.kind?_of_classes (h : ns.Houses owner .classes id) : ns.kind? id = some .cls := by
  obtain ⟨_, hkind, rfl⟩ := h.kind
  exact hkind

/-- On the shelves of functions and of methods there are functions. -/
theorem Houses.kind?_of_functions (h : ns.Houses owner s id) (hs : s = .functions ∨ s = .methods) :
    ns.kind? id = some .function := by
  obtain ⟨kind, hkind, hadmits⟩ := h.kind
  rcases hs with rfl | rfl
  · exact hkind.trans (congrArg some hadmits)
  · exact hkind.trans (congrArg some hadmits)

/-- In what is built, what is declared is named below what declares it and held by it. -/
theorem housed_build {project : Project} (h : project.build = .ok built) : built.Housed where
  toTidy := (named_build h).toTidy
  declared := (named_build h).declared
  owned := (complete_build h).owned

/-- Outlines show what is around an entity by name. -/
theorem SameOutline.parent? (h : ns.SameOutline ns') (id : Id) :
    ns'.parent? id = ns.parent? id := by
  have hname := congrArg (Option.map Outline.qualName) (h.outline id)
  rw [Option.map_map, Option.map_map] at hname
  have hparent := congrArg (fun o ↦ o.bind fun q ↦ q.parent.bind ns.lookup) hname
  rw [Option.bind_map, Option.bind_map] at hparent
  show (ns'.get? id).bind (fun e ↦ e.qualName.parent.bind ns'.lookup) = _
  rw [funext h.lookup]
  exact hparent

/-- Whether what is declared is named below what declares it is seen in outlines. -/
theorem SameOutline.housed (h : ns.SameOutline ns') (hns : ns.Housed) : ns'.Housed := by
  refine ⟨h.tidy hns.toTidy, h.declaresIn hns.declared, fun i kind hi ↦ ?_⟩
  rw [h.kind?] at hi
  have howned := hns.owned i kind hi
  cases kind with
  | package | component => trivial
  | cls =>
    obtain ⟨owner, hparent, hholds⟩ := howned
    exact ⟨owner, (h.parent? i).trans hparent, h.holds.2 hholds⟩
  | function =>
    obtain ⟨owner, hparent, hholds⟩ := howned
    exact ⟨owner, (h.parent? i).trans hparent, hholds.imp h.holds.2 h.holds.2⟩

/-- **What is entered.** From a component its classes and functions, from a class its methods. -/
theorem Housed.houses_of_childScope (h : ns.Housed) {scopes : ScopeStack} {name : Ident}
    (hid : scopes.childScope ns name.text = some id) :
    (ns.kind? scopes.current = some .component ∧
        (ns.Houses scopes.current .classes id ∨ ns.Houses scopes.current .functions id)) ∨
      ns.kind? scopes.current = some .cls ∧ ns.Houses scopes.current .methods id := by
  simp only [ScopeStack.childScope, Option.bind_eq_bind, Option.bind_eq_some_iff] at hid
  obtain ⟨scope, hscope, q, hq, target, hlookup, kind, hkind, heq⟩ := hid
  obtain rfl : target = id := by
    cases kind with
    | package | component => cases heq
    | cls | function => exact Option.some.inj heq
  obtain ⟨e, he, hscope⟩ := Option.bind_eq_some_iff.1 hscope
  obtain ⟨rfl, target', body, hbody, htarget⟩ := h.declared _ e he scope hscope _ q hq
  rw [htarget.lookup h.toConsistent] at hlookup
  cases hlookup
  have hcurrent : ns.kind? scopes.current = some e.kind := by
    rw [kind?, he]
    rfl
  -- the name has no dots, so the scope it was declared in is around it
  have hparent : ns.parent? target = some scopes.current := by
    obtain ⟨e', he', -, hname⟩ := htarget
    refine parent?_eq_some_iff.2 ⟨e', he', e.qualName, ?_, h.lookup_of_get? _ e he⟩
    rw [hname]
    exact QualName.parent_child name.dotFree
  have howned := h.owned target body.kind htarget.kind?
  have hlive := htarget.kind?
  rw [hcurrent]
  generalize e.kind = outer at hbody hcurrent
  cases hbody with
  | cls =>
    obtain ⟨owner, howner, hholds⟩ := howned
    cases hparent.symm.trans howner
    exact .inl ⟨rfl, .inl ⟨hparent, hholds, _, hlive, rfl⟩⟩
  | function f =>
    obtain ⟨owner, howner, hholds⟩ := howned
    cases hparent.symm.trans howner
    rcases hholds with hholds | hholds
    · exact .inl ⟨rfl, .inr ⟨hparent, hholds, _, hlive, rfl⟩⟩
    · cases hcurrent.symm.trans hholds.kind?_of_methods
  | method f =>
    obtain ⟨owner, howner, hholds⟩ := howned
    cases hparent.symm.trans howner
    rcases hholds with hholds | hholds
    · cases hcurrent.symm.trans (hholds.kind?_of_declared (.inr rfl))
    · exact .inr ⟨rfl, hparent, hholds, _, hlive, rfl⟩

/-- The innermost component around an entity. -/
def home? (ns : Namespace) (id : Id) : Option Id :=
  (ns.ancestors id).find? fun i ↦ ns.kind? i == some .component

/-- A component is the innermost component around itself. -/
theorem home?_of_component (h : ns.kind? id = some .component) : ns.home? id = some id := by
  have hhead : ∃ outer, ns.ancestors id = id :: outer := by
    unfold ancestors
    cases ns.depth id with
    | zero => exact ⟨[], rfl⟩
    | succ levels =>
      unfold climb
      split
      · exact ⟨[], rfl⟩
      · exact ⟨_, rfl⟩
  obtain ⟨outer, houter⟩ := hhead
  rw [home?, houter, List.find?_cons, h]
  rfl

/-- What is around a class or a function is around what declares it. -/
theorem Houses.home?_eq (h : ns.Houses owner s id) (hc : ns.Consistent)
    (hkind : ns.kind? id ≠ some .component) : ns.home? id = ns.home? owner := by
  have hskip : (ns.kind? id == some .component) = false := beq_eq_false_iff_ne.2 hkind
  rw [home?, hc.ancestors_of_parent? h.parent, List.find?_cons, hskip, home?]

/-- An entity is a class, a function or a method of a component. -/
def DeclaredIn (ns : Namespace) (m id : Id) : Prop :=
  ns.Holds m .classes id ∨ ns.Holds m .functions id ∨
    ∃ cls, ns.Holds m .classes cls ∧ ns.Holds cls .methods id

end Namespace

/-! ### Stacks -/

namespace ScopeStack

variable {ns : Namespace} {m owner : Id} {s : ScopeStack}

/-- The stacks in the file of a component: they end at the module, in a class, in a function, or in
a method. -/
inductive Own (ns : Namespace) (m : Id) : ScopeStack → Prop
  | module : Own ns m { component := m }
  | cls {id : Id} (h : ns.Houses m .classes id) : Own ns m ⟨m, [id]⟩
  | function {id : Id} (h : ns.Houses m .functions id) : Own ns m ⟨m, [id]⟩
  | method {id cls : Id} (hcls : ns.Houses m .classes cls) (h : ns.Houses cls .methods id) :
    Own ns m ⟨m, [id, cls]⟩

namespace Own

theorem component_eq (h : s.Own ns m) : s.component = m := by
  cases h <;> rfl

/-- Entering a definition stays in the file. -/
theorem enter (h : s.Own ns m) (hns : ns.Housed) (hm : ns.kind? m = some .component)
    (name : Ident) : (Visit.enter ns s name).Own ns m := by
  unfold Visit.enter
  split
  · next id hid =>
    rcases hns.houses_of_childScope hid with ⟨hkind, hhouses⟩ | ⟨hkind, hhouses⟩
    · cases h with
      | module => exact hhouses.elim .cls .function
      | cls h => cases h.kind?_of_classes.symm.trans hkind
      | function h => cases (h.kind?_of_functions (.inl rfl)).symm.trans hkind
      | method _ h => cases (h.kind?_of_functions (.inr rfl)).symm.trans hkind
    · cases h with
      | module => cases hm.symm.trans hkind
      | cls h => exact .method h hhouses
      | function h => cases (h.kind?_of_functions (.inl rfl)).symm.trans hkind
      | method _ h => cases (h.kind?_of_functions (.inr rfl)).symm.trans hkind
  · exact h

/-- The innermost scope is the component or declared in it. -/
theorem current_cases (h : s.Own ns m) : s.current = m ∨ ns.DeclaredIn m s.current := by
  cases h with
  | module => exact .inl rfl
  | cls h => exact .inr (.inl h.holds)
  | function h => exact .inr (.inr (.inl h.holds))
  | method hcls h => exact .inr (.inr (.inr ⟨_, hcls.holds, h.holds⟩))

/-- The component is the innermost one around the innermost scope. -/
theorem home?_current (h : s.Own ns m) (hc : ns.Consistent) (hm : ns.kind? m = some .component) :
    ns.home? s.current = some m := by
  rw [← Namespace.home?_of_component hm]
  cases h with
  | module => rfl
  | cls h => exact h.home?_eq hc (by rw [h.kind?_of_classes]; decide)
  | function h => exact h.home?_eq hc (by rw [h.kind?_of_functions (.inl rfl)]; decide)
  | method hcls h =>
    refine (h.home?_eq hc (by rw [h.kind?_of_functions (.inr rfl)]; decide)).trans ?_
    exact hcls.home?_eq hc (by rw [hcls.kind?_of_classes]; decide)

/-- A class around the innermost scope is one of the component. -/
theorem houses_of_enclosingClass (h : s.Own ns m) (hm : ns.kind? m = some .component)
    (howner : s.enclosingClass ns = some owner) : ns.Houses m .classes owner := by
  have houter := Attributes.enclosingClass_component hm
  have hpush : ∀ {id cls : Id}, (⟨m, [id, cls]⟩ : ScopeStack) = push ⟨m, [cls]⟩ id := rfl
  have hpush' : ∀ {id : Id}, (⟨m, [id]⟩ : ScopeStack) = push { component := m } id := rfl
  cases h with
  | module => cases houter.symm.trans howner
  | cls h =>
    rw [hpush', Attributes.enclosingClass_push h.kind?_of_classes, if_pos rfl] at howner
    cases howner
    exact h
  | function h =>
    rw [hpush', Attributes.enclosingClass_push (h.kind?_of_functions (.inl rfl)),
      if_neg (by decide), houter] at howner
    cases howner
  | method hcls h =>
    rw [hpush, Attributes.enclosingClass_push (h.kind?_of_functions (.inr rfl)),
      if_neg (by decide), hpush', Attributes.enclosingClass_push hcls.kind?_of_classes,
      if_pos rfl] at howner
    cases howner
    exact hcls

end Own

end ScopeStack

/-- **Visits stay in the file.** Each visit to the file of a component stands in the component, or
in a class, a function or a method of it. -/
theorem Visit.own_of_mem_ofFile {ns : Namespace} {m : Id} {reach : Reach} {file : List Stmt}
    {v : Visit} (hns : ns.Housed) (hm : ns.kind? m = some .component)
    (hv : v ∈ Visit.ofFile ns reach m file) : v.scopes.Own ns m :=
  scopes_of_mem_ofStmts (ScopeStack.Own ns m) (fun _ name hs ↦ hs.enter hns hm name) .module hv

end CodeAtlas
