import CodeAtlas.Pass.Imports
import CodeAtlas.Proofs.Visits

/-!
# What import resolution reads and what it writes

Resolving imports changes nothing but the import tables of scopes. `Namespace.withoutImports` is the
rest, the *frame*: the namespace with all import tables emptied. Whatever is read off a namespace
other than its import tables is read off its frame, so two namespaces with the same frame have the
same names, kinds, declarations, import sources and visits. The import tables themselves are read
through `Namespace.imported?`.

## How the frame is used

There is a lemma for each view of a namespace, saying what it shows of the frame. For most of them
that is the same as it shows of the namespace; for those that return a scope or a component, it is
the same with an empty table. That a function depends on the frame only is then proved by rewriting
with these, in one direction, and not by comparing two namespaces. `Visit.ofFile_congr` is the first
use: the visits to a file do not change while imports are resolved.

## A namespace is its frame and its tables

Namespaces with the same frame and the same import tables are equal (`Namespace.ext_imported`). It
is used where a traversal changes nothing, which is seen entry by entry.
-/

namespace CodeAtlas

/-! ### The frame of a namespace -/

/-- A body with its import table emptied. -/
def Body.withoutImports (b : Body) : Body :=
  b.mapScope fun s ↦ { s with imported := ∅ }

/-- An entity with its import table emptied. -/
def Entity.withoutImports (e : Entity) : Entity :=
  { e with body := e.body.withoutImports }

/-- A scope is its declarations and its import table. -/
theorem Scope.ext_imported {s s' : Scope}
    (hframe : ({ s' with imported := ∅ } : Scope) = { s with imported := ∅ })
    (htable : ∀ name : String, s'.imported[name]? = s.imported[name]?) : s' = s := by
  obtain ⟨declared, imported⟩ := s
  obtain ⟨declared', imported'⟩ := s'
  cases hframe
  exact congrArg (Scope.mk declared) (Std.ExtTreeMap.ext_getElem? fun name ↦ htable name)

theorem Body.mapScope_withoutImports {b : Body} {s : Scope} (h : b.scope? = some s) :
    b.withoutImports.mapScope (fun _ ↦ s) = b := by
  cases b <;> cases h <;> rfl

/-- A body without a scope is its own frame. -/
theorem Body.withoutImports_of_scope?_eq_none {b : Body} (h : b.scope? = none) :
    b.withoutImports = b := by
  cases b with
  | package => rfl
  | component | cls | function => cases h

/-- A body is its frame and its import table. -/
theorem Body.ext_imported {b b' : Body} (hframe : b'.withoutImports = b.withoutImports)
    (htable : ∀ name : String, (b'.scope?.bind fun s ↦ s.imported[name]?) =
      b.scope?.bind fun s ↦ s.imported[name]?) : b' = b := by
  have hscope : b'.scope?.map (fun s ↦ { s with imported := ∅ }) =
      b.scope?.map (fun s ↦ { s with imported := ∅ }) := by
    rw [← scope?_mapScope, ← scope?_mapScope]
    exact congrArg Body.scope? hframe
  cases hs : b.scope? with
  | none =>
    rw [hs, Option.map_none, Option.map_eq_none_iff] at hscope
    rw [← withoutImports_of_scope?_eq_none hscope, hframe, withoutImports_of_scope?_eq_none hs]
  | some s =>
    rw [hs, Option.map_some] at hscope
    obtain ⟨s', hs', heq⟩ := Option.map_eq_some_iff.1 hscope
    rw [hs, hs'] at htable
    have hsame : s' = s := Scope.ext_imported heq htable
    rw [← mapScope_withoutImports hs', hframe, hsame, mapScope_withoutImports hs]

namespace Namespace

variable {ns ns' : Namespace} {id : Id}

/-- The frame: all of a namespace but its import tables. -/
def withoutImports (ns : Namespace) : Namespace :=
  { ns with entities := ns.entities.map fun _ e ↦ e.withoutImports }

/-- What a name is imported as in a scope. -/
def imported? (ns : Namespace) (id : Id) (name : String) : Option QualName :=
  (ns.scope? id).bind (·.imported[name]?)

/-! ### What the frame still shows -/

@[simp]
theorem lookup_withoutImports (q : QualName) : ns.withoutImports.lookup q = ns.lookup q :=
  rfl

@[simp]
theorem sources_withoutImports : ns.withoutImports.sources = ns.sources :=
  rfl

theorem get?_withoutImports : ns.withoutImports.get? id = (ns.get? id).map Entity.withoutImports :=
  Std.ExtTreeMap.getElem?_map

@[simp]
theorem kind?_withoutImports : ns.withoutImports.kind? id = ns.kind? id := by
  unfold kind?
  rw [get?_withoutImports]
  cases ns.get? id with
  | none => rfl
  | some e => exact congrArg some (Body.kind_mapScope e.body fun s ↦ { s with imported := ∅ })

theorem scope?_withoutImports :
    ns.withoutImports.scope? id = (ns.scope? id).map fun s ↦ { s with imported := ∅ } := by
  unfold scope?
  rw [get?_withoutImports]
  cases ns.get? id with
  | none => rfl
  | some e => exact Body.scope?_mapScope e.body fun s ↦ { s with imported := ∅ }

@[simp]
theorem isSome_scope?_withoutImports :
    (ns.withoutImports.scope? id).isSome = (ns.scope? id).isSome := by
  rw [scope?_withoutImports, Option.isSome_map]

theorem component?_withoutImports :
    ns.withoutImports.component? id =
      (ns.component? id).map fun c ↦ { c with scope := { c.scope with imported := ∅ } } := by
  unfold component?
  rw [get?_withoutImports]
  cases ns.get? id with
  | none => rfl
  | some e =>
    show e.body.withoutImports.component? = _
    rcases e with ⟨_, _, b⟩
    cases b <;> rfl

/-- The frame shows where an import statement takes from. -/
@[simp]
theorem importSource_withoutImports (component : Id) (path : Option String) (level : Nat) :
    ns.withoutImports.importSource component path level =
      ns.importSource component path level := by
  cases level with
  | zero => rfl
  | succ outward =>
    simp only [importSource, get?_withoutImports]
    rcases ns.get? component with - | ⟨_, _, b⟩
    · rfl
    · cases b <;> rfl

/-- A namespace is its frame and its import tables. -/
theorem ext_imported (hframe : ns'.withoutImports = ns.withoutImports)
    (himported : ∀ id name, ns'.imported? id name = ns.imported? id name) : ns' = ns := by
  have hentities : ns'.entities = ns.entities := by
    refine Std.ExtTreeMap.ext_getElem? fun id ↦ ?_
    have hget : (ns'.get? id).map Entity.withoutImports =
        (ns.get? id).map Entity.withoutImports := by
      rw [← get?_withoutImports, hframe, get?_withoutImports]
    have htable := himported id
    unfold imported? scope? at htable
    show ns'.get? id = ns.get? id
    cases he' : ns'.get? id with
    | none =>
      rw [he', Option.map_none, eq_comm, Option.map_eq_none_iff] at hget
      exact hget.symm
    | some e' =>
      cases he : ns.get? id with
      | none =>
        rw [he', he] at hget
        cases hget
      | some e =>
        rw [he', he] at hget htable
        obtain ⟨_, _, body⟩ := e
        obtain ⟨_, _, body'⟩ := e'
        injection Option.some.inj hget with hid hname hbody
        have hsame : body' = body := Body.ext_imported hbody htable
        cases hid
        cases hname
        rw [hsame]
  -- the frame has all other fields as they are
  obtain ⟨_, _, _, _, _, _, _, _, _⟩ := ns
  obtain ⟨_, _, _, _, _, _, _, _, _⟩ := ns'
  cases hentities
  injection hframe
  congr

end Namespace

/-! ### Visits depend on the frame only -/

/-- The frame shows which scope a definition leads to. -/
@[simp]
theorem ScopeStack.childScope_withoutImports (s : ScopeStack) (ns : Namespace) (name : String) :
    s.childScope ns.withoutImports name = s.childScope ns name := by
  simp only [childScope, Namespace.scope?_withoutImports]
  cases ns.scope? s.current with
  | none => rfl
  | some scope => simp

namespace Visit

/-- The frame shows which scope is entered at a definition. -/
@[simp]
theorem enter_withoutImports (ns : Namespace) (scopes : ScopeStack) (name : Ident) :
    enter ns.withoutImports scopes name = enter ns scopes name := by
  unfold enter
  rw [ScopeStack.childScope_withoutImports]

/-- The visits to a file are the same in all namespaces with the same frame. -/
theorem ofFile_congr {ns ns' : Namespace} (h : ns'.withoutImports = ns.withoutImports)
    (reach : Reach) (component : Id) (file : List Stmt) :
    ofFile ns' reach component file = ofFile ns reach component file := by
  refine ofFile_congr_of_enter (funext fun s ↦ funext fun name ↦ ?_) reach component file
  rw [← enter_withoutImports, h, enter_withoutImports]

end Visit

end CodeAtlas
