import CodeAtlas.Visit
import CodeAtlas.Proofs.Store

/-!
# The scopes of visits

A pass visits places of a file: class definitions, import statements and expressions. Each visit
stands in scopes that were entered one by one from the component of the file.

A property of scope stacks that entering a definition keeps therefore holds at every visit
(`scopes_of_mem_ofStmts`). The recursion over statements is opened with one induction principle, in
which the block inside the first statement of a block and the statements after it are both smaller
(`Stmt.block_induction`).

Which definitions are entered is all that the visits take from the namespace
(`ofFile_congr_of_enter`). So they are the same in all namespaces with the same declarations, and
those of a pass that does not enter definitions are the same in all namespaces
(`ofFile_of_not_definitions`).
-/

namespace CodeAtlas

/-- Only a class or a function is entered. -/
theorem ScopeStack.kind?_of_childScope {s : ScopeStack} {ns : Namespace} {name : String} {id : Id}
    (h : s.childScope ns name = some id) :
    ns.kind? id = some .cls ∨ ns.kind? id = some .function := by
  simp only [childScope, Option.bind_eq_bind, Option.bind_eq_some_iff] at h
  obtain ⟨scope, -, target, -, id', -, kind, hkind, hid⟩ := h
  cases kind with
  | package | component => cases hid
  | cls =>
    cases hid
    exact .inl hkind
  | function =>
    cases hid
    exact .inr hkind

section Induction

variable {motive : List Stmt → Prop} (nil : motive [])
  (simple : ∀ exprs rest, motive rest → motive (.simple exprs :: rest))
  (importModules : ∀ clauses rest, motive rest → motive (.importModules clauses :: rest))
  (importFrom : ∀ source rest, motive rest → motive (.importFrom source :: rest))
  (compound : ∀ head body rest, motive body → motive rest → motive (.compound head body :: rest))
  (classDef : ∀ head body rest, motive body → motive rest → motive (.classDef head body :: rest))
  (funcDef : ∀ head body rest, motive body → motive rest → motive (.funcDef head body :: rest))

include nil simple importModules importFrom compound classDef funcDef

/-- Induction on a block of statements: the block inside its first statement and what comes after
this statement are both smaller. -/
theorem Stmt.block_induction : ∀ block, motive block
  | [] => nil
  | .simple exprs :: rest => simple exprs rest (block_induction rest)
  | .importModules clauses :: rest => importModules clauses rest (block_induction rest)
  | .importFrom source :: rest => importFrom source rest (block_induction rest)
  | .compound head body :: rest =>
    compound head body rest (block_induction body) (block_induction rest)
  | .classDef head body :: rest =>
    classDef head body rest (block_induction body) (block_induction rest)
  | .funcDef head body :: rest =>
    funcDef head body rest (block_induction body) (block_induction rest)

end Induction

namespace Visit

variable {ns : Namespace} {reach : Reach}

theorem scopes_of_mem_ofExprs {scopes : ScopeStack} {unbound : Nat} {exprs : List Expr} {v : Visit}
    (hv : v ∈ ofExprs reach scopes unbound exprs) : v.scopes = scopes := by
  obtain ⟨e, -, rfl⟩ := List.mem_map.1 hv
  rfl

/-- What entering a definition keeps holds of the scopes at each visit. -/
theorem scopes_of_mem_ofStmts (holds : ScopeStack → Prop)
    (henter : ∀ s name, holds s → holds (enter ns s name))
    {scopes : ScopeStack} {unbound : Nat} {block : List Stmt} {v : Visit} (h : holds scopes)
    (hv : v ∈ ofStmts ns reach scopes unbound block) : holds v.scopes := by
  induction block using Stmt.block_induction generalizing scopes unbound with
  | nil => cases hv
  | simple exprs rest ih =>
    rcases List.mem_append.1 hv with hv | hv
    · exact scopes_of_mem_ofExprs hv ▸ h
    · exact ih h hv
  | importModules clauses rest ih | importFrom source rest ih =>
    rcases List.mem_cons.1 hv with rfl | hv
    · exact h
    · exact ih h hv
  | compound head body rest ihBody ihRest =>
    simp only [ofStmts, ofStmt, List.mem_append] at hv
    rcases hv with (hv | hv) | hv
    · exact scopes_of_mem_ofExprs hv ▸ h
    · exact ihBody h hv
    · exact ihRest h hv
  | classDef head body rest ihBody ihRest | funcDef head body rest ihBody ihRest =>
    simp only [ofStmts, ofStmt, List.mem_append, List.mem_cons] at hv
    rcases hv with (hv | rfl | hv) | hv
    · exact scopes_of_mem_ofExprs hv ▸ h
    · exact h
    · split at hv
      · rcases List.mem_append.1 hv with hv | hv
        · exact scopes_of_mem_ofExprs hv ▸ h
        · exact ihBody (henter _ _ h) hv
      · cases hv
    · exact ihRest h hv

/-! ### What visits depend on -/

/-- The visits to a block depend on which definitions are entered. -/
theorem ofStmts_congr {ns ns' : Namespace} (h : enter ns' = enter ns) (reach : Reach)
    (scopes : ScopeStack) (unbound : Nat) (block : List Stmt) :
    ofStmts ns' reach scopes unbound block = ofStmts ns reach scopes unbound block := by
  induction block using Stmt.block_induction generalizing scopes unbound with
  | nil => rfl
  | simple exprs rest ih | importModules clauses rest ih | importFrom source rest ih =>
    simp only [ofStmts, ofStmt, ih]
  | compound head body rest ihBody ihRest => simp only [ofStmts, ofStmt, ihBody, ihRest]
  | classDef head body rest ihBody ihRest | funcDef head body rest ihBody ihRest =>
    simp only [ofStmts, ofStmt, h, ihBody, ihRest]

/-- The visits to a file depend on which definitions are entered, and on nothing else of the
namespace. -/
theorem ofFile_congr_of_enter {ns ns' : Namespace} (h : enter ns' = enter ns) (reach : Reach)
    (component : Id) (file : List Stmt) :
    ofFile ns' reach component file = ofFile ns reach component file :=
  ofStmts_congr h reach { component } 0 file

/-- A pass that does not enter definitions visits the same places in all namespaces. -/
theorem ofFile_of_not_definitions (ns ns' : Namespace) {reach : Reach}
    (h : reach.definitions = false) (component : Id) (file : List Stmt) :
    ofFile ns' reach component file = ofFile ns reach component file := by
  have hblock : ∀ scopes unbound (block : List Stmt),
      ofStmts ns' reach scopes unbound block = ofStmts ns reach scopes unbound block := by
    intro scopes unbound block
    induction block using Stmt.block_induction with
    | nil => rfl
    | simple exprs rest ih | importModules clauses rest ih | importFrom source rest ih =>
      simp only [ofStmts, ofStmt, ih]
    | compound head body rest ihBody ihRest => simp only [ofStmts, ofStmt, ihBody, ihRest]
    | classDef head body rest ihBody ihRest | funcDef head body rest ihBody ihRest =>
      simp [ofStmts, ofStmt, h, ihRest]
  exact hblock { component } 0 file

/-! ### Tables -/

/-- The scope that a statement of a component's file stands in has tables. -/
theorem isSome_scope?_of_mem_ofFile {component : Id} {file : List Stmt} {v : Visit}
    (hkind : ns.kind? component = some .component) (hv : v ∈ ofFile ns reach component file) :
    (ns.scope? v.scopes.current).isSome := by
  refine scopes_of_mem_ofStmts (fun s ↦ (ns.scope? s.current).isSome) (fun s name hs ↦ ?_) ?_ hv
  · unfold enter
    split
    · next id hid =>
      rw [Namespace.isSome_scope?_iff]
      rcases ScopeStack.kind?_of_childScope hid with hk | hk
      · exact ⟨_, hk, by decide⟩
      · exact ⟨_, hk, by decide⟩
    · exact hs
  · rw [Namespace.isSome_scope?_iff]
    exact ⟨_, hkind, by decide⟩

end Visit

end CodeAtlas
