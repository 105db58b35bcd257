import CodeAtlas.Proofs.Visits
import CodeAtlas.Source.Declaration

/-!
# Definitions that are not entities

Declarations are scanned for in the blocks of a module and of the classes directly in it; what is
defined deeper becomes no entity, and its body belongs to the entity around it. The planned visits
say so: they enter a definition only where the scan records it (`Visit.planned`).

## When the visits are the planned ones

The visits themselves look the name of a definition up in the scope around it, wherever the
definition stands. They are the planned ones exactly if no nested definition has a name that the
scope around it declares (`ofStmts_eq_planned_iff`). Otherwise the body of the definition is visited
inside something else of the same name. A body without anything to visit makes no difference, which
is the other case in `Nested.Stays`.

For the direction from visits to definitions it is used that as many places are visited as planned,
whatever the scopes (`length_ofStmts`), so that two lists of visits can be compared piece by piece.

## Where planned visits stand

A planned visit stands in the module, in something that the module declares, or in a method, that is
in a function directly in a class that is directly in the file (`inMethod_of_mem_plannedFile`). Here
compound statements do not count: what is inside a conditional or a loop is directly in the block
around it (`Stmt.Direct`). The body of a nested definition is visited in one piece, in the scopes
around the definition (`planned_infix_of_mem_nested`).
-/

namespace CodeAtlas

/-- Where a block stands, as the scan for declarations sees it: in a module, in a class that a
module declares, or deeper. -/
inductive Place where
  | module
  | cls
  | inner
deriving DecidableEq

/-- Where a block stands, and the scopes around it. -/
structure Context where
  place : Place
  scopes : ScopeStack

/-- Whether the scan for declarations records a definition. -/
def Place.records (place : Place) (definition : Stmt) : Bool :=
  match place with
  | .module => !(Declaration.ofStmt definition).isEmpty
  | .cls => !(Declaration.methods definition).isEmpty
  | .inner => false

/-- Where the body of a definition stands: in the entity that the definition declares, which is the
place `own`, or else with the definition. -/
def Context.inside (ns : Namespace) (c : Context) (definition : Stmt) (own : Place) (name : Ident) :
    Context :=
  if c.place.records definition then
    match c.scopes.childScope ns name.text with
    | some id => ⟨own, c.scopes.push id⟩
    | none => ⟨.inner, c.scopes⟩
  else ⟨.inner, c.scopes⟩

namespace Visit

mutual

/-- The visits to a statement if only definitions that the scan records are entered. -/
def planned (ns : Namespace) (reach : Reach) (c : Context) (unbound : Nat) : Stmt → List Visit
  | .simple exprs => ofExprs reach c.scopes unbound exprs
  | .importModules clauses => [⟨c.scopes, unbound, .importModules clauses⟩]
  | .importFrom source => [⟨c.scopes, unbound, .importFrom source⟩]
  | .compound head body =>
    ofExprs reach c.scopes unbound head ++ plannedList ns reach c unbound body
  | .classDef head body =>
    ofExprs reach c.scopes unbound head.decorators ++
      ⟨c.scopes, unbound, .classDef head⟩ ::
        if reach.definitions then
          ofExprs reach c.scopes unbound head.parts ++
            plannedList ns reach (c.inside ns (.classDef head body) .cls head.name) unbound body
        else []
  | .funcDef head body =>
    ofExprs reach c.scopes unbound head.decorators ++
      ⟨c.scopes, unbound, .funcDef head⟩ ::
        if reach.definitions then
          let unbound := if head.isUnbound then unbound + 1 else unbound
          ofExprs reach c.scopes unbound head.parts ++
            plannedList ns reach (c.inside ns (.funcDef head body) .inner head.name) unbound body
        else []

/-- The visits to a block if only definitions that the scan records are entered. -/
def plannedList (ns : Namespace) (reach : Reach) (c : Context) (unbound : Nat) :
    List Stmt → List Visit
  | [] => []
  | s :: rest => planned ns reach c unbound s ++ plannedList ns reach c unbound rest

end

/-- The planned visits to the file of a component. -/
def plannedFile (ns : Namespace) (reach : Reach) (component : Id) (file : List Stmt) : List Visit :=
  plannedList ns reach ⟨.module, { component }⟩ 0 file

end Visit

/-- A definition that the scan does not record: the scopes around it, its name and its body. -/
structure Nested where
  scopes : ScopeStack
  name : Ident
  body : List Stmt

mutual

/-- The nested definitions in a statement. -/
def Nested.ofStmt (ns : Namespace) (c : Context) : Stmt → List Nested
  | .simple _ | .importModules _ | .importFrom _ => []
  | .compound _ body => Nested.ofStmts ns c body
  | .classDef head body =>
    (if c.place.records (.classDef head body) then [] else [⟨c.scopes, head.name, body⟩]) ++
      Nested.ofStmts ns (c.inside ns (.classDef head body) .cls head.name) body
  | .funcDef head body =>
    (if c.place.records (.funcDef head body) then [] else [⟨c.scopes, head.name, body⟩]) ++
      Nested.ofStmts ns (c.inside ns (.funcDef head body) .inner head.name) body

/-- The nested definitions in a block. -/
def Nested.ofStmts (ns : Namespace) (c : Context) : List Stmt → List Nested
  | [] => []
  | s :: rest => Nested.ofStmt ns c s ++ Nested.ofStmts ns c rest

end

/-- The nested definitions in the file of a component. -/
def Nested.ofFile (ns : Namespace) (component : Id) (file : List Stmt) : List Nested :=
  Nested.ofStmts ns ⟨.module, { component }⟩ file

/-- The body of a nested definition is visited in the scopes around the definition: they declare
nothing of its name, or there is nothing in the body to visit. -/
def Nested.Stays (ns : Namespace) (reach : Reach) (d : Nested) : Prop :=
  d.scopes.childScope ns d.name.text = none ∨ Visit.ofStmts ns reach d.scopes 0 d.body = []

instance (ns : Namespace) (reach : Reach) (d : Nested) : Decidable (d.Stays ns reach) :=
  inferInstanceAs (Decidable (_ ∨ _))

variable {ns : Namespace} {reach : Reach} {c : Context}

/-- The body of a definition that is not recorded belongs to the scopes around it. -/
theorem Context.inside_of_not_records {definition : Stmt} {own : Place} {name : Ident}
    (h : ¬ c.place.records definition) :
    c.inside ns definition own name = ⟨.inner, c.scopes⟩ :=
  if_neg h

theorem Context.scopes_inside_of_records {definition : Stmt} {own : Place} {name : Ident}
    (h : c.place.records definition) :
    (c.inside ns definition own name).scopes = Visit.enter ns c.scopes name := by
  rw [inside, if_pos h, Visit.enter]
  cases c.scopes.childScope ns name.text <;> rfl

namespace Visit

/-! ### Planned visits -/

/-- As many places are visited as planned, whatever the scopes. -/
theorem length_ofStmts (ns : Namespace) (reach : Reach) (scopes : ScopeStack)
    (unbound unbound' : Nat) (c : Context) (block : List Stmt) :
    (ofStmts ns reach scopes unbound block).length =
      (plannedList ns reach c unbound' block).length := by
  have hexprs : ∀ (scopes scopes' : ScopeStack) (unbound unbound' : Nat) (exprs : List Expr),
      (ofExprs reach scopes unbound exprs).length = (ofExprs reach scopes' unbound' exprs).length :=
    fun _ _ _ _ _ ↦ by simp only [ofExprs, List.length_map]
  induction block using Stmt.block_induction generalizing scopes unbound unbound' c with
  | nil => rfl
  | simple exprs rest ih =>
    simp only [ofStmts, ofStmt, plannedList, planned, List.length_append]
    rw [hexprs scopes c.scopes unbound unbound' exprs, ih scopes unbound unbound' c]
  | importModules clauses rest ih | importFrom source rest ih =>
    simp only [ofStmts, ofStmt, plannedList, planned, List.length_append, List.length_cons]
    rw [ih scopes unbound unbound' c]
  | compound head body rest ihBody ihRest =>
    simp only [ofStmts, ofStmt, plannedList, planned, List.length_append]
    rw [hexprs scopes c.scopes unbound unbound' head, ihBody scopes unbound unbound' c,
      ihRest scopes unbound unbound' c]
  | classDef head body rest ihBody ihRest =>
    simp only [ofStmts, ofStmt, plannedList, planned, List.length_append, List.length_cons]
    rw [hexprs scopes c.scopes unbound unbound' head.decorators, ihRest scopes unbound unbound' c]
    split
    · rw [List.length_append, List.length_append,
        hexprs scopes c.scopes unbound unbound' head.parts, ihBody]
    · rfl
  | funcDef head body rest ihBody ihRest =>
    simp only [ofStmts, ofStmt, plannedList, planned, List.length_append, List.length_cons]
    rw [hexprs scopes c.scopes unbound unbound' head.decorators, ihRest scopes unbound unbound' c]
    split
    · rw [List.length_append, List.length_append, hexprs scopes c.scopes, ihBody]
    · rfl

/-- Whether there is something to visit does not depend on the scopes. -/
theorem ofStmts_eq_nil_iff (scopes scopes' : ScopeStack) (unbound unbound' : Nat)
    (block : List Stmt) :
    ofStmts ns reach scopes unbound block = [] ↔ ofStmts ns reach scopes' unbound' block = [] := by
  have hlength := length_ofStmts ns reach scopes unbound 0 ⟨.inner, scopes⟩ block
  rw [← length_ofStmts ns reach scopes' unbound'] at hlength
  rw [← List.length_eq_zero_iff, hlength, List.length_eq_zero_iff]

/-- Deep inside nothing is entered. -/
theorem scopes_of_mem_plannedList {scopes : ScopeStack} {unbound : Nat} {block : List Stmt}
    {v : Visit} (hv : v ∈ plannedList ns reach ⟨.inner, scopes⟩ unbound block) :
    v.scopes = scopes := by
  have hinside : ∀ definition own name,
      Context.inside ns ⟨.inner, scopes⟩ definition own name = ⟨.inner, scopes⟩ :=
    fun _ _ _ ↦ Context.inside_of_not_records Bool.false_ne_true
  induction block using Stmt.block_induction generalizing unbound with
  | nil => cases hv
  | simple exprs rest ih =>
    rcases List.mem_append.1 hv with hv | hv
    · exact scopes_of_mem_ofExprs hv
    · exact ih hv
  | importModules clauses rest ih | importFrom source rest ih =>
    rcases List.mem_cons.1 hv with rfl | hv
    · rfl
    · exact ih hv
  | compound head body rest ihBody ihRest =>
    simp only [plannedList, planned, List.mem_append] at hv
    rcases hv with (hv | hv) | hv
    · exact scopes_of_mem_ofExprs hv
    · exact ihBody hv
    · exact ihRest hv
  | classDef head body rest ihBody ihRest | funcDef head body rest ihBody ihRest =>
    simp only [plannedList, planned, hinside, List.mem_append, List.mem_cons] at hv
    rcases hv with (hv | rfl | hv) | hv
    · exact scopes_of_mem_ofExprs hv
    · rfl
    · split at hv
      · rcases List.mem_append.1 hv with hv | hv
        · exact scopes_of_mem_ofExprs hv
        · exact ihBody hv
      · cases hv
    · exact ihRest hv

/-- Definitions are visited, so where nothing is visited there are none. -/
theorem nested_eq_nil {scopes : ScopeStack} {unbound : Nat} {block : List Stmt} (c : Context)
    (h : ofStmts ns reach scopes unbound block = []) : Nested.ofStmts ns c block = [] := by
  induction block using Stmt.block_induction generalizing c with
  | nil => rfl
  | simple exprs rest ih => exact ih c (List.append_eq_nil_iff.1 h).2
  | importModules clauses rest ih | importFrom source rest ih => cases h
  | compound head body rest ihBody ihRest =>
    obtain ⟨hhead, hrest⟩ := List.append_eq_nil_iff.1 h
    rw [Nested.ofStmts, ihRest c hrest, List.append_nil]
    exact ihBody c (List.append_eq_nil_iff.1 hhead).2
  | classDef head body rest ihBody ihRest | funcDef head body rest ihBody ihRest =>
    simp [ofStmts, ofStmt] at h

/-- A body that is visited inside an entity is visited as planned for one that stays only if there
is nothing to visit. -/
theorem ofStmts_push_eq_planned_iff {scopes : ScopeStack} {id : Id} {unbound : Nat}
    {body : List Stmt} :
    ofStmts ns reach (scopes.push id) unbound body =
        plannedList ns reach ⟨.inner, scopes⟩ unbound body ↔
      ofStmts ns reach scopes 0 body = [] := by
  constructor
  · intro h
    rw [ofStmts_eq_nil_iff scopes (scopes.push id) 0 unbound]
    refine List.eq_nil_iff_forall_not_mem.2 fun v hv ↦ ?_
    -- the scopes at a visit are those planned, and they are deeper
    have hplanned : v.scopes = scopes := scopes_of_mem_plannedList (h ▸ hv)
    have hdeeper : scopes.depth < v.scopes.depth := by
      refine scopes_of_mem_ofStmts (scopes.depth < ·.depth) (fun s name hs ↦ ?_)
        (Nat.lt_succ_self _) hv
      unfold enter
      split
      · exact Nat.lt_succ_of_lt hs
      · exact hs
    rw [hplanned] at hdeeper
    exact Nat.lt_irrefl _ hdeeper
  · intro h
    rw [(ofStmts_eq_nil_iff scopes (scopes.push id) 0 unbound body).1 h, eq_comm,
      ← List.length_eq_zero_iff, ← length_ofStmts ns reach scopes 0, h]
    rfl

/-! ### When the visits are the planned ones -/

/-- The body of a definition is visited as planned if the definition stays, where it is nested,
and so do those inside it. -/
theorem body_eq_planned_iff {definition : Stmt} {own : Place} {name : Ident} {body : List Stmt}
    {unbound : Nat}
    (ih : ∀ c : Context, ofStmts ns reach c.scopes unbound body =
        plannedList ns reach c unbound body ↔
      ∀ d ∈ Nested.ofStmts ns c body, d.Stays ns reach) :
    ofStmts ns reach (enter ns c.scopes name) unbound body =
        plannedList ns reach (c.inside ns definition own name) unbound body ↔
      ∀ d ∈ (if c.place.records definition then [] else [⟨c.scopes, name, body⟩]) ++
        Nested.ofStmts ns (c.inside ns definition own name) body, d.Stays ns reach := by
  by_cases hrecords : c.place.records definition
  · -- an entity is entered by both, and only what is inside it matters
    rw [if_pos hrecords, List.nil_append, ← Context.scopes_inside_of_records hrecords]
    exact ih _
  · rw [if_neg hrecords, Context.inside_of_not_records hrecords, List.forall_mem_append,
      List.forall_mem_singleton, Nested.Stays]
    cases hchild : c.scopes.childScope ns name.text with
    | none =>
      have henter : enter ns c.scopes name = c.scopes := by rw [enter, hchild]
      rw [henter]
      refine (ih ⟨.inner, c.scopes⟩).trans ⟨fun h ↦ ⟨.inl rfl, h⟩, fun h ↦ h.2⟩
    | some id =>
      -- the body is visited inside something of the same name, which shows at every visit
      have henter : enter ns c.scopes name = c.scopes.push id := by rw [enter, hchild]
      rw [henter, ofStmts_push_eq_planned_iff]
      refine ⟨fun h ↦ ⟨.inr h, fun d hd ↦ ?_⟩, fun h ↦ h.1.resolve_left (Option.some_ne_none id)⟩
      rw [nested_eq_nil _ h] at hd
      cases hd

/-- A block is visited as planned if its first statement and the rest of it are. -/
theorem cons_eq_planned_iff {scopes : ScopeStack} {unbound : Nat} {s : Stmt} {rest : List Stmt} :
    ofStmts ns reach scopes unbound (s :: rest) = plannedList ns reach c unbound (s :: rest) ↔
      ofStmt ns reach scopes unbound s = planned ns reach c unbound s ∧
        ofStmts ns reach scopes unbound rest = plannedList ns reach c unbound rest := by
  have hlength : (ofStmt ns reach scopes unbound s).length =
      (planned ns reach c unbound s).length := by
    have h := length_ofStmts ns reach scopes unbound unbound c [s]
    simpa only [ofStmts, plannedList, List.append_nil] using h
  exact ⟨fun h ↦ List.append_inj h hlength, fun h ↦ by rw [ofStmts, plannedList, h.1, h.2]⟩

/-- **Visits as planned.** A block is visited as planned exactly if all nested definitions in it
stay. -/
theorem ofStmts_eq_planned_iff (hreach : reach.definitions) {unbound : Nat} {block : List Stmt} :
    ofStmts ns reach c.scopes unbound block = plannedList ns reach c unbound block ↔
      ∀ d ∈ Nested.ofStmts ns c block, d.Stays ns reach := by
  induction block using Stmt.block_induction generalizing c unbound with
  | nil => exact ⟨fun _ d hd ↦ absurd hd List.not_mem_nil, fun _ ↦ rfl⟩
  | simple exprs rest ih | importModules clauses rest ih | importFrom source rest ih =>
    rw [cons_eq_planned_iff, ih]
    exact ⟨fun h ↦ h.2, fun h ↦ ⟨rfl, h⟩⟩
  | compound head body rest ihBody ihRest =>
    rw [cons_eq_planned_iff, ihRest, Nested.ofStmts, List.forall_mem_append, Nested.ofStmt]
    refine and_congr_left fun _ ↦ ?_
    simp only [ofStmt, planned, List.append_cancel_left_eq]
    exact ihBody
  | classDef head body rest ihBody ihRest | funcDef head body rest ihBody ihRest =>
    rw [cons_eq_planned_iff, ihRest, Nested.ofStmts, List.forall_mem_append, Nested.ofStmt]
    refine and_congr_left fun _ ↦ ?_
    simp only [ofStmt, planned, if_pos hreach, List.append_cancel_left_eq, List.cons.injEq,
      true_and]
    exact body_eq_planned_iff fun c ↦ ihBody

/-- A pass that does not enter definitions visits as planned. -/
theorem ofStmts_eq_planned_of_not_definitions (c : Context) (hreach : ¬ reach.definitions)
    (unbound : Nat) (block : List Stmt) :
    ofStmts ns reach c.scopes unbound block = plannedList ns reach c unbound block := by
  induction block using Stmt.block_induction generalizing unbound with
  | nil => rfl
  | simple exprs rest ih | importModules clauses rest ih | importFrom source rest ih =>
    rw [cons_eq_planned_iff]
    exact ⟨rfl, ih unbound⟩
  | compound head body rest ihBody ihRest =>
    rw [cons_eq_planned_iff]
    refine ⟨?_, ihRest unbound⟩
    rw [ofStmt, planned, ihBody]
  | classDef head body rest _ ihRest | funcDef head body rest _ ihRest =>
    rw [cons_eq_planned_iff]
    refine ⟨?_, ihRest unbound⟩
    rw [ofStmt, planned, if_neg hreach, if_neg hreach]

/-- **A file visited as planned.** A pass visits a file as planned exactly if it does not enter
definitions or all nested definitions stay. -/
theorem ofFile_eq_plannedFile_iff {component : Id} {file : List Stmt} :
    ofFile ns reach component file = plannedFile ns reach component file ↔
      (reach.definitions → ∀ d ∈ Nested.ofFile ns component file, d.Stays ns reach) := by
  by_cases hreach : reach.definitions
  · refine Iff.trans ?_ ⟨fun h _ ↦ h, fun h ↦ h hreach⟩
    exact ofStmts_eq_planned_iff (c := ⟨.module, { component }⟩) hreach
  · refine ⟨fun _ h ↦ absurd h hreach, fun _ ↦ ?_⟩
    exact ofStmts_eq_planned_of_not_definitions ⟨.module, { component }⟩ hreach 0 file

/-- The visits to a body among those to its definition and to what follows. -/
theorem infix_definition (decorators parts body rest : List Visit) (definition : Visit) :
    body <:+: decorators ++ definition :: (parts ++ body) ++ rest :=
  ⟨decorators ++ definition :: parts, rest, by simp⟩

/-- The body of a class is visited in one piece. -/
theorem infix_planned_classDef (hreach : reach.definitions) {head : ClassHead}
    {body rest : List Stmt} {unbound : Nat} :
    plannedList ns reach (c.inside ns (.classDef head body) .cls head.name) unbound body <:+:
      plannedList ns reach c unbound (.classDef head body :: rest) := by
  rw [plannedList, planned, if_pos hreach]
  exact infix_definition ..

/-- The body of a function is visited in one piece. -/
theorem infix_planned_funcDef (hreach : reach.definitions) {head : FunctionHead}
    {body rest : List Stmt} {unbound : Nat} :
    plannedList ns reach (c.inside ns (.funcDef head body) .inner head.name)
        (if head.isUnbound then unbound + 1 else unbound) body <:+:
      plannedList ns reach c unbound (.funcDef head body :: rest) := by
  rw [plannedList, planned, if_pos hreach]
  exact infix_definition ..

/-- A nested definition is the one whose body is visited, or one inside that body. -/
theorem planned_infix_of_body {definition : Stmt} {own : Place} {name : Ident} {body : List Stmt}
    {unbound : Nat} {visits : List Visit} {d : Nested}
    (hbody : plannedList ns reach (c.inside ns definition own name) unbound body <:+: visits)
    (ih : d ∈ Nested.ofStmts ns (c.inside ns definition own name) body → ∃ unbound',
      plannedList ns reach ⟨.inner, d.scopes⟩ unbound' d.body <:+:
        plannedList ns reach (c.inside ns definition own name) unbound body)
    (hd : d ∈ (if c.place.records definition then [] else [⟨c.scopes, name, body⟩]) ++
      Nested.ofStmts ns (c.inside ns definition own name) body) :
    ∃ unbound', plannedList ns reach ⟨.inner, d.scopes⟩ unbound' d.body <:+: visits := by
  rcases List.mem_append.1 hd with hd | hd
  · split at hd
    · cases hd
    · next hrecords =>
      cases List.mem_singleton.1 hd
      rw [Context.inside_of_not_records hrecords] at hbody
      exact ⟨unbound, hbody⟩
  · obtain ⟨unbound', h⟩ := ih hd
    exact ⟨unbound', h.trans hbody⟩

/-- The body of a nested definition is visited in one piece, as planned in the scopes around the
definition. -/
theorem planned_infix_of_mem_nested (hreach : reach.definitions) {unbound : Nat}
    {block : List Stmt} {d : Nested} (hd : d ∈ Nested.ofStmts ns c block) :
    ∃ unbound', plannedList ns reach ⟨.inner, d.scopes⟩ unbound' d.body <:+:
      plannedList ns reach c unbound block := by
  -- what is visited in one piece stays so when other visits come before
  have hlater : ∀ {visits : List Visit} (first : List Visit),
      (∃ unbound', plannedList ns reach ⟨.inner, d.scopes⟩ unbound' d.body <:+: visits) →
        ∃ unbound', plannedList ns reach ⟨.inner, d.scopes⟩ unbound' d.body <:+: first ++ visits :=
    fun first ⟨unbound', h⟩ ↦ ⟨unbound', h.trans (List.suffix_append first _).isInfix⟩
  induction block using Stmt.block_induction generalizing c unbound with
  | nil => cases hd
  | simple exprs rest ih | importModules clauses rest ih | importFrom source rest ih =>
    exact hlater _ (ih hd)
  | compound head body rest ihBody ihRest =>
    rcases List.mem_append.1 hd with hd | hd
    · obtain ⟨unbound', h⟩ := ihBody hd
      refine ⟨unbound', h.trans ?_⟩
      rw [plannedList, planned]
      exact ⟨_, _, rfl⟩
    · exact hlater _ (ihRest hd)
  | classDef head body rest ihBody ihRest =>
    rcases List.mem_append.1 hd with hd | hd
    · exact planned_infix_of_body (infix_planned_classDef hreach) ihBody hd
    · exact hlater _ (ihRest hd)
  | funcDef head body rest ihBody ihRest =>
    rcases List.mem_append.1 hd with hd | hd
    · exact planned_infix_of_body (infix_planned_funcDef hreach) ihBody hd
    · exact hlater _ (ihRest hd)

end Visit

/-! ### Where planned visits stand -/

/-- A statement stands in a block directly, or only inside compound statements. -/
inductive Stmt.Direct : Stmt → List Stmt → Prop
  | mem {s : Stmt} {block : List Stmt} (h : s ∈ block) : Direct s block
  | compound {s : Stmt} {head : List Expr} {body block : List Stmt}
      (hcompound : .compound head body ∈ block) (h : Direct s body) : Direct s block

theorem Stmt.Direct.cons {s first : Stmt} {rest : List Stmt} (h : s.Direct rest) :
    s.Direct (first :: rest) := by
  cases h with
  | mem h => exact .mem (List.mem_cons_of_mem _ h)
  | compound hcompound h => exact .compound (List.mem_cons_of_mem _ hcompound) h

/-- A definition is not entered, or it is recorded and its entity is entered. -/
theorem Context.inside_cases (c : Context) (definition : Stmt) (own : Place) (name : Ident) :
    c.inside ns definition own name = ⟨.inner, c.scopes⟩ ∨
      c.place.records definition ∧ ∃ id, c.scopes.childScope ns name.text = some id ∧
        c.inside ns definition own name = ⟨own, c.scopes.push id⟩ := by
  by_cases hrecords : c.place.records definition
  · cases hchild : c.scopes.childScope ns name.text with
    | none =>
      refine .inl ?_
      rw [inside, if_pos hrecords, hchild]
    | some id =>
      refine .inr ⟨hrecords, id, rfl, ?_⟩
      rw [inside, if_pos hrecords, hchild]
  · exact .inl (inside_of_not_records hrecords)

namespace Visit

/-- Where a planned visit in a block stands: in the scopes around the block, or in the body of a
definition that stands directly in the block. -/
inductive Within (ns : Namespace) (reach : Reach) (c : Context) (block : List Stmt) (v : Visit) :
    Prop
  | around (h : v.scopes = c.scopes)
  | cls {head : ClassHead} {body : List Stmt} {unbound : Nat}
      (hdirect : (Stmt.classDef head body).Direct block)
      (hv : v ∈ plannedList ns reach (c.inside ns (.classDef head body) .cls head.name) unbound
        body)
  | function {head : FunctionHead} {body : List Stmt} {unbound : Nat}
      (hdirect : (Stmt.funcDef head body).Direct block)
      (hv : v ∈ plannedList ns reach (c.inside ns (.funcDef head body) .inner head.name) unbound
        body)

theorem Within.mono {block block' : List Stmt} {v : Visit} (h : Within ns reach c block v)
    (hdirect : ∀ s : Stmt, s.Direct block → s.Direct block') : Within ns reach c block' v := by
  cases h with
  | around h => exact .around h
  | cls h hv => exact .cls (hdirect _ h) hv
  | function h hv => exact .function (hdirect _ h) hv

/-- Each planned visit in a block stands around, or in the body of a definition directly in the
block. -/
theorem within_of_mem_plannedList {unbound : Nat} {block : List Stmt} {v : Visit}
    (hv : v ∈ plannedList ns reach c unbound block) : Within ns reach c block v := by
  induction block using Stmt.block_induction generalizing unbound with
  | nil => cases hv
  | simple exprs rest ih =>
    rcases List.mem_append.1 hv with hv | hv
    · exact .around (scopes_of_mem_ofExprs hv)
    · exact (ih hv).mono fun _ ↦ .cons
  | importModules clauses rest ih | importFrom source rest ih =>
    rcases List.mem_cons.1 hv with rfl | hv
    · exact .around rfl
    · exact (ih hv).mono fun _ ↦ .cons
  | compound head body rest ihBody ihRest =>
    simp only [plannedList, planned, List.mem_append] at hv
    rcases hv with (hv | hv) | hv
    · exact .around (scopes_of_mem_ofExprs hv)
    · exact (ihBody hv).mono fun _ ↦ .compound List.mem_cons_self
    · exact (ihRest hv).mono fun _ ↦ .cons
  | classDef head body rest ihBody ihRest =>
    simp only [plannedList, planned, List.mem_append, List.mem_cons] at hv
    rcases hv with (hv | rfl | hv) | hv
    · exact .around (scopes_of_mem_ofExprs hv)
    · exact .around rfl
    · split at hv
      · rcases List.mem_append.1 hv with hv | hv
        · exact .around (scopes_of_mem_ofExprs hv)
        · exact .cls (.mem List.mem_cons_self) hv
      · cases hv
    · exact (ihRest hv).mono fun _ ↦ .cons
  | funcDef head body rest ihBody ihRest =>
    simp only [plannedList, planned, List.mem_append, List.mem_cons] at hv
    rcases hv with (hv | rfl | hv) | hv
    · exact .around (scopes_of_mem_ofExprs hv)
    · exact .around rfl
    · split at hv
      · rcases List.mem_append.1 hv with hv | hv
        · exact .around (scopes_of_mem_ofExprs hv)
        · exact .function (.mem List.mem_cons_self) hv
      · cases hv
    · exact (ihRest hv).mono fun _ ↦ .cons

/-- A planned visit in a method: the body of a function that stands directly in a class that stands
directly in the file, where both are entities. -/
def InMethod (ns : Namespace) (reach : Reach) (component : Id) (file : List Stmt)
    (owner method : Id) (v : Visit) : Prop :=
  ∃ classHead classBody functionHead functionBody unbound,
    (Stmt.classDef classHead classBody).Direct file ∧
    (Stmt.funcDef functionHead functionBody).Direct classBody ∧
    ScopeStack.childScope { component } ns classHead.name.text = some owner ∧
    ScopeStack.childScope { component, inner := [owner] } ns functionHead.name.text = some method ∧
    v ∈ plannedList ns reach ⟨.inner, { component, inner := [method, owner] }⟩ unbound functionBody

/-- A planned visit stands in the module, or in something that the module declares, or in a
method. -/
theorem inMethod_of_mem_plannedFile {component : Id} {file : List Stmt} {v : Visit}
    (hv : v ∈ plannedFile ns reach component file) :
    (v.scopes = { component } ∨ ∃ id, v.scopes = { component, inner := [id] }) ∨
      ∃ owner method, InMethod ns reach component file owner method v := by
  cases within_of_mem_plannedList hv with
  | around h => exact .inl (.inl h)
  | function _ hv =>
    rcases Context.inside_cases _ _ _ _ with h | ⟨-, id, -, h⟩
    · rw [h] at hv
      exact .inl (.inl (scopes_of_mem_plannedList hv))
    · rw [h] at hv
      exact .inl (.inr ⟨id, scopes_of_mem_plannedList hv⟩)
  | cls hclass hv =>
    rcases Context.inside_cases _ _ _ _ with h | ⟨-, owner, howner, h⟩
    · rw [h] at hv
      exact .inl (.inl (scopes_of_mem_plannedList hv))
    · rw [h] at hv
      cases within_of_mem_plannedList hv with
      | around h => exact .inl (.inr ⟨owner, h⟩)
      | cls _ hv =>
        -- the scan does not record a class in a class
        rcases Context.inside_cases _ _ _ _ with h | ⟨hrecords, -⟩
        · rw [h] at hv
          exact .inl (.inr ⟨owner, scopes_of_mem_plannedList hv⟩)
        · cases hrecords
      | function hfunction hv =>
        rcases Context.inside_cases _ _ _ _ with h | ⟨-, method, hmethod, h⟩
        · rw [h] at hv
          exact .inl (.inr ⟨owner, scopes_of_mem_plannedList hv⟩)
        · rw [h] at hv
          exact .inr ⟨owner, method, _, _, _, _, _, hclass, hfunction, howner, hmethod, hv⟩

end Visit

end CodeAtlas
