import CodeAtlas.Proofs.Exports.Evaluation

/-!
# Export lists, statement by statement

What the statements of a file make of its export list is said here in terms of the statements alone.
Those outside of classes and functions that can matter are listed in order (`moduleSites`), and each
changes what is known so far by a rule of its own (`interpret`).

## Rules

* An assignment of a literal replaces the list. An assignment of a sum does too, if the lists of all
  names in it are known; otherwise it counts the names whose lists are not (`Reading.assign`).
* An extension with a literal adds to the list, or starts one, which counts (`Reading.extend`).
* An import of a list makes it known under the names that it is imported as (`Reading.take`).

## Sums

The rule for sums does not look at how a sum is put together: without parentheses, there are the
operands from left to right (`Expr.leaves`) and the operators between them (`Expr.operators`). So
sums that differ in how they are associated or parenthesized mean the same (`operands_eq`). What is
in a parenthesis is its first part. Where a comment stands there, this is the comment, and the sum
has an operand that is none.

## The pass

The pass over a file is the fold of the rules over the statements (`exports_evaluated_in_order`). It
visits more places than the rules look at, and those that they do look at are the ones outside of
classes and functions (`filter_sites_ofStmts`).
-/

namespace CodeAtlas

/-! ### Sums -/

namespace Expr

/-- The operands of an expression from left to right. What is in a parenthesis is its first part, as
everywhere. -/
def leaves : Expr → List Expr
  | parens _ (inner :: _) => leaves inner
  | binary _ left _ right => leaves left ++ leaves right
  | e => [e]

/-- The operators between the operands. -/
def operators : Expr → List String
  | parens _ (inner :: _) => operators inner
  | binary _ left operator right => operators left ++ operator :: operators right
  | _ => []

end Expr

namespace Exports

/-- The strings of a list or tuple that is written out. -/
def literal? : Expr → Option (List String)
  | .display _ .list items | .display _ .tuple items => some (items.filterMap Expr.stringValue)
  | _ => none

/-- A literal or a plain name as an operand of a sum. -/
def operand? : Expr → Option Operand
  | .name id => some (.imported id.text)
  | e => (literal? e).map .literal

/-- The strings of a literal that may stand in parentheses. -/
def written? (e : Expr) : Option (List String) :=
  match e.operators, e.leaves with
  | [], [leaf] => literal? leaf
  | _, _ => none

/-- The operands of a sum: all operators are `+`, and there is one. -/
def sum? (e : Expr) : Option (List Operand) :=
  if e.operators ≠ [] ∧ ∀ o ∈ e.operators, o = "+" then e.leaves.mapM operand? else none

/-- A sum has operands if all operators are `+` and each leaf is one. -/
theorem operands_eq (e : Expr) :
    operands e = if ∀ o ∈ e.operators, o = "+" then e.leaves.mapM operand? else none := by
  fun_induction operands e with
  | case1 _ inner rest ih => exact ih
  | case2 _ left operator right hplus ihLeft ihRight =>
    rw [ihLeft, ihRight, Expr.operators, Expr.leaves, List.mapM_append]
    simp only [List.forall_mem_append, List.forall_mem_cons, eq_of_beq hplus, true_and]
    by_cases hleft : ∀ o ∈ left.operators, o = "+"
    · by_cases hright : ∀ o ∈ right.operators, o = "+"
      · rw [if_pos hleft, if_pos hright, if_pos ⟨hleft, hright⟩]
      · rw [if_neg hright, if_neg (not_and_of_not_right _ hright)]
        exact Option.bind_fun_none _
    · rw [if_neg hleft, if_neg (not_and_of_not_left _ hleft)]
      rfl
  | case3 text left operator right hplus =>
    refine (if_neg fun h ↦ hplus ?_).symm
    rw [h operator (List.mem_append_right _ List.mem_cons_self)]
    rfl
  | case4 | case5 | case6 => rfl
  | case7 e hparens hbinary hname hlist htuple =>
    have hleaves : e.leaves = [e] := by
      unfold Expr.leaves
      split
      · exact absurd rfl (hparens _ _ _)
      · exact absurd rfl (hbinary _ _ _ _)
      · rfl
    have hnone : operand? e = none := by
      unfold operand? literal?
      split
      · exact absurd rfl (hname _)
      · split
        · exact absurd rfl (hlist _ _)
        · exact absurd rfl (htuple _ _)
        · rfl
    rw [hleaves, List.mapM_cons, hnone]
    split <;> rfl

/-- Parentheses around an expression change neither its operands nor its operators. -/
theorem leaves_bare (e : Expr) : e.leaves = e.bare.leaves ∧ e.operators = e.bare.operators := by
  fun_induction Expr.bare e with
  | case1 _ inner rest ih => exact ih
  | case2 => exact ⟨rfl, rfl⟩

/-- Without its parentheses an expression is not in parentheses. -/
theorem bare_ne_parens (e : Expr) (text : String) (inner : Expr) (rest : List Expr) :
    e.bare ≠ .parens text (inner :: rest) := by
  fun_induction Expr.bare e with
  | case1 _ inner rest ih => exact ih
  | case2 e hparens => exact hparens text inner rest

/-- Without its parentheses, an expression is an operation or has no operator. -/
theorem bare_cases (e : Expr) :
    (∃ text left operator right, e.bare = .binary text left operator right ∧ e.operators ≠ []) ∨
      (∀ text left operator right, e.bare ≠ .binary text left operator right) ∧
        e.operators = [] ∧ e.leaves = [e.bare] := by
  obtain ⟨hleaves, hoperators⟩ := leaves_bare e
  have hparens := bare_ne_parens e
  rw [hleaves, hoperators]
  generalize e.bare = bare at hparens
  unfold Expr.leaves Expr.operators
  split
  · exact absurd rfl (hparens _ _ _)
  · exact .inl ⟨_, _, _, _, rfl, by simp⟩
  · next hbinary => exact .inr ⟨hbinary, rfl, rfl⟩

/-- The strings of a literal, with and without parentheses. -/
theorem written?_eq (e : Expr) : written? e = e.strings := by
  unfold written? Expr.strings
  rcases bare_cases e with ⟨text, left, operator, right, hbare, hne⟩ | ⟨-, hnil, hleaves⟩
  · rw [hbare]
    split
    · next hnil _ => exact absurd hnil hne
    · rfl
  · rw [hnil, hleaves]
    rfl

/-! ### Rules -/

/-- An assignment to the export variable: a literal replaces the list. A sum of literals and names
does too, if the lists of all names are known, and otherwise it counts the names whose lists are
not. -/
def Reading.assign (r : Reading) (right : Expr) : Reading :=
  match written? right, sum? right with
  | some names, _ => { r with pending := some names }
  | none, some sum =>
    if missing r.aliases sum = 0 then { r with pending := some (total r.aliases sum) }
    else { r with count := r.count + missing r.aliases sum }
  | none, none => r

/-- `+=` with a literal: the list is extended, or started, which counts. -/
def Reading.extend (r : Reading) (right : Expr) : Reading :=
  match written? right, r.pending with
  | some names, some list => { r with pending := some (list ++ names) }
  | some names, none => { r with pending := some names, count := r.count + 1 }
  | none, _ => r

/-- An import of the list of a module: as it is known, it is from now on the list of the names that
it is imported as. -/
def Reading.take (r : Reading) (list : Option (List String)) (clauses : List ImportClause) :
    Reading :=
  { r with aliases := fun name ↦
      if ∃ clause ∈ clauses, clause.name = exportVariable ∧ clause.binding = name then list
      else r.aliases name }

/-- The export list of the module that names are imported from, if it is a component. -/
def sourceList? (ns : Namespace) (component : Id) (source : FromImport) :
    Option (Option (List String)) :=
  ((ns.importSource component source.path source.level).bind ns.find?).bind fun e ↦
    e.body.component?.map Component.exports

/-- The rule for a place in the file of a component. -/
def interpret (ns : Namespace) (component : Id) (r : Reading) : Site → Reading
  | .expr (.assign _ left _ (some right)) =>
    if left.text = exportVariable then r.assign right else r
  | .expr (.augment _ left operator right) =>
    if left.text = exportVariable ∧ operator = "+=" then r.extend right else r
  | .importFrom source =>
    (sourceList? ns component source).elim r fun list ↦ r.take list source.clauses
  | _ => r

/-! ### Places -/

/-- Whether an expression is an assignment, augmented or not. -/
def isAssignment : Expr → Bool
  | .assign .. | .augment .. => true
  | _ => false

/-- The assignments in expressions that do not stand inside another. -/
def assignments (exprs : List Expr) : List Site :=
  ((Expr.nodesOfList (fun e ↦ !isAssignment e) exprs).filter isAssignment).map .expr

mutual

/-- The assignments and imports from modules in a statement, in order. The bodies and heads of
classes and functions are left out; their decorators stand outside of them. -/
def sitesOf : Stmt → List Site
  | .simple exprs => assignments exprs
  | .importModules _ => []
  | .importFrom source => [.importFrom source]
  | .compound head body => assignments head ++ moduleSites body
  | .classDef head _ => assignments head.decorators
  | .funcDef head _ => assignments head.decorators

/-- The assignments and imports from modules in a file outside of classes and functions. -/
def moduleSites : List Stmt → List Site
  | [] => []
  | s :: rest => sitesOf s ++ moduleSites rest

end

/-- Whether the rules look at a place. -/
def isConcerned : Site → Bool
  | .expr e => isAssignment e
  | .importFrom _ => true
  | _ => false

/-- The places in expressions that the rules look at are the assignments in them. -/
theorem filter_sites_ofExprs (scopes : ScopeStack) (unbound : Nat) (exprs : List Expr) :
    ((Visit.ofExprs reach scopes unbound exprs).map Visit.site).filter isConcerned =
      assignments exprs := by
  have henters : reach.enters = fun e ↦ !isAssignment e := by
    funext e
    cases e <;> rfl
  rw [Visit.ofExprs, List.map_map, List.filter_map, henters]
  rfl

/-- The places that the pass visits are those outside of classes and functions. -/
theorem filter_sites_ofStmts (ns : Namespace) (scopes : ScopeStack) (unbound : Nat)
    (block : List Stmt) :
    ((Visit.ofStmts ns reach scopes unbound block).map Visit.site).filter isConcerned =
      moduleSites block := by
  induction block using Stmt.block_induction with
  | nil => rfl
  | simple exprs rest ih =>
    rw [Visit.ofStmts, Visit.ofStmt, List.map_append, List.filter_append, filter_sites_ofExprs, ih]
    rfl
  | importModules clauses rest ih => exact ih
  | importFrom source rest ih => exact congrArg (Site.importFrom source :: ·) ih
  | compound head body rest ihBody ihRest =>
    rw [Visit.ofStmts, Visit.ofStmt, List.map_append, List.filter_append, List.map_append,
      List.filter_append, filter_sites_ofExprs, ihBody, ihRest]
    rfl
  | classDef head body rest ihBody ihRest | funcDef head body rest ihBody ihRest =>
    rw [Visit.ofStmts, Visit.ofStmt, List.map_append, List.filter_append, List.map_append,
      List.filter_append, filter_sites_ofExprs, ihRest]
    exact congrArg (· ++ moduleSites rest) (List.append_nil (assignments head.decorators))

/-! ### The pass over a file -/

variable {ns : Namespace} {component : Id}

/-- What an assignment does is read off a literal, or else off a sum. -/
theorem assignment?_eq (right : Expr) :
    assignment? right = ((written? right).map .set).or ((sum? right).map .sum) := by
  unfold assignment?
  rw [written?_eq]
  rcases right.strings with _ | names
  · rcases bare_cases right with ⟨text, left, operator, e, hbare, hne⟩ | ⟨hbinary, hnil, -⟩
    · have hsum : sum? right = operands right := by
        rw [sum?, operands_eq]
        exact if_congr (and_iff_right hne) rfl rfl
      rw [hbare, hsum]
      rfl
    · rw [sum?, if_neg (not_and_of_not_left _ (not_not_intro hnil))]
      split
      · contradiction
      · split
        · exact absurd ‹_› (hbinary _ _ _ _)
        · rfl
  · rfl

/-- The rule for assignments does what the action of the assignment does. -/
theorem assign_eq (lists : Lists) (r : Reading) (right : Expr) :
    r.assign right = (assignment? right).elim r (Action.eval lists r) := by
  rw [assignment?_eq, Reading.assign]
  rcases written? right with _ | names
  · rcases sum? right with _ | sum <;> rfl
  · rfl

/-- The rule for extensions does what the action of the extension does. -/
theorem extend_eq (lists : Lists) (r : Reading) (right : Expr) :
    r.extend right = (right.strings.map Action.extend).elim r (Action.eval lists r) := by
  unfold Reading.extend
  rw [written?_eq]
  cases right.strings with
  | none => rfl
  | some names => cases hpending : r.pending <;> simp [Action.eval, hpending]

/-- The rule for imports does what the action of the import does. -/
theorem importing_eq (r : Reading) (source : FromImport) :
    (sourceList? ns component source).elim r (r.take · source.clauses) =
      (importing? ns component source).elim r (Action.eval ns.exports? r) := by
  have hnames : ∀ name,
      name ∈ (source.clauses.filter (·.name == exportVariable)).map (·.binding) ↔
        ∃ clause ∈ source.clauses, clause.name = exportVariable ∧ clause.binding = name := by
    simp [and_assoc]
  unfold importing? sourceList?
  dsimp only
  by_cases hempty : (source.clauses.filter (·.name == exportVariable)).isEmpty
  · -- nothing becomes known if the list is not among the names imported
    have htake : ∀ list, r.take list source.clauses = r := by
      intro list
      have hsame : (r.take list source.clauses).aliases = r.aliases := by
        funext name
        refine if_neg fun h ↦ ?_
        rw [← hnames, List.isEmpty_iff.1 hempty] at h
        cases h
      exact congrArg (Reading.mk · r.pending r.count) hsame
    rw [if_pos hempty, funext htake]
    rcases Option.bind _ _ with _ | list <;> rfl
  · rw [if_neg hempty]
    rcases ns.importSource component source.path source.level with _ | name
    · rfl
    rw [Option.bind_some, Option.bind_some, Namespace.find?]
    rcases ns.lookup name with _ | id
    · rfl
    rw [Option.bind_some, Option.bind_some, Namespace.kind?]
    cases he : ns.get? id with
    | none => rfl
    | some e =>
      obtain ⟨_, _, body⟩ := e
      cases body with
      | component c =>
        have hlist : ns.exports? id = c.exports := by
          rw [Namespace.exports?, Namespace.component?, he]
          rfl
        show r.take c.exports source.clauses = Action.eval ns.exports? r (.take id _)
        simp only [Action.eval, Reading.take, hnames, hlist]
      | package | cls | function => rfl

theorem action?_eq_none {visit : Visit}
    (hassign : ∀ text left hint right, visit.site ≠ .expr (.assign text left hint (some right)))
    (haugment : ∀ text left operator right, visit.site ≠ .expr (.augment text left operator right))
    (himport : ∀ source, visit.site ≠ .importFrom source) :
    action? ns component visit = none := by
  unfold action?
  split
  · exact absurd ‹_› (hassign _ _ _ _)
  · exact absurd ‹_› (haugment _ _ _ _)
  · exact absurd ‹_› (himport _)
  · rfl

/-- At each visit, the rule for the place does what the action there does. -/
theorem interpret_site (r : Reading) (visit : Visit) :
    interpret ns component r visit.site =
      (action? ns component visit).elim r (Action.eval ns.exports? r) := by
  obtain ⟨scopes, unbound, site⟩ := visit
  unfold interpret
  dsimp only
  split
  · next left hint right =>
    show _ = Option.elim (if left.text == exportVariable then assignment? right else none) r _
    rw [assign_eq ns.exports?]
    simp only [beq_iff_eq]
    split <;> rfl
  · next left operator right =>
    show _ = Option.elim (if left.text == exportVariable && operator == "+=" then
      right.strings.map Action.extend else none) r _
    rw [extend_eq ns.exports?]
    simp only [Bool.and_eq_true, beq_iff_eq]
    split <;> rfl
  · exact importing_eq r _
  · next hassign haugment himport =>
    rw [action?_eq_none hassign haugment himport]
    rfl

/-- At places that the rules do not look at, nothing changes. -/
theorem interpret_of_not_isConcerned (r : Reading) {site : Site} (h : ¬isConcerned site) :
    interpret ns component r site = r := by
  unfold interpret
  split
  · exact absurd rfl h
  · exact absurd rfl h
  · exact absurd rfl h
  · rfl

/-- Reading a file is applying the rules to its statements in order. -/
theorem evaluate_actions (aliases : Aliases) (file : List Stmt) :
    evaluate ns.exports? (actions ns component file) aliases =
      (moduleSites file).foldl (interpret ns component) { aliases } := by
  rw [evaluate, actions, List.foldl_filterMap, ← filter_sites_ofStmts ns { component } 0 file,
    List.foldl_filter, List.foldl_map]
  congr 1
  funext r visit
  have hsite : (if isConcerned visit.site then interpret ns component r visit.site else r) =
      interpret ns component r visit.site :=
    ite_eq_left_iff.2 fun h ↦ (interpret_of_not_isConcerned r h).symm
  rw [hsite, interpret_site]
  rcases action? ns component visit with _ | action <;> rfl

/-- **Statements in order.** The pass over the file of a component applies the rules to the places
of the file one after the other. The list that results is that of the component, which keeps its old
one if there is none. -/
theorem exports_evaluated_in_order {p : Progress} (hkind : p.ns.kind? component = some .component)
    (file : List Stmt) :
    let r := (moduleSites file).foldl (interpret p.ns component)
      { aliases := p.ns.exportAlias? component }
    let after := pass component file p
    after.ns.exports? component = r.pending.or (p.ns.exports? component) ∧
      after.count = p.count + r.count ∧
      after.ns.exportAlias? component = r.aliases ∧
      ∀ id ≠ component, after.ns.exports? id = p.ns.exports? id ∧
        after.ns.exportAlias? id = p.ns.exportAlias? id := by
  intro r after
  have hpass : knowledge after = (knowledge p).pass component (actions p.ns component file) :=
    knowledge_pass hkind file
  have hread : evaluate p.ns.exports? (actions p.ns component file)
      (p.ns.exportAlias? component) = r := evaluate_actions _ file
  have hlists : after.ns.exports? =
      Function.update p.ns.exports? component (r.pending.or (p.ns.exports? component)) := by
    rw [← hread]
    exact congrArg Knowledge.lists hpass
  have haliases : after.ns.exportAlias? =
      Function.update p.ns.exportAlias? component r.aliases := by
    rw [← hread]
    exact congrArg Knowledge.aliases hpass
  have hcount : after.count = p.count + r.count := by
    rw [← hread]
    exact congrArg Knowledge.count hpass
  rw [hlists, haliases]
  refine ⟨Function.update_self .., hcount, Function.update_self .., fun id hid ↦ ?_⟩
  exact ⟨Function.update_of_ne hid .., Function.update_of_ne hid ..⟩

/-- Two modules, the first with a list of exports. -/
def listingNamespace : Namespace where
  project := "p"
  nextId := 2
  entities := ((∅ : Std.ExtTreeMap Id Entity).insert 0
    ⟨0, ⟨"p.a"⟩, .component { exports := some ["u", "v"] }⟩).insert 1 ⟨1, ⟨"p.b"⟩, .component {}⟩
  ids := ((∅ : Std.ExtTreeMap QualName Id).insert ⟨"p.a"⟩ 0).insert ⟨"p.b"⟩ 1

theorem dotFree_exportVariable : '.' ∉ exportVariable.toList := by
  decide

/-- A file for the second module: a sum with the list of the first, an extension, a list in a class
and a sum with a name that is not known. -/
def listingFile : List Stmt :=
  let all : Expr := .name ⟨exportVariable, dotFree_exportVariable⟩
  let theirs : Expr := .name ⟨"theirs", by decide⟩
  let lost : Expr := .name ⟨"lost", by decide⟩
  let list (name : String) : Expr :=
    .display ("['" ++ name ++ "']") .list [.string ("'" ++ name ++ "'") [.literal name]]
  let inner : Expr := .binary "theirs + ['n']" theirs "+" (list "n")
  [.importFrom ⟨some "p.a", 0, false, [⟨exportVariable, some "theirs"⟩]⟩,
    .simple [.assign "__all__ = ['m'] + (theirs + ['n'])" all none (some
      (.binary "['m'] + (theirs + ['n'])" (list "m") "+" (.parens "(theirs + ['n'])" [inner])))],
    .simple [.augment "__all__ += ['o']" all "+=" (list "o")],
    .classDef ⟨⟨"Local", by decide⟩, [], [], []⟩
      [.simple [.assign "__all__ = ['x']" all none (some (list "x"))]],
    .simple [.assign "__all__ = lost + ['x'] + lost" all none (some
      (.binary "lost + ['x'] + lost" (.binary "lost + ['x']" lost "+" (list "x")) "+" lost))]]

/-- The list has the names of both lists of the sum and of the extension, and two references count.
-/
theorem exports_of_listingFile :
    listingNamespace.kind? 1 = some .component ∧
      (pass 1 listingFile ⟨listingNamespace, 0⟩).ns.exports? 1 =
        some ["m", "u", "v", "n", "o"] ∧
      (pass 1 listingFile ⟨listingNamespace, 0⟩).count = 2 ∧
      (pass 1 listingFile ⟨listingNamespace, 0⟩).ns.exports? 0 = some ["u", "v"] := by
  have hkind : listingNamespace.kind? 1 = some .component := rfl
  obtain ⟨hlist, hcount, -, hframe⟩ :=
    @exports_evaluated_in_order 1 ⟨listingNamespace, 0⟩ hkind listingFile
  refine ⟨hkind, hlist.trans ?_, hcount.trans ?_, (hframe 0 (by decide)).1.trans rfl⟩
  · decide +kernel
  · decide +kernel

end Exports

end CodeAtlas
