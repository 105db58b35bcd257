import Mathlib.Data.List.Nodup
import CodeAtlas.Proofs.Visits

/-!
# Places in a syntax tree

The syntax tree of a file has the file itself, its statements and its expressions as nodes, and
`SourceNode.parts` gives the nodes directly below a node. A part stands in the body of a definition
only if it is a statement of that body; decorators, bases, parameters, defaults and annotations do
not. A place in the tree is reached by a path of part numbers (`SourceNode.at?`), which also tells
the definitions whose bodies enclose it.

## Every expression once

Visits know nothing of paths. That they reach every expression exactly once is said by a list of
paths without repetition that are exactly those of expressions, and that match the visits one by one
(`Visit.exists_lists_ofFile`). `SourceNode.Lists` is such a list, for nodes of any kind, and
`Reached` is the list of the places alone, for expressions among the parts of a node. It is put
together from the parts one after another (`Reached.append`) and from what is below a part
(`Reached.single`).

## The induction

The two recursions follow the tree and not the cases of the syntax. An expression is looked at
through its parts, which are smaller (`Expr.parts_induction`), and a block of statements through the
statements that its first statement governs and the statements after it (`Stmt.cons_induction`). The
cases of the syntax are gone through once for each, to see that the nodes of an expression are
itself and those of its parts (`Expr.nodes_eq`), and that the visits to a statement are those to its
own expressions and then those to the block inside it (`Visit.filterMap_expr?_ofStmt`).
-/

namespace CodeAtlas

/-! ### The tree -/

/-- The expressions directly in an expression, in source order. -/
def Expr.parts : Expr → List Expr
  | name _ | literal _ | number .. | truth _ | null | comment _ => []
  | member _ object _ => [object]
  | call _ first rest | subscript _ first rest => first :: rest
  | string _ parts | concat _ parts | display _ _ parts | comprehension _ _ parts
  | parens _ parts | sequence _ parts | other _ parts => parts
  | binary _ left _ right | augment _ left _ right => [left, right]
  | keyword _ _ value | starred _ value => [value]
  | assign _ left hint right => left :: (hint.toList ++ right.toList)

namespace Stmt

/-- The expressions directly in a statement, outside the statements that it governs. -/
def heads : Stmt → List Expr
  | simple exprs => exprs
  | importModules _ | importFrom _ => []
  | compound head _ => head
  | classDef head _ => head.decorators ++ head.parts
  | funcDef head _ => head.decorators ++ head.parts

/-- The statements that a statement governs. -/
def block : Stmt → List Stmt
  | simple _ | importModules _ | importFrom _ => []
  | compound _ body | classDef _ body | funcDef _ body => body

/-- The name that a statement defines, whose body are the statements that it governs. -/
def definition? : Stmt → Option Ident
  | classDef head _ => some head.name
  | funcDef head _ => some head.name
  | simple _ | importModules _ | importFrom _ | compound .. => none

end Stmt

/-- A node of a syntax tree. -/
inductive SourceNode where
  | file (block : List Stmt)
  | stmt (s : Stmt)
  | expr (e : Expr)

/-- A part of a node, and the definition whose body it belongs to, if the node is one. -/
structure SourceNode.Part where
  definition : Option Ident
  node : SourceNode

/-- A place in a syntax tree: a node, and the definitions whose bodies enclose it, outermost
first. -/
structure SourcePlace where
  definitions : List Ident
  node : SourceNode

/-- A place seen from outside a definition. -/
def SourcePlace.within (definition : Option Ident) (place : SourcePlace) : SourcePlace :=
  { place with definitions := definition.toList ++ place.definitions }

namespace SourceNode

/-- The parts of a node, in source order. -/
def parts : SourceNode → List Part
  | file block => block.map fun s ↦ ⟨none, stmt s⟩
  | stmt s =>
    (s.heads.map fun e ↦ ⟨none, expr e⟩) ++ s.block.map fun t ↦ ⟨s.definition?, stmt t⟩
  | expr e => e.parts.map fun e ↦ ⟨none, expr e⟩

/-- The place that a path leads to: each of its numbers chooses a part. -/
def at? (n : SourceNode) : (path : List Nat) → Option SourcePlace
  | [] => some ⟨[], n⟩
  | i :: path =>
    n.parts[i]?.bind fun part ↦ (part.node.at? path).map (SourcePlace.within part.definition)

/-- Whether a node is an expression. -/
def isExpr : SourceNode → Bool
  | expr _ => true
  | _ => false

/-- Whether a node is a call. -/
def isCall : SourceNode → Bool
  | expr (.call ..) => true
  | _ => false

/-! ### Paths into a list of parts -/

/-- The place that a path leads to in one of a list of parts. -/
def partAt? (parts : List Part) : (path : List Nat) → Option SourcePlace
  | [] => none
  | i :: path =>
    parts[i]?.bind fun part ↦ (part.node.at? path).map (SourcePlace.within part.definition)

variable {parts parts' : List Part} {path : List Nat} {place : SourcePlace} {i : Nat}

theorem at?_cons (n : SourceNode) : n.at? (i :: path) = partAt? n.parts (i :: path) := rfl

/-- A path into the first of two lists of parts. -/
theorem partAt?_append_of_lt (h : i < parts.length) :
    partAt? (parts ++ parts') (i :: path) = partAt? parts (i :: path) := by
  rw [partAt?, List.getElem?_append_left h, partAt?]

/-- A path into the second of two lists of parts. -/
theorem partAt?_append_add :
    partAt? (parts ++ parts') ((i + parts.length) :: path) = partAt? parts' (i :: path) := by
  rw [partAt?, List.getElem?_append_right (Nat.le_add_left ..), Nat.add_sub_cancel, partAt?]

/-- A path into parts starts with the number of one of them. -/
theorem exists_cons_of_partAt? (h : partAt? parts path = some place) :
    ∃ i rest, path = i :: rest ∧ i < parts.length := by
  cases path with
  | nil => cases h
  | cons i rest =>
    obtain ⟨part, hpart, -⟩ := Option.bind_eq_some_iff.1 h
    exact ⟨i, rest, rfl, (List.getElem?_eq_some_iff.1 hpart).1⟩

/-! ### Every expression once -/

/-- A list has the paths to the nodes of some kind, each once, and the places they lead to. -/
structure Lists (which : SourceNode → Bool) (find : List Nat → Option SourcePlace)
    (found : List (List Nat × SourcePlace)) : Prop where
  nodup : (found.map Prod.fst).Nodup
  mem_iff : ∀ path place, (path, place) ∈ found ↔ find path = some place ∧ which place.node

variable {which : SourceNode → Bool} {find : List Nat → Option SourcePlace}
  {found found' : List (List Nat × SourcePlace)} {places places' : List SourcePlace}
  {n : SourceNode}

/-- Of a list of nodes of some kind, those of a narrower kind. -/
theorem Lists.filter (h : Lists which find found) (narrow : SourceNode → Bool)
    (hnarrow : ∀ n, narrow n → which n) :
    Lists narrow find (found.filter fun x ↦ narrow x.2.node) := by
  refine ⟨h.nodup.sublist (List.filter_sublist.map _), fun path place ↦ ?_⟩
  rw [List.mem_filter, h.mem_iff, and_assoc]
  exact and_congr_right fun _ ↦ ⟨And.right, fun hplace ↦ ⟨hnarrow _ hplace, hplace⟩⟩

/-- A path whose first number counts from further left. -/
def shift (k : Nat) : List Nat → List Nat
  | [] => []
  | i :: path => (i + k) :: path

theorem shift_injective (k : Nat) : Function.Injective (shift k) := by
  intro path path' h
  cases path with
  | nil =>
    cases path' with
    | nil => rfl
    | cons => cases h
  | cons i rest =>
    cases path' with
    | nil => cases h
    | cons j rest' =>
      obtain ⟨hhead, rfl⟩ := List.cons.inj h
      rw [Nat.add_right_cancel hhead]

theorem lists_nil (which : SourceNode → Bool) : Lists which (partAt? []) [] := by
  refine ⟨List.nodup_nil, fun path place ↦ ⟨nofun, ?_⟩⟩
  rintro ⟨hplace, -⟩
  obtain ⟨_, _, -, hlt⟩ := exists_cons_of_partAt? hplace
  cases hlt

/-- The paths into two lists of parts are those into the first, and those into the second, which
count from further left. -/
theorem Lists.append (h : Lists which (partAt? parts) found)
    (h' : Lists which (partAt? parts') found') :
    Lists which (partAt? (parts ++ parts'))
      (found ++ found'.map fun x ↦ (shift parts.length x.1, x.2)) := by
  constructor
  · have hshifted : (found'.map (shift parts.length ∘ Prod.fst)).Nodup := by
      rw [← List.map_map]
      exact h'.nodup.map (shift_injective _)
    rw [List.map_append, List.map_map]
    refine h.nodup.append hshifted ?_
    -- the paths on the left start below the number of parts there, those on the right do not
    intro path hleft hright
    obtain ⟨⟨_, place⟩, hmem, rfl⟩ := List.mem_map.1 hleft
    obtain ⟨i, rest, rfl, hlt⟩ := exists_cons_of_partAt? ((h.mem_iff _ _).1 hmem).1
    obtain ⟨⟨path', _⟩, -, hshift⟩ := List.mem_map.1 hright
    cases path' with
    | nil => cases hshift
    | cons j rest' =>
      have hi : j + parts.length = i := (List.cons.inj hshift).1
      omega
  · intro path place
    rw [List.mem_append, h.mem_iff]
    constructor
    · rintro (⟨hplace, hwhich⟩ | hmem)
      · obtain ⟨i, rest, rfl, hlt⟩ := exists_cons_of_partAt? hplace
        exact ⟨(partAt?_append_of_lt hlt).trans hplace, hwhich⟩
      · obtain ⟨⟨path', place'⟩, hmem', heq⟩ := List.mem_map.1 hmem
        obtain ⟨rfl, rfl⟩ := Prod.mk.inj heq
        obtain ⟨hplace, hwhich⟩ := (h'.mem_iff _ _).1 hmem'
        obtain ⟨i, rest, rfl, -⟩ := exists_cons_of_partAt? hplace
        exact ⟨partAt?_append_add.trans hplace, hwhich⟩
    · rintro ⟨hplace, hwhich⟩
      obtain ⟨i, rest, rfl, -⟩ := exists_cons_of_partAt? hplace
      by_cases hlt : i < parts.length
      · rw [partAt?_append_of_lt hlt] at hplace
        exact .inl ⟨hplace, hwhich⟩
      · obtain ⟨j, rfl⟩ := Nat.exists_eq_add_of_le' (Nat.le_of_not_lt hlt)
        rw [partAt?_append_add] at hplace
        exact .inr (List.mem_map.2 ⟨(j :: rest, place), (h'.mem_iff _ _).2 ⟨hplace, hwhich⟩, rfl⟩)

/-- The place of a node itself, if it is of the kind. -/
def own (which : SourceNode → Bool) (n : SourceNode) : List SourcePlace :=
  if which n then [⟨[], n⟩] else []

/-- The place of a node itself is at the empty path. -/
theorem mem_own_iff : place ∈ n.own which ↔ ⟨[], n⟩ = place ∧ which place.node := by
  unfold own
  split
  · next hwhich =>
    rw [List.mem_singleton, eq_comm]
    exact ⟨fun heq ↦ ⟨heq, heq ▸ hwhich⟩, And.left⟩
  · next hwhich =>
    refine ⟨nofun, ?_⟩
    rintro ⟨rfl, h⟩
    exact absurd h hwhich

/-- At and below a node there are itself and what is in its parts. -/
theorem Lists.node (h : Lists which (partAt? n.parts) found) :
    Lists which n.at? ((n.own which).map ([], ·) ++ found) := by
  have hpath : ∀ {path place}, (path, place) ∈ found → path ≠ [] := by
    rintro path place hmem rfl
    cases ((h.mem_iff _ _).1 hmem).1
  constructor
  · rw [List.map_append, List.map_map]
    refine List.Nodup.append ?_ h.nodup ?_
    · unfold own
      split <;> simp
    · intro path hleft hright
      obtain ⟨_, -, rfl⟩ := List.mem_map.1 hleft
      obtain ⟨⟨_, place⟩, hmem, hnil⟩ := List.mem_map.1 hright
      exact hpath hmem hnil
  · intro path place
    rw [List.mem_append]
    cases path with
    | nil =>
      have hnone : ([], place) ∉ found := fun hmem ↦ hpath hmem rfl
      rw [or_iff_left hnone, List.mem_map_of_injective fun _ _ heq ↦ (Prod.mk.inj heq).2,
        mem_own_iff, at?, Option.some_inj]
    | cons i rest =>
      have hnone : (i :: rest, place) ∉
          (n.own which).map (([], ·) : SourcePlace → List Nat × SourcePlace) := by
        intro hmem
        obtain ⟨_, -, heq⟩ := List.mem_map.1 hmem
        cases heq
      rw [or_iff_right hnone, h.mem_iff, n.at?_cons]

/-- In one part there is what is at and below its node. -/
theorem Lists.single (definition : Option Ident) (h : Lists which n.at? found) :
    Lists which (partAt? [⟨definition, n⟩])
      (found.map fun x ↦ (0 :: x.1, x.2.within definition)) := by
  constructor
  · rw [List.map_map]
    have hcons : (found.map ((0 :: ·) ∘ Prod.fst)).Nodup := by
      rw [← List.map_map]
      exact h.nodup.map List.cons_injective
    exact hcons
  · intro path place
    constructor
    · intro hmem
      obtain ⟨⟨path', place'⟩, hmem', heq⟩ := List.mem_map.1 hmem
      obtain ⟨rfl, rfl⟩ := Prod.mk.inj heq
      obtain ⟨hplace, hwhich⟩ := (h.mem_iff _ _).1 hmem'
      exact ⟨by simp [partAt?, hplace], hwhich⟩
    · rintro ⟨hplace, hwhich⟩
      obtain ⟨i, rest, rfl, hlt⟩ := exists_cons_of_partAt? hplace
      obtain rfl : i = 0 := Nat.lt_one_iff.1 hlt
      obtain ⟨place', hplace', rfl⟩ := Option.map_eq_some_iff.1 hplace
      exact List.mem_map.2 ⟨(rest, place'), (h.mem_iff _ _).2 ⟨hplace', hwhich⟩, rfl⟩

/-- Places are reached if they are those of the expressions among some parts, each once. -/
def Reached (parts : List Part) (places : List SourcePlace) : Prop :=
  ∃ found, Lists isExpr (partAt? parts) found ∧ found.map Prod.snd = places

theorem reached_nil : Reached [] [] :=
  ⟨[], lists_nil _, rfl⟩

/-- The expressions among two lists of parts are those of the first and then those of the
second. -/
theorem Reached.append (h : Reached parts places) (h' : Reached parts' places') :
    Reached (parts ++ parts') (places ++ places') := by
  obtain ⟨found, hlists, rfl⟩ := h
  obtain ⟨found', hlists', rfl⟩ := h'
  exact ⟨_, hlists.append hlists', by rw [List.map_append, List.map_map]; rfl⟩

/-- The expressions of a part are its node, if it is one, and those among the parts of the node. -/
theorem Reached.single (definition : Option Ident) (h : Reached n.parts places) :
    Reached [⟨definition, n⟩] ((n.own isExpr ++ places).map (SourcePlace.within definition)) := by
  obtain ⟨found, hlists, rfl⟩ := h
  exact ⟨_, hlists.node.single definition, by simp [Function.comp_def]⟩

end SourceNode

open SourceNode (Lists Reached reached_nil)

/-! ### Scopes -/

/-- The place of an expression outside all definitions. -/
def SourcePlace.ofExpr (e : Expr) : SourcePlace :=
  ⟨[], .expr e⟩

/-- The scopes at a place: those of the definitions whose bodies enclose it, entered one after
another from the scopes outside. -/
def SourcePlace.scopes (ns : Namespace) (outside : ScopeStack) (place : SourcePlace) : ScopeStack :=
  place.definitions.foldl (Visit.enter ns) outside

/-- A node with the scopes at its place. -/
def SourcePlace.seen (ns : Namespace) (outside : ScopeStack) (place : SourcePlace) :
    ScopeStack × SourceNode :=
  (place.scopes ns outside, place.node)

/-- What is inside a definition is seen from outside in the scope of that definition. -/
theorem SourcePlace.map_seen_within (ns : Namespace) (outside : ScopeStack)
    (definition : Option Ident) (places : List SourcePlace) :
    (places.map (within definition)).map (seen ns outside) =
      places.map (seen ns (definition.toList.foldl (Visit.enter ns) outside)) := by
  rw [List.map_map]
  exact List.map_congr_left fun place _ ↦ congrArg (·, place.node) List.foldl_append

/-! ### Expressions -/

/-- The parts of an expression are smaller than it is. -/
theorem Expr.sizeOf_lt_of_mem_parts {e part : Expr} (h : part ∈ e.parts) :
    sizeOf part < sizeOf e := by
  cases e with
  | name | literal | number | truth | null | comment => cases h
  | member text object id | keyword text id object | starred text object =>
    obtain rfl := List.mem_singleton.1 h
    simp only [member.sizeOf_spec, keyword.sizeOf_spec, starred.sizeOf_spec]
    omega
  | call text first rest | subscript text first rest =>
    simp only [call.sizeOf_spec, subscript.sizeOf_spec]
    rcases List.mem_cons.1 h with rfl | h
    · omega
    · have hlt : sizeOf part < sizeOf rest := List.sizeOf_lt_of_mem h
      omega
  | string text parts | concat text parts | display text shape parts
  | comprehension text shape parts | parens text parts | sequence text parts | other text parts =>
    have hlt : sizeOf part < sizeOf parts := List.sizeOf_lt_of_mem h
    simp only [string.sizeOf_spec, concat.sizeOf_spec, display.sizeOf_spec,
      comprehension.sizeOf_spec, parens.sizeOf_spec, sequence.sizeOf_spec, other.sizeOf_spec]
    omega
  | binary text left operator right | augment text left operator right =>
    simp only [binary.sizeOf_spec, augment.sizeOf_spec]
    simp only [parts, List.mem_cons, List.not_mem_nil, or_false] at h
    rcases h with rfl | rfl
    · omega
    · omega
  | assign text left hint right =>
    simp only [parts, List.mem_cons, List.mem_append, Option.mem_toList] at h
    rcases h with rfl | rfl | rfl
    · simp only [assign.sizeOf_spec]
      omega
    · simp only [assign.sizeOf_spec, Option.some.sizeOf_spec]
      omega
    · simp only [assign.sizeOf_spec, Option.some.sizeOf_spec]
      omega

/-- Induction on expressions: what passes from the parts of an expression to it holds of all. -/
theorem Expr.parts_induction {motive : Expr → Prop}
    (step : ∀ e, (∀ part ∈ e.parts, motive part) → motive e) (e : Expr) : motive e :=
  step e fun part hpart ↦
    have : sizeOf part < sizeOf e := sizeOf_lt_of_mem_parts hpart
    parts_induction step part
termination_by sizeOf e

/-- The nodes of an expression are itself and those of its parts. -/
theorem Expr.nodes_eq (e : Expr) :
    e.nodes (fun _ ↦ true) = e :: nodesOfList (fun _ ↦ true) e.parts := by
  cases e with
  | assign text left hint right =>
    cases hint <;> cases right <;> simp [nodes, nodesOfOption, nodesOfList, parts]
  | _ => simp [nodes, nodesOfList, parts]

/-- Expressions after one another: what their nodes reach together. -/
theorem Expr.reached_nodesOfList_of_forall {exprs : List Expr} (h : ∀ e ∈ exprs,
    Reached [⟨none, .expr e⟩] ((e.nodes fun _ ↦ true).map SourcePlace.ofExpr)) :
    Reached (exprs.map fun e ↦ ⟨none, .expr e⟩)
      ((nodesOfList (fun _ ↦ true) exprs).map SourcePlace.ofExpr) := by
  induction exprs with
  | nil => exact reached_nil
  | cons e rest ih =>
    rw [nodesOfList, List.map_append]
    exact (h e List.mem_cons_self).append (ih fun x hx ↦ h x (List.mem_cons_of_mem _ hx))

/-- The nodes of an expression are the expressions at and below it, each once. -/
theorem Expr.reached_nodes (e : Expr) :
    Reached [⟨none, .expr e⟩] ((e.nodes fun _ ↦ true).map SourcePlace.ofExpr) := by
  induction e using parts_induction with
  | step e ih =>
    have hbelow : Reached (SourceNode.expr e).parts
        ((nodesOfList (fun _ ↦ true) e.parts).map SourcePlace.ofExpr) :=
      reached_nodesOfList_of_forall ih
    have hself := hbelow.single none
    rw [show SourcePlace.within none = id from rfl, List.map_id] at hself
    rw [nodes_eq]
    exact hself

/-- The nodes of expressions, one after another, are the expressions at and below them, each once.
-/
theorem Expr.reached_nodesOfList (exprs : List Expr) :
    Reached (exprs.map fun e ↦ ⟨none, .expr e⟩)
      ((nodesOfList (fun _ ↦ true) exprs).map SourcePlace.ofExpr) :=
  reached_nodesOfList_of_forall fun e _ ↦ e.reached_nodes

/-! ### Statements -/

/-- Induction on a block of statements, with the statements that the first one governs as the
block inside it. -/
theorem Stmt.cons_induction {motive : List Stmt → Prop} (nil : motive [])
    (cons : ∀ s rest, motive s.block → motive rest → motive (s :: rest)) (block : List Stmt) :
    motive block := by
  induction block using Stmt.block_induction with
  | nil => exact nil
  | simple exprs rest ih | importModules clauses rest ih | importFrom source rest ih =>
    exact cons _ rest nil ih
  | compound head body rest ihBody ihRest | classDef head body rest ihBody ihRest
  | funcDef head body rest ihBody ihRest => exact cons _ rest ihBody ihRest

namespace Visit

variable (ns : Namespace)

/-- The expression that a visit is to, as a node, with the scopes around it. -/
def expr? (v : Visit) : Option (ScopeStack × SourceNode) :=
  match v.site with
  | .expr e => some (v.scopes, .expr e)
  | _ => none

theorem filterMap_expr?_ofExprs (scopes : ScopeStack) (unbound : Nat) (exprs : List Expr) :
    (ofExprs {} scopes unbound exprs).filterMap expr? =
      ((Expr.nodesOfList (fun _ ↦ true) exprs).map SourcePlace.ofExpr).map
        (SourcePlace.seen ns scopes) := by
  rw [ofExprs, List.filterMap_map, List.map_map, ← List.filterMap_eq_map]
  rfl

/-- The visits to two lists of expressions are those to the first and then those to the second. -/
theorem ofExprs_append (reach : Reach) (scopes : ScopeStack) (unbound : Nat)
    (exprs exprs' : List Expr) : ofExprs reach scopes unbound (exprs ++ exprs') =
      ofExprs reach scopes unbound exprs ++ ofExprs reach scopes unbound exprs' := by
  induction exprs with
  | nil => rfl
  | cons e rest ih =>
    simp only [ofExprs, List.cons_append, Expr.nodesOfList, List.map_append] at ih ⊢
    rw [ih, List.append_assoc]

/-- The visits to a statement: its own expressions in the scopes around it, and then the statements
that it governs, in its scope if it is a definition. -/
theorem filterMap_expr?_ofStmt (scopes : ScopeStack) (unbound : Nat) (s : Stmt) :
    ∃ unbound', (ofStmt ns {} scopes unbound s).filterMap expr? =
      (ofExprs {} scopes unbound s.heads).filterMap expr? ++
        (ofStmts ns {} (s.definition?.toList.foldl (enter ns) scopes) unbound' s.block).filterMap
          expr? := by
  -- the expressions of a definition are visited on both sides of the definition itself, which is
  -- no expression, and with different counts, which are not looked at
  have hcount : ∀ (u : Nat) (exprs : List Expr), (ofExprs {} scopes u exprs).filterMap expr? =
      (ofExprs {} scopes unbound exprs).filterMap expr? := fun u exprs ↦ by
    rw [filterMap_expr?_ofExprs ns, filterMap_expr?_ofExprs ns]
  cases s with
  | simple exprs => exact ⟨unbound, by simp [ofStmt, Stmt.heads, Stmt.block, ofStmts]⟩
  | importModules clauses | importFrom source => exact ⟨unbound, rfl⟩
  | compound head body =>
    exact ⟨unbound, by simp [ofStmt, Stmt.heads, Stmt.block, Stmt.definition?]⟩
  | classDef head body =>
    exact ⟨unbound, by
      simp [ofStmt, Stmt.heads, Stmt.block, Stmt.definition?, ofExprs_append, List.filterMap_cons,
        expr?]⟩
  | funcDef head body =>
    refine ⟨if head.isUnbound then unbound + 1 else unbound, ?_⟩
    simp [ofStmt, Stmt.heads, Stmt.block, Stmt.definition?, ofExprs_append, List.filterMap_cons,
      expr?, hcount (ite ..)]

/-- The visits to a block reach the expressions in it, each once and in its scopes. -/
theorem reached_ofStmts (definition : Option Ident) (outside : ScopeStack) (unbound : Nat)
    (block : List Stmt) : ∃ places, Reached (block.map fun s ↦ ⟨definition, .stmt s⟩) places ∧
      (ofStmts ns {} (definition.toList.foldl (enter ns) outside) unbound block).filterMap expr? =
        places.map (SourcePlace.seen ns outside) := by
  induction block using Stmt.cons_induction generalizing definition outside unbound with
  | nil => exact ⟨[], reached_nil, rfl⟩
  | cons s rest ihBlock ihRest =>
    let scopes := definition.toList.foldl (enter ns) outside
    obtain ⟨unbound', hstmt⟩ := filterMap_expr?_ofStmt ns scopes unbound s
    obtain ⟨below, hbelow, hvisits⟩ := ihBlock s.definition? scopes unbound'
    obtain ⟨after, hafter, hlater⟩ := ihRest definition outside unbound
    have hparts : Reached (SourceNode.stmt s).parts
        ((Expr.nodesOfList (fun _ ↦ true) s.heads).map SourcePlace.ofExpr ++ below) :=
      (Expr.reached_nodesOfList s.heads).append hbelow
    refine ⟨_, (hparts.single definition).append hafter, ?_⟩
    have hown : (SourceNode.stmt s).own SourceNode.isExpr = [] := rfl
    rw [ofStmts, List.filterMap_append, hstmt, hvisits, hlater, filterMap_expr?_ofExprs ns]
    simp only [hown, List.nil_append, List.map_append, SourcePlace.map_seen_within, scopes]

/-- **The visits to a file** reach each expression of it exactly once, in source order and in the
scopes of the definitions whose bodies enclose it. -/
theorem exists_lists_ofFile (component : Id) (file : List Stmt) :
    ∃ found, Lists SourceNode.isExpr (SourceNode.file file).at? found ∧
      (ofFile ns {} component file).filterMap expr? =
        found.map fun x ↦ x.2.seen ns { component } := by
  obtain ⟨places, ⟨found, hlists, rfl⟩, hvisits⟩ := reached_ofStmts ns none { component } 0 file
  refine ⟨found, hlists.node (n := .file file), ?_⟩
  rw [List.map_map] at hvisits
  exact hvisits

end Visit

end CodeAtlas
