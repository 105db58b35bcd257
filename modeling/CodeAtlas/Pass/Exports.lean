import CodeAtlas.Pass.Basic

/-!
# Export lists

At module level, outside definitions, these statements make up the list of names that a module
exports:

* an assignment of a list or tuple of strings;
* an assignment of a sum of such lists and of lists imported under a name;
* `+=` with a list or tuple of strings;
* an import of another module's list, which is then known under a name.

They are evaluated in order, afresh for every pass over the file.
-/

namespace CodeAtlas

namespace Exports

/-- An operand of a sum of lists. -/
inductive Operand where
  | literal (names : List String)
  | imported (name : String)

/-- The operands of a sum, left to right. There are none if an operand is neither a list nor a
plain name, or if an operator is not `+`. -/
def operands : Expr → Option (List Operand)
  | .parens _ (inner :: _) => operands inner
  | .binary _ left operator right =>
    if operator == "+" then do
      return (← operands left) ++ (← operands right)
    else none
  | .name id => some [.imported id.text]
  | .display _ .list items | .display _ .tuple items =>
    some [.literal (items.filterMap Expr.stringValue)]
  | _ => none

/-- The progress of the pass within a file: the list as the statements so far make it. -/
structure State extends Progress where
  pending : Option (List String) := none

/-- The names that an operand adds; `none` if its list is not known. -/
def Operand.names (c : Component) : Operand → Option (List String)
  | literal names => some names
  | imported name => c.exportAliases[name]?.join

/-- Evaluates a sum of lists. Operands that are not known are counted, and leave the list as
it was. -/
def assignSum (s : State) (component : Id) (sum : List Operand) : State :=
  match s.ns.component? component with
  | none => s
  | some c =>
    let lists := sum.map (Operand.names c)
    match lists.countP Option.isNone with
    | 0 => { s with pending := some (lists.flatMap fun l ↦ l.getD []) }
    | missing => { s with count := s.count + missing }

/-- Evaluates an assignment to the export variable. -/
def assign (s : State) (component : Id) (right : Expr) : State :=
  match right.strings with
  | some names => { s with pending := some names }
  | none =>
    match right.bare with
    | .binary .. =>
      match operands right with
      | some sum => assignSum s component sum
      | none => s
    | _ => s

/-- Evaluates `+=`. Without a list to extend, it starts one and counts as unresolved. -/
def extend (s : State) (names : List String) : State :=
  match s.pending with
  | some list => { s with pending := some (list ++ names) }
  | none => { s with pending := some names, count := s.count + 1 }

/-- Makes a list known under the names it is imported as. -/
def addAliases (c : Component) (clauses : List ImportClause) (list : Option (List String)) :
    Component :=
  { c with exportAliases := clauses.foldl (·.insert ·.binding list) c.exportAliases }

/-- Remembers the list of another module under the names it is imported as. -/
def importList (s : State) (component : Id) (source : FromImport) : State :=
  let clauses := source.clauses.filter (·.name == exportVariable)
  if clauses.isEmpty then s
  else
    match (s.ns.importSource component source.path source.level).bind s.ns.find? with
    | none => s
    | some e =>
      match e.body.component? with
      | none => s
      | some c =>
        { s with ns := s.ns.modify component (·.mapComponent (addAliases · clauses c.exports)) }

/-- One statement. -/
def step (component : Id) (s : State) (visit : Visit) : State :=
  match visit.site with
  | .expr (.assign _ left _ (some right)) =>
    if left.text == exportVariable then assign s component right else s
  | .expr (.augment _ left operator right) =>
    if left.text == exportVariable && operator == "+=" then
      match right.strings with
      | some names => extend s names
      | none => s
    else s
  | .importFrom source => importList s component source
  | _ => s

/-- The pass looks at statements outside definitions, and at assignments only as a whole. -/
def reach : Reach where
  definitions := false
  enters
    | .assign .. | .augment .. => false
    | _ => true

/-- Resolves the export list of a component. The count is that of unresolved references. -/
def pass : Pass := fun component file p ↦
  let s := (Visit.ofFile p.ns reach component file).foldl (step component) { p with }
  match s.pending with
  | none => s.toProgress
  | some list =>
    { s.toProgress with ns := s.ns.modify component (·.mapComponent fun c ↦
        { c with exports := some list }) }

end Exports

end CodeAtlas
