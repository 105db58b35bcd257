import Mathlib.Logic.Function.Basic
import CodeAtlas.Proofs.Exports.Frame

/-!
# Export lists as a calculation

What a pass does with the export lists of a project is a calculation on lists. The statements of a
file are *actions* (`Action`), which are the same in each pass since they are read off the file and
the outline of the namespace (`actions_congr`).

## Evaluation

Evaluating the actions of a file in order, with the lists of all components as they are
(`evaluate`), gives the list of the component, the lists that it knows under names, and how many
references are unresolved. What is known of all components (`Knowledge`) changes at the component of
the file only (`Knowledge.pass`). A traversal evaluates one file after another
(`Knowledge.traverse`).

## The pass is the calculation

The pass over a file is opened here once, to see that it is this calculation (`knowledge_pass`). The
proof goes through the visits with a relation between the state of the pass and a reading
(`Matches`): nothing but the lists known in the component has changed in the namespace, and these
are the ones of the reading. There is one lemma for each kind of statement, and one for the end of
the file, where the list is entered if there is one (`Matches.leave`).

What is proved of repeated passes is proved of `Knowledge.traverse`, and carried to projects with
`knowledge_run`.
-/

namespace CodeAtlas

namespace Exports

/-! ### Actions -/

/-- What a statement does to the export list of a module. -/
inductive Action where
  /-- The list is assigned. -/
  | set (names : List String)
  /-- A sum of lists is assigned. -/
  | sum (operands : List Operand)
  /-- The list is extended. -/
  | extend (names : List String)
  /-- The list of a component becomes known under some names. -/
  | take (source : Id) (names : List String)

/-- What an assignment to the export variable does. -/
def assignment? (right : Expr) : Option Action :=
  match right.strings with
  | some names => some (.set names)
  | none =>
    match right.bare with
    | .binary .. => (operands right).map .sum
    | _ => none

/-- What an import does: the list of a component that is there becomes known under some names. -/
def importing? (ns : Namespace) (component : Id) (source : FromImport) : Option Action :=
  let clauses := source.clauses.filter (·.name == exportVariable)
  if clauses.isEmpty then none
  else
    ((ns.importSource component source.path source.level).bind ns.lookup).bind fun id ↦
      if ns.kind? id = some .component then some (.take id (clauses.map (·.binding))) else none

/-- What is done at a visit. -/
def action? (ns : Namespace) (component : Id) (visit : Visit) : Option Action :=
  match visit.site with
  | .expr (.assign _ left _ (some right)) =>
    if left.text == exportVariable then assignment? right else none
  | .expr (.augment _ left operator right) =>
    if left.text == exportVariable && operator == "+=" then right.strings.map .extend else none
  | .importFrom source => importing? ns component source
  | _ => none

/-- The actions of a file, in order. -/
def actions (ns : Namespace) (component : Id) (file : List Stmt) : List Action :=
  (Visit.ofFile ns reach component file).filterMap (action? ns component)

/-! ### Evaluation -/

/-- The export lists of components, where they are known. -/
abbrev Lists := Id → Option (List String)

/-- The lists that a component knows under names. -/
abbrev Aliases := String → Option (List String)

/-- The names that an operand adds. -/
def Operand.value (aliases : Aliases) : Operand → Option (List String)
  | literal names => some names
  | imported name => aliases name

/-- The number of operands whose lists are not known. -/
def missing (aliases : Aliases) (operands : List Operand) : Nat :=
  operands.countP fun o ↦ (o.value aliases).isNone

/-- A sum of lists that are known. -/
def total (aliases : Aliases) (operands : List Operand) : List String :=
  operands.flatMap fun o ↦ (o.value aliases).getD []

/-- How far the statements of a file have been read: the lists that are known under names, the
list as it is so far, and the number of unresolved references. -/
structure Reading where
  aliases : Aliases
  pending : Option (List String) := none
  count : Nat := 0

/-- Evaluates an action. -/
def Action.eval (lists : Lists) (r : Reading) : Action → Reading
  | set names => { r with pending := some names }
  | sum operands =>
    if missing r.aliases operands = 0 then { r with pending := some (total r.aliases operands) }
    else { r with count := r.count + missing r.aliases operands }
  | extend names =>
    match r.pending with
    | some list => { r with pending := some (list ++ names) }
    | none => { r with pending := some names, count := r.count + 1 }
  | take source names =>
    { r with aliases := fun name ↦ if name ∈ names then lists source else r.aliases name }

/-- Evaluates the actions of a file. -/
def evaluate (lists : Lists) (actions : List Action) (aliases : Aliases) : Reading :=
  actions.foldl (Action.eval lists) { aliases }

/-- What is known of the export lists of all components, and the number of unresolved
references. -/
structure Knowledge where
  lists : Lists
  aliases : Id → Aliases
  count : Nat

namespace Knowledge

/-- Reads the file of a component. -/
def pass (k : Knowledge) (component : Id) (actions : List Action) : Knowledge :=
  let r := evaluate k.lists actions (k.aliases component)
  { lists := Function.update k.lists component (r.pending.or (k.lists component))
    aliases := Function.update k.aliases component r.aliases
    count := k.count + r.count }

/-- What is known at the start of a traversal: what was known before it, with nothing counted. -/
def reset (k : Knowledge) : Knowledge :=
  { k with count := 0 }

/-- Reads files, in order. -/
def traverse (k : Knowledge) (work : List (Id × List Action)) : Knowledge :=
  work.foldl (fun k w ↦ k.pass w.1 w.2) k

end Knowledge

end Exports

/-! ### What a namespace knows -/

namespace Namespace

variable {ns ns' : Namespace}

/-- The export list of a component, if it is known. -/
def exports? (ns : Namespace) (id : Id) : Option (List String) :=
  (ns.component? id).bind Component.exports

/-- The list that a component knows under a name. -/
def exportAlias? (ns : Namespace) (id : Id) (name : String) : Option (List String) :=
  (ns.component? id).bind fun c ↦ c.exportAliases[name]?.join

/-- A change to a component is seen in that component only. -/
theorem component?_modify_mapComponent (id i : Id) (f : Component → Component) :
    (ns.modify id (·.mapComponent f)).component? i =
      if i = id then (ns.component? id).map f else ns.component? i := by
  unfold component?
  rw [get?_modify]
  split
  · rcases ns.get? id with - | ⟨_, _, body⟩
    · rfl
    · cases body <;> rfl
  · rfl

/-- A change to a component is seen in the list of that component only. -/
theorem exports?_modify_mapComponent (id i : Id) (f : Component → Component) :
    (ns.modify id (·.mapComponent f)).exports? i =
      if i = id then (ns.component? id).bind fun c ↦ (f c).exports else ns.exports? i := by
  rw [exports?, component?_modify_mapComponent]
  split
  · rw [Option.bind_map]
    rfl
  · rfl

theorem exportAlias?_modify_mapComponent (id i : Id) (f : Component → Component) (name : String) :
    (ns.modify id (·.mapComponent f)).exportAlias? i name =
      if i = id then (ns.component? id).bind fun c ↦ (f c).exportAliases[name]?.join
      else ns.exportAlias? i name := by
  rw [exportAlias?, component?_modify_mapComponent]
  split
  · rw [Option.bind_map]
    rfl
  · rfl

theorem exists_component? {id : Id} (h : ns.kind? id = some .component) :
    ∃ c, ns.component? id = some c := by
  obtain ⟨⟨_, _, body⟩, he, hkind⟩ := Option.map_eq_some_iff.1 h
  unfold component?
  rw [he]
  cases body with
  | component c => exact ⟨c, rfl⟩
  | package | cls | function => cases hkind

/-- Sources of imports are read off the outline of the component. -/
theorem importSource_eq_outline (ns : Namespace) (component : Id) (path : Option String)
    (level : Nat) :
    ns.importSource component path level =
      match level with
      | 0 => path.map QualName.mk
      | outward + 1 => do
        let o ← (ns.get? component).map Entity.outline
        let base ← if o.isDirectory then some o.qualName else o.qualName.parent
        let base ← base.ancestor outward
        return match path with
          | some path => base.child path
          | none => base := by
  cases level with
  | zero => rfl
  | succ outward =>
    rw [Namespace.importSource]
    cases ns.get? component <;> rfl

/-- Where an import statement takes from is seen in outlines. -/
theorem SameOutline.importSource (h : ns.SameOutline ns') (component : Id) (path : Option String)
    (level : Nat) :
    ns'.importSource component path level = ns.importSource component path level := by
  rw [importSource_eq_outline, importSource_eq_outline, h.outline]

end Namespace

namespace Exports

variable {ns ns' : Namespace} {component : Id}

/-- Namespaces with the same outline have the same actions. -/
theorem importing?_congr (h : ns.SameOutline ns') (component : Id) :
    importing? ns' component = importing? ns component := by
  have hlookup : ns'.lookup = ns.lookup := funext h.lookup
  funext source
  simp only [importing?, h.importSource, hlookup, h.kind?]

theorem action?_congr (h : ns.SameOutline ns') (component : Id) :
    action? ns' component = action? ns component := by
  funext visit
  simp only [action?, importing?_congr h]

/-- The actions of a file are the same in namespaces with the same outline. -/
theorem actions_congr (h : ns.SameOutline ns') (component : Id) (file : List Stmt) :
    actions ns' component file = actions ns component file := by
  rw [actions, action?_congr h, Visit.ofFile_of_not_definitions ns ns' rfl]
  rfl

/-! ### The pass is the calculation -/

/-- A state of the pass and a reading agree: nothing but the lists known in the component has
changed in the namespace, and these are the ones of the reading. -/
structure Matches (ns : Namespace) (component : Id) (count : Nat) (s : State) (r : Reading) :
    Prop where
  scopes : ns.SameScopes s.ns
  exports : ∀ id, s.ns.exports? id = ns.exports? id
  aliases : ∀ id, s.ns.exportAlias? id = if id = component then r.aliases else ns.exportAlias? id
  pending : s.pending = r.pending
  count : s.count = count + r.count

variable {count : Nat} {s : State} {r : Reading}

/-- An assignment of a sum is what its action says. -/
theorem Matches.assignSum (h : Matches ns component count s r)
    (hkind : ns.kind? component = some .component) (operands : List Operand) :
    Matches ns component count (assignSum s component operands)
      ((Action.sum operands).eval ns.exports? r) := by
  obtain ⟨c, hc⟩ := Namespace.exists_component? ((h.scopes.kind? component).trans hkind)
  have hvalue : Operand.names c = Operand.value r.aliases := by
    funext o
    cases o with
    | literal names => rfl
    | imported name =>
      have halias := congrFun (h.aliases component) name
      rw [if_pos rfl, Namespace.exportAlias?, hc] at halias
      exact halias
  have hmissing : (operands.map (Operand.names c)).countP Option.isNone =
      missing r.aliases operands := by
    rw [hvalue, List.countP_map]
    rfl
  have htotal : ((operands.map (Operand.names c)).flatMap fun l ↦ l.getD []) =
      total r.aliases operands := by
    rw [hvalue, List.flatMap_map]
    rfl
  rw [Exports.assignSum, hc, Action.eval]
  dsimp only
  rw [hmissing, htotal]
  split
  · next hzero =>
    rw [if_pos hzero]
    exact ⟨h.scopes, h.exports, h.aliases, rfl, h.count⟩
  · next hzero =>
    rw [if_neg hzero]
    refine ⟨h.scopes, h.exports, h.aliases, h.pending, ?_⟩
    show s.count + _ = count + (r.count + _)
    rw [h.count, Nat.add_assoc]

/-- An assignment is what its action says. -/
theorem Matches.assign (h : Matches ns component count s r)
    (hkind : ns.kind? component = some .component) (right : Expr) :
    Matches ns component count (assign s component right)
      ((assignment? right).elim r fun a ↦ a.eval ns.exports? r) := by
  unfold Exports.assign assignment?
  cases right.strings with
  | some names => exact ⟨h.scopes, h.exports, h.aliases, rfl, h.count⟩
  | none =>
    cases right.bare with
    | binary =>
      cases operands right with
      | none => exact h
      | some sum => exact h.assignSum hkind sum
    | _ => exact h

/-- An extension is what its action says. -/
theorem Matches.extend (h : Matches ns component count s r) (names : List String) :
    Matches ns component count (extend s names) ((Action.extend names).eval ns.exports? r) := by
  have hpending := h.pending
  unfold Exports.extend
  rw [Action.eval]
  cases hs : s.pending with
  | none =>
    rw [hs] at hpending
    rw [← hpending]
    refine ⟨h.scopes, h.exports, h.aliases, rfl, ?_⟩
    show s.count + 1 = count + (r.count + 1)
    rw [h.count, Nat.add_assoc]
  | some list =>
    rw [hs] at hpending
    rw [← hpending]
    exact ⟨h.scopes, h.exports, h.aliases, rfl, h.count⟩

/-- A list that was made known under some names is found under these. -/
theorem getElem?_addAliases (c : Component) (clauses : List ImportClause)
    (list : Option (List String)) (name : String) :
    (addAliases c clauses list).exportAliases[name]?.join =
      if name ∈ clauses.map (·.binding) then list else c.exportAliases[name]?.join := by
  have hinsert : ∀ table : Std.ExtTreeMap String (Option (List String)),
      (clauses.foldl (fun table clause ↦ table.insert clause.binding list) table)[name]?.join =
        if name ∈ clauses.map (·.binding) then list else table[name]?.join := by
    induction clauses with
    | nil => exact fun table ↦ rfl
    | cons clause rest ih =>
      intro table
      rw [List.foldl_cons, ih, getElem?_insert_ite]
      by_cases hname : name = clause.binding
      · simp [hname]
      · simp [hname]
  exact hinsert c.exportAliases

/-- An import of lists does nothing, or it makes the list of a component known. -/
theorem importList_cases (s : State) (component : Id) (source : FromImport) :
    (importing? s.ns component source = none ∧ importList s component source = s) ∨
      ∃ (id : Id) (clauses : List ImportClause),
        importing? s.ns component source = some (.take id (clauses.map (·.binding))) ∧
        importList s component source =
          { s with
            ns := s.ns.modify component
              (·.mapComponent (addAliases · clauses (s.ns.exports? id))) } := by
  unfold importList importing?
  dsimp only
  by_cases hempty : (source.clauses.filter (·.name == exportVariable)).isEmpty
  · rw [if_pos hempty, if_pos hempty]
    exact .inl ⟨rfl, rfl⟩
  · rw [if_neg hempty, if_neg hempty]
    cases s.ns.importSource component source.path source.level with
    | none => exact .inl ⟨rfl, rfl⟩
    | some name =>
      rw [Option.bind_some, Option.bind_some, Namespace.find?]
      cases s.ns.lookup name with
      | none => exact .inl ⟨rfl, rfl⟩
      | some id =>
        rw [Option.bind_some, Option.bind_some, Namespace.kind?]
        -- what the name stands for may be gone, or no component
        cases he : s.ns.get? id with
        | none => exact .inl ⟨rfl, rfl⟩
        | some e =>
          obtain ⟨_, _, body⟩ := e
          cases body with
          | component c =>
            have hlist : s.ns.exports? id = c.exports := by
              rw [Namespace.exports?, Namespace.component?, he]
              rfl
            exact .inr ⟨id, _, rfl, by rw [hlist]; rfl⟩
          | package | cls | function => exact .inl ⟨rfl, rfl⟩

/-- Making a list known under some names is what the action says. -/
theorem Matches.take (h : Matches ns component count s r)
    (hkind : ns.kind? component = some .component) (id : Id) (clauses : List ImportClause) :
    Matches ns component count
      { s with
        ns := s.ns.modify component
          (·.mapComponent (addAliases · clauses (s.ns.exports? id))) }
      ((Action.take id (clauses.map (·.binding))).eval ns.exports? r) := by
  obtain ⟨own, hown⟩ := Namespace.exists_component? ((h.scopes.kind? component).trans hkind)
  rw [h.exports]
  refine ⟨h.scopes.modify (Body.keeps_mapComponent (fun _ ↦ rfl) (fun _ ↦ rfl) fun _ ↦ rfl),
    fun i ↦ ?_, fun i ↦ ?_, h.pending, h.count⟩
  · rw [Namespace.exports?_modify_mapComponent, ← h.exports i]
    split
    · next hi =>
      rw [hi]
      rfl
    · rfl
  · funext key
    have halias := congrFun (h.aliases i) key
    rw [Namespace.exportAlias?_modify_mapComponent]
    split
    · next hi =>
      rw [hi, if_pos rfl, Namespace.exportAlias?, hown, Option.bind_some] at halias
      rw [hown, Option.bind_some, getElem?_addAliases, halias]
      rfl
    · next hi =>
      rw [if_neg hi] at halias
      exact halias

/-- An import is what its action says. -/
theorem Matches.importList (h : Matches ns component count s r)
    (hkind : ns.kind? component = some .component) (source : FromImport) :
    Matches ns component count (importList s component source)
      ((importing? ns component source).elim r fun a ↦ a.eval ns.exports? r) := by
  rw [← importing?_congr h.scopes.toSameOutline]
  rcases importList_cases s component source with ⟨haction, hstate⟩ | ⟨id, clauses, haction, hstate⟩
  · rw [haction, hstate]
    exact h
  · rw [haction, hstate]
    exact h.take hkind id clauses

/-- What is done at a visit is what the action there says. -/
theorem Matches.step (h : Matches ns component count s r)
    (hkind : ns.kind? component = some .component) (visit : Visit) :
    Matches ns component count (step component s visit)
      ((action? ns component visit).elim r fun a ↦ a.eval ns.exports? r) := by
  obtain ⟨scopes, unbound, site⟩ := visit
  cases site with
  | importModules | classDef | funcDef => exact h
  | importFrom source => exact h.importList hkind source
  | expr e =>
    cases e with
    | assign text left hint right =>
      cases right with
      | none => exact h
      | some right =>
        dsimp only [Exports.step, action?]
        by_cases hleft : left.text == exportVariable
        · rw [if_pos hleft, if_pos hleft]
          exact h.assign hkind right
        · rw [if_neg hleft, if_neg hleft]
          exact h
    | augment text left operator right =>
      dsimp only [Exports.step, action?]
      by_cases hleft : left.text == exportVariable && operator == "+="
      · rw [if_pos hleft, if_pos hleft]
        cases right.strings with
        | none => exact h
        | some names => exact h.extend names
      · rw [if_neg hleft, if_neg hleft]
        exact h
    | _ => exact h

/-- What is done at visits is what the actions there say, one after another. -/
theorem Matches.foldl (h : Matches ns component count s r)
    (hkind : ns.kind? component = some .component) (visits : List Visit) :
    Matches ns component count (visits.foldl (Exports.step component) s)
      ((visits.filterMap (action? ns component)).foldl (Action.eval ns.exports?) r) := by
  induction visits generalizing s r with
  | nil => exact h
  | cons visit rest ih =>
    have hstep := ih (h.step hkind visit)
    rw [List.foldl_cons, List.filterMap_cons]
    cases ha : action? ns component visit with
    | none =>
      rw [ha] at hstep
      exact hstep
    | some a =>
      rw [ha] at hstep
      exact hstep

/-- What the namespace of a pass knows, with the count of the pass. -/
def knowledge (p : Progress) : Knowledge :=
  ⟨p.ns.exports?, p.ns.exportAlias?, p.count⟩

/-- At the end of a file its list, if there is one, is entered. -/
theorem Matches.leave (h : Matches ns component count s r)
    (hkind : ns.kind? component = some .component) :
    knowledge
        (match s.pending with
        | none => s.toProgress
        | some list =>
          { s.toProgress with ns := s.ns.modify component (·.mapComponent fun c ↦
            { c with exports := some list }) }) =
      { lists := Function.update ns.exports? component (r.pending.or (ns.exports? component))
        aliases := Function.update ns.exportAlias? component r.aliases
        count := count + r.count } := by
  have hexports : s.ns.exports? = ns.exports? := funext h.exports
  have haliases : s.ns.exportAlias? = Function.update ns.exportAlias? component r.aliases := by
    funext id
    rw [h.aliases, Function.update_apply]
  obtain ⟨own, hown⟩ := Namespace.exists_component? ((h.scopes.kind? component).trans hkind)
  rw [← h.count, ← h.pending, ← haliases, ← hexports]
  cases s.pending with
  | none =>
    rw [Option.none_or, Function.update_eq_self]
    rfl
  | some list =>
    have hlists : (s.ns.modify component (·.mapComponent fun c ↦
        { c with exports := some list })).exports? =
          Function.update s.ns.exports? component (some list) := by
      funext id
      rw [Namespace.exports?_modify_mapComponent, hown, Function.update_apply]
      rfl
    have hsame : (s.ns.modify component (·.mapComponent fun c ↦
        { c with exports := some list })).exportAlias? = s.ns.exportAlias? := by
      funext id name
      rw [Namespace.exportAlias?_modify_mapComponent]
      split
      · next hid =>
        rw [hid]
        rfl
      · rfl
    show Knowledge.mk _ _ _ = Knowledge.mk _ _ _
    rw [hlists, hsame, Option.some_or]

/-- **The pass over a file.** Its effect on what is known is that of the actions of the file. -/
theorem knowledge_pass {p : Progress} (hkind : p.ns.kind? component = some .component)
    (file : List Stmt) :
    knowledge (pass component file p) =
      (knowledge p).pass component (actions p.ns component file) := by
  have hstart : Matches p.ns component p.count { p with }
      { aliases := p.ns.exportAlias? component } := by
    refine ⟨.refl p.ns, fun _ ↦ rfl, fun id ↦ ?_, rfl, rfl⟩
    split
    · next hid => rw [hid]
    · rfl
  exact (hstart.foldl hkind (Visit.ofFile p.ns reach component file)).leave hkind

/-! ### All files -/

/-- The source files of a namespace as components and actions. -/
def work (project : Project) (ns : Namespace) : List (Id × List Action) :=
  ns.sources.map fun f ↦ (f.component, actions ns f.component (project.statements f.path))

/-- The work is the same in namespaces with the same outline. -/
theorem work_congr {project : Project} (h : ns.SameOutline ns') :
    work project ns' = work project ns := by
  rw [work, h.sources]
  refine List.map_congr_left fun f _ ↦ ?_
  rw [actions_congr h]

/-- **One traversal.** Its effect on what is known is that of reading the files in order. -/
theorem knowledge_run {project : Project} {p : Progress} (hread : project.Readable p.ns.sources)
    (hlive : p.ns.SourcesLive) :
    (project.run pass p).2 = none ∧
      p.ns.SameScopes (project.run pass p).1.ns ∧
      knowledge (project.run pass p).1 = (knowledge p).traverse (work project p.ns) := by
  have hfiles : ∀ files : List SourceFile,
      (∀ f ∈ files, p.ns.kind? f.component = some .component) →
      ∀ q : Progress, p.ns.SameScopes q.ns →
        let q' := files.foldl (fun q f ↦ pass f.component (project.statements f.path) q) q
        p.ns.SameScopes q'.ns ∧ knowledge q' = (knowledge q).traverse (files.map fun f ↦
          (f.component, actions p.ns f.component (project.statements f.path))) := by
    intro files
    induction files with
    | nil => exact fun _ q hq ↦ ⟨hq, rfl⟩
    | cons f rest ih =>
      intro hlive q hq
      have hkind := (hq.kind? f.component).trans (hlive f List.mem_cons_self)
      have hpass := knowledge_pass hkind (project.statements f.path)
      rw [actions_congr hq.toSameOutline] at hpass
      obtain ⟨hscopes, hknowledge⟩ := ih (fun g hg ↦ hlive g (List.mem_cons_of_mem _ hg)) _
        (hq.trans (sameScopes_pass f.component (project.statements f.path) q))
      refine ⟨hscopes, hknowledge.trans ?_⟩
      rw [hpass]
      rfl
  obtain ⟨hscopes, hknowledge⟩ := hfiles p.ns.sources hlive p (.refl p.ns)
  rw [Project.run, Project.traverse_eq_foldl hread]
  exact ⟨rfl, hscopes, hknowledge⟩

end Exports

end CodeAtlas
