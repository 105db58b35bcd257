import Mathlib.Logic.Relation
import CodeAtlas.Proofs.Arrangement

/-!
# Walking through a file

The visits to a file come with the scopes around each place. A walk gets to the same places with one
stack of scopes and one counter, which it changes on its way: a scope is pushed before the body of a
definition that is an entity and popped after it, and the counter of methods without a receiver goes
up and down again. The walk is a machine that takes one small step after another (`Walker.step`), so
the stack can be seen at every moment.

## The machine

A moment of the walk has a list of tasks, the stack, the counter and a state (`Moment`). A task is
to visit a piece of the file or to change the stack or the counter. A `Walker` is what a pass puts
into the machine: its state, what it does at a place, and what it does before and after a module.
Which definitions are entered is looked up in the namespace as it is at that moment; since passes
keep outlines, the answer does not change on the way.

## Visits

Visiting a node leaves the stack and the counter as they were, whatever is inside of it; this is
shown together with the visits that are made, for pieces of a file that are put together from
smaller ones (`Walker.Visits`). So a walk through a file makes the visits that the pass is defined
by (`Walker.Visits.file`), and each of the five passes is such a walk (`FilePass.pass_eq`).

## The stack at every moment

What happens on the stack in between is an invariant of the steps (`Walker.own_step`), for which it
does not matter how pushes and pops are paired.
-/

namespace CodeAtlas

/-! ### The shape of stacks -/

/-- A stack has the component of the file at its bottom, each further scope is in the one below it,
and the scopes are those of a module, of a function or a class in it, or of a method of a class. -/
structure ScopeStack.Disciplined (ns : Namespace) (m : Id) (s : ScopeStack) : Prop where
  component : s.component = m
  nested : s.toList.IsChain fun inner outer ↦ ns.parent? inner = some outer
  kinds : s.inner.map ns.kind? ∈
    [[], [some .function], [some .cls], [some .function, some .cls]]
  depth : s.depth ≤ 3

namespace ScopeStack

variable {ns ns' : Namespace} {m : Id} {s : ScopeStack}

/-- The stacks of a file are nested by name and of one of four shapes. -/
theorem Own.disciplined (h : s.Own ns m) : s.Disciplined ns m := by
  refine ⟨h.component_eq, ?_, ?_, ?_⟩
  · cases h with
    | module => simp [toList]
    | cls h | function h => simpa [toList] using h.parent
    | method hcls h => simpa [toList] using ⟨h.parent, hcls.parent⟩
  · cases h with
    | module => simp
    | cls h => simp [h.kind?_of_classes]
    | function h => simp [h.kind?_of_functions (.inl rfl)]
    | method hcls h => simp [hcls.kind?_of_classes, h.kind?_of_functions (.inr rfl)]
  · cases h with
    | module | cls | function | method => simp [depth]

/-- Whether a stack is one of a file is seen in outlines. -/
theorem Own.sameOutline (h : s.Own ns m) (hns : ns.SameOutline ns') : s.Own ns' m := by
  cases h with
  | module => exact .module
  | cls h => exact .cls (hns.houses h)
  | function h => exact .function (hns.houses h)
  | method hcls h => exact .method (hns.houses hcls) (hns.houses h)

/-- The stack without its innermost scope; the component stays. -/
def outer (s : ScopeStack) : ScopeStack :=
  (s.pop.map Prod.snd).getD s

@[simp]
theorem outer_push (s : ScopeStack) (id : Id) : (s.push id).outer = s :=
  rfl

/-- Leaving a scope stays in the file. -/
theorem Own.outer (h : s.Own ns m) : s.outer.Own ns m := by
  cases h with
  | module | cls | function => exact .module
  | method hcls => exact .cls hcls

end ScopeStack

/-! ### Walks -/

/-- What is left to do in a walk. -/
inductive Task where
  | stmt (s : Stmt)
  | site (x : Site)
  | body (name : Ident) (block : List Stmt)
  | leave
  | unbind
  | rebind

namespace Task

/-- Whether a task is to visit a piece of the file, and not just to change the stack or the
counter. -/
def isNode : Task → Bool
  | stmt _ | site _ | body _ _ => true
  | leave | unbind | rebind => false

/-- The tasks of visiting expressions. -/
def ofExprs (reach : Reach) (exprs : List Expr) : List Task :=
  (Expr.nodesOfList reach.enters exprs).map fun e ↦ site (.expr e)

/-- The tasks that a statement consists of. The counter is changed around what belongs to a method
without a receiver. -/
def ofStmt (reach : Reach) : Stmt → List Task
  | .simple exprs => ofExprs reach exprs
  | .importModules clauses => [site (.importModules clauses)]
  | .importFrom source => [site (.importFrom source)]
  | .compound head block => ofExprs reach head ++ block.map stmt
  | .classDef head block =>
    ofExprs reach head.decorators ++ site (.classDef head) ::
      if reach.definitions then ofExprs reach head.parts ++ [body head.name block] else []
  | .funcDef head block =>
    ofExprs reach head.decorators ++ site (.funcDef head) ::
      if reach.definitions then
        if head.isUnbound then
          unbind :: (ofExprs reach head.parts ++ [body head.name block]) ++ [rebind]
        else ofExprs reach head.parts ++ [body head.name block]
      else []

end Task

/-- What a pass does in one file: what it keeps, how far it reaches, and what it does when it enters
the module, at a place of interest, and when it leaves the module. -/
structure Walker where
  State : Type
  ns : State → Namespace
  reach : Reach
  enterModule : Progress → State
  hook : State → Visit → State
  leaveModule : State → Progress
  ns_enterModule : ∀ p, ns (enterModule p) = p.ns
  keeps : ∀ s v, (ns s).SameOutline (ns (hook s v))

/-- A moment of a walk. -/
structure Moment (State : Type) where
  tasks : List Task
  scopes : ScopeStack
  unbound : Nat
  state : State

namespace Walker

variable (w : Walker)

/-- One step: the first task is done. The body of a definition is entered if the definition is an
entity of the namespace as it is now. -/
def step : Moment w.State → Option (Moment w.State)
  | ⟨[], _, _, _⟩ => none
  | ⟨.stmt x :: rest, scopes, unbound, s⟩ =>
    some ⟨Task.ofStmt w.reach x ++ rest, scopes, unbound, s⟩
  | ⟨.site x :: rest, scopes, unbound, s⟩ =>
    some ⟨rest, scopes, unbound, w.hook s ⟨scopes, unbound, x⟩⟩
  | ⟨.body name block :: rest, scopes, unbound, s⟩ =>
    match scopes.childScope (w.ns s) name.text with
    | some id => some ⟨block.map .stmt ++ .leave :: rest, scopes.push id, unbound, s⟩
    | none => some ⟨block.map .stmt ++ rest, scopes, unbound, s⟩
  | ⟨.leave :: rest, scopes, unbound, s⟩ => some ⟨rest, scopes.outer, unbound, s⟩
  | ⟨.unbind :: rest, scopes, unbound, s⟩ => some ⟨rest, scopes, unbound + 1, s⟩
  | ⟨.rebind :: rest, scopes, unbound, s⟩ => some ⟨rest, scopes, unbound - 1, s⟩

/-- Steps one after another. -/
abbrev Runs : Moment w.State → Moment w.State → Prop :=
  Relation.ReflTransGen fun c c' ↦ w.step c = some c'

/-- A step that is taken while there is something to do before the given tasks. -/
def StepAbove (rest : List Task) (c c' : Moment w.State) : Prop :=
  (∃ task more, c.tasks = task :: (more ++ rest)) ∧ w.step c = some c'

/-- Steps one after another, up to the first moment at which only the given tasks are left. -/
abbrev RunsAbove (rest : List Task) : Moment w.State → Moment w.State → Prop :=
  Relation.ReflTransGen (w.StepAbove rest)

/-- The start of a walk through the file of a component. -/
def start (m : Id) (file : List Stmt) (p : Progress) : Moment w.State :=
  ⟨file.map .stmt, { component := m }, 0, w.enterModule p⟩

variable {w} {base : Namespace} {scopes : ScopeStack} {unbound : Nat} {tasks rest : List Task}
  {visits : List Visit} {c c' : Moment w.State}

theorem RunsAbove.runs (h : w.RunsAbove rest c c') : w.Runs c c' :=
  Relation.ReflTransGen.mono (fun _ _ hstep ↦ hstep.2) _ _ h

/-- What is done before some tasks are left is done before fewer are left. -/
theorem RunsAbove.of_append {more : List Task} (h : w.RunsAbove (more ++ rest) c c') :
    w.RunsAbove rest c c' := by
  refine Relation.ReflTransGen.mono ?_ _ _ h
  rintro _ _ ⟨⟨task, before, htasks⟩, hstep⟩
  exact ⟨⟨task, before ++ more, by rw [htasks, List.append_assoc]⟩, hstep⟩

/-! ### Visits -/

variable (w base) in
/-- The tasks make the visits, wherever the namespace is as outlined, and then leave the stack and
the counter as they were. -/
def Visits (scopes : ScopeStack) (unbound : Nat) (tasks : List Task) (visits : List Visit) : Prop :=
  ∀ rest s, base.SameOutline (w.ns s) →
    w.RunsAbove rest ⟨tasks ++ rest, scopes, unbound, s⟩
      ⟨rest, scopes, unbound, visits.foldl w.hook s⟩

theorem sameOutline_enterModule (w : Walker) (p : Progress) :
    p.ns.SameOutline (w.ns (w.enterModule p)) := by
  rw [w.ns_enterModule]
  exact (Namespace.SameScopes.refl p.ns).toSameOutline

theorem sameOutline_foldl {s : w.State} (h : base.SameOutline (w.ns s)) (visits : List Visit) :
    base.SameOutline (w.ns (visits.foldl w.hook s)) := by
  induction visits generalizing s with
  | nil => exact h
  | cons v rest ih => exact ih (h.trans (w.keeps s v))

namespace Visits

theorem nil : w.Visits base scopes unbound [] [] :=
  fun _ _ _ ↦ .refl

/-- Two pieces of a file are visited one after the other. -/
theorem append {tasks' : List Task} {visits' : List Visit}
    (h : w.Visits base scopes unbound tasks visits)
    (h' : w.Visits base scopes unbound tasks' visits') :
    w.Visits base scopes unbound (tasks ++ tasks') (visits ++ visits') := by
  intro rest s hs
  rw [List.append_assoc, List.foldl_append]
  exact (h (tasks' ++ rest) s hs).of_append.trans (h' rest _ (sameOutline_foldl hs visits))

theorem site (x : Site) : w.Visits base scopes unbound [.site x] [⟨scopes, unbound, x⟩] :=
  fun _ _ _ ↦ .single ⟨⟨_, [], rfl⟩, rfl⟩

/-- Expressions are visited in the scopes around them. -/
theorem exprs (exprs : List Expr) : w.Visits base scopes unbound (Task.ofExprs w.reach exprs)
    (Visit.ofExprs w.reach scopes unbound exprs) := by
  unfold Task.ofExprs Visit.ofExprs
  induction Expr.nodesOfList w.reach.enters exprs with
  | nil => exact nil
  | cons e rest ih => exact (site (.expr e)).append ih

theorem stmt {x : Stmt} (h : w.Visits base scopes unbound (Task.ofStmt w.reach x) visits) :
    w.Visits base scopes unbound [.stmt x] visits :=
  fun rest s hs ↦ .head ⟨⟨_, [], rfl⟩, rfl⟩ (h rest s hs)

/-- The body of a definition is visited inside of it; the scope that is pushed for it is popped. -/
theorem body {name : Ident} {block : List Stmt}
    (h : w.Visits base (Visit.enter base scopes name) unbound (block.map .stmt) visits) :
    w.Visits base scopes unbound [.body name block] visits := by
  intro rest s hs
  have hchild : scopes.childScope (w.ns s) name.text = scopes.childScope base name.text :=
    congrFun (hs.childScope_eq scopes) name.text
  unfold Visit.enter at h
  cases hid : scopes.childScope base name.text with
  | none =>
    rw [hid] at h hchild
    refine .head ⟨⟨_, [], rfl⟩, ?_⟩ (h rest s hs)
    simp only [List.cons_append, List.nil_append, step, hchild]
  | some id =>
    rw [hid] at h hchild
    have hinside := RunsAbove.of_append (h ([.leave] ++ rest) s hs)
    refine .head ⟨⟨_, [], rfl⟩, ?_⟩ (hinside.tail ⟨⟨_, [], rfl⟩, ?_⟩)
    · simp only [List.cons_append, List.nil_append, step, hchild]
    · simp only [List.cons_append, List.nil_append, step, ScopeStack.outer_push]

/-- What is inside a method without a receiver is visited with the counter one higher, which is then
taken back. -/
theorem unbinding (h : w.Visits base scopes (unbound + 1) tasks visits) :
    w.Visits base scopes unbound (.unbind :: tasks ++ [.rebind]) visits := by
  intro rest s hs
  rw [List.append_assoc]
  exact .head ⟨⟨.unbind, tasks ++ [.rebind], by simp⟩, rfl⟩
    ((RunsAbove.of_append (h ([.rebind] ++ rest) s hs)).tail ⟨⟨_, [], rfl⟩, rfl⟩)

/-- The head of a definition is visited outside of it, and its body inside. -/
theorem inside (parts : List Expr) (name : Ident) {block : List Stmt}
    (h : w.Visits base (Visit.enter base scopes name) unbound (block.map .stmt) visits) :
    w.Visits base scopes unbound (Task.ofExprs w.reach parts ++ [.body name block])
      (Visit.ofExprs w.reach scopes unbound parts ++ visits) :=
  (exprs parts).append (body h)

/-- A pass that does not enter definitions still visits them and their decorators. -/
theorem definition (decorators : List Expr) (x : Site)
    (h : w.Visits base scopes unbound tasks visits) :
    w.Visits base scopes unbound
      (Task.ofExprs w.reach decorators ++ .site x :: if w.reach.definitions then tasks else [])
      (Visit.ofExprs w.reach scopes unbound decorators ++
        ⟨scopes, unbound, x⟩ :: if w.reach.definitions then visits else []) := by
  have hinside : w.Visits base scopes unbound (if w.reach.definitions then tasks else [])
      (if w.reach.definitions then visits else []) := by
    split
    · exact h
    · exact nil
  exact (exprs decorators).append ((site x).append hinside)

/-- **A block is visited as planned.** -/
theorem block (block : List Stmt) : w.Visits base scopes unbound (block.map .stmt)
    (Visit.ofStmts base w.reach scopes unbound block) := by
  induction block using Stmt.block_induction generalizing scopes unbound with
  | nil => exact nil
  | simple es rest ih => exact (stmt (exprs es)).append ih
  | importModules clauses rest ih | importFrom source rest ih => exact (stmt (site _)).append ih
  | compound head block rest ihBlock ihRest =>
    exact (stmt ((exprs head).append ihBlock)).append ihRest
  | classDef head block rest ihBlock ihRest =>
    have hblock := @ihBlock (Visit.enter base scopes head.name) unbound
    have hinside := inside head.parts head.name hblock
    exact (stmt (definition head.decorators (.classDef head) hinside)).append ihRest
  | funcDef head block rest ihBlock ihRest =>
    -- the counter is up at the parameters, but not at the decorators
    have hunbound : w.Visits base scopes unbound
        (if head.isUnbound then
          .unbind :: (Task.ofExprs w.reach head.parts ++ [.body head.name block]) ++ [.rebind]
        else Task.ofExprs w.reach head.parts ++ [.body head.name block])
        (let unbound := if head.isUnbound then unbound + 1 else unbound
        Visit.ofExprs w.reach scopes unbound head.parts ++
          Visit.ofStmts base w.reach (Visit.enter base scopes head.name) unbound block) := by
      split
      · exact unbinding (inside head.parts head.name ihBlock)
      · exact inside head.parts head.name ihBlock
    exact (stmt (definition head.decorators (.funcDef head) hunbound)).append ihRest

/-- A walk through a file ends as it began, with all visits made, in the namespace as it was at the
start. -/
theorem file (w : Walker) (m : Id) (file : List Stmt) (p : Progress) :
    w.Runs (w.start m file p) ⟨[], { component := m }, 0,
      (Visit.ofFile p.ns w.reach m file).foldl w.hook (w.enterModule p)⟩ := by
  have hblock : w.Visits p.ns { component := m } 0 (file.map .stmt) _ := block file
  have hruns := (hblock [] (w.enterModule p) (w.sameOutline_enterModule p)).runs
  rwa [List.append_nil] at hruns

/-- Each node leaves the stack and the counter as they were. -/
theorem node {task : Task} (h : task.isNode = true) (rest : List Task) (scopes : ScopeStack)
    (unbound : Nat) (s : w.State) :
    ∃ s', w.RunsAbove rest ⟨task :: rest, scopes, unbound, s⟩ ⟨rest, scopes, unbound, s'⟩ := by
  have hvisits : ∃ visits, w.Visits (w.ns s) scopes unbound [task] visits := by
    cases task with
    | stmt x => exact ⟨_, block [x]⟩
    | site x => exact ⟨_, site x⟩
    | body name statements => exact ⟨_, body (block statements)⟩
    | leave | unbind | rebind => cases h
  obtain ⟨visits, hvisits⟩ := hvisits
  exact ⟨_, hvisits rest s (Namespace.SameScopes.refl _).toSameOutline⟩

end Visits

/-! ### The stack at every moment -/

variable {m : Id}

/-- One step stays in the file. Nothing is assumed about the tasks: a scope that is popped leaves
one of the other shapes, even if it was not pushed in this walk. -/
theorem own_step (hbase : base.Housed) (hm : base.kind? m = some .component)
    (hstep : w.step c = some c') (houtline : base.SameOutline (w.ns c.state))
    (h : c.scopes.Own base m) :
    base.SameOutline (w.ns c'.state) ∧ c'.scopes.Own base m := by
  obtain ⟨tasks, scopes, unbound, s⟩ := c
  cases tasks with
  | nil => cases hstep
  | cons task rest =>
    cases task with
    | stmt | unbind | rebind =>
      cases hstep
      exact ⟨houtline, h⟩
    | site x =>
      cases hstep
      exact ⟨houtline.trans (w.keeps s _), h⟩
    | leave =>
      cases hstep
      exact ⟨houtline, h.outer⟩
    | body name block =>
      have henter := h.enter hbase hm name
      simp only [step, houtline.childScope_eq] at hstep
      unfold Visit.enter at henter
      split at hstep
      · next hid =>
        cases hstep
        rw [hid] at henter
        exact ⟨houtline, henter⟩
      · cases hstep
        exact ⟨houtline, h⟩

/-- At every moment of a walk the stack is one of the file. -/
theorem own_of_runs (hbase : base.Housed) (hm : base.kind? m = some .component)
    (hruns : w.Runs c c') (houtline : base.SameOutline (w.ns c.state))
    (h : c.scopes.Own base m) :
    base.SameOutline (w.ns c'.state) ∧ c'.scopes.Own base m := by
  induction hruns with
  | refl => exact ⟨houtline, h⟩
  | tail _ hstep ih => exact own_step hbase hm hstep ih.1 ih.2

/-! ### The walks of the passes -/

/-- A pass that does nothing around a module. -/
def ofStep (reach : Reach) (hook : Progress → Visit → Progress)
    (keeps : ∀ (p : Progress) v, p.ns.SameOutline (hook p v).ns) : Walker where
  State := Progress
  ns := Progress.ns
  reach
  enterModule := id
  hook
  leaveModule := id
  ns_enterModule _ := rfl
  keeps

/-- Export lists are collected on the way and written at the end. -/
def exporting (m : Id) : Walker where
  State := Exports.State
  ns s := s.ns
  reach := Exports.reach
  enterModule p := { p with }
  hook := Exports.step m
  leaveModule s := match s.pending with
    | none => s.toProgress
    | some list =>
      { s.toProgress with ns := s.ns.modify m (·.mapComponent fun c ↦
          { c with exports := some list }) }
  ns_enterModule _ := rfl
  keeps s v := by
    rcases Exports.ns_step_cases s v with hsame | ⟨f, hf, hmodify⟩
    · rw [hsame]
      exact (Namespace.SameScopes.refl s.ns).toSameOutline
    · rw [hmodify]
      exact ((Namespace.SameScopes.refl s.ns).modify hf.keeps).toSameOutline

end Walker

/-- The passes over a file. -/
inductive FilePass where
  | repeated (r : Repeated)
  | relating (r : Relating)

namespace FilePass

/-- What the pass does to the progress so far. -/
def pass : FilePass → Pass
  | repeated r => r.pass
  | relating r => r.pass

/-- The pass as a walk through the file of a component. -/
def walker (m : Id) : FilePass → Walker
  | repeated .exports => .exporting m
  | repeated .imports =>
    .ofStep {} Imports.step fun p v ↦ .of_frame (Imports.grows_step p v).frame
  | relating .attributes =>
    .ofStep Attributes.reach Attributes.step fun p v ↦
      (Attributes.sameScopes_step p v).toSameOutline
  | relating .inheritance =>
    .ofStep { definitions := false } Inheritance.step fun p v ↦
      (Inheritance.sameScopes_step p v).toSameOutline
  | relating .calls =>
    .ofStep {} Calls.step fun p v ↦ (Calls.sameScopes_step p v).toSameOutline

/-- A pass does what its walk does at the places it visits. -/
theorem pass_eq (k : FilePass) (m : Id) (file : List Stmt) (p : Progress) :
    k.pass m file p = (k.walker m).leaveModule ((Visit.ofFile p.ns (k.walker m).reach m file).foldl
      (k.walker m).hook ((k.walker m).enterModule p)) := by
  cases k with
  | repeated r => cases r <;> rfl
  | relating r => cases r <;> rfl

end FilePass

/-- **The scope stack is kept in order.** In the file of a component, whatever its statements are,
each place is visited in the scopes of a module, of a function or a class in it, or of a method of a
class. So is the stack at every moment of the walk that a pass is, the walk ends with the component
alone and does what the pass does, and each node leaves the stack and the counter of methods without
a receiver as they were. -/
theorem scope_stack_disciplined {project : Project} {built ns : Namespace} {m : Id}
    (h : project.build = .ok built) (hlater : built.Later ns) (hm : ns.kind? m = some .component)
    (k : FilePass) (file : List Stmt) (count : Nat) :
    (∀ v ∈ Visit.ofFile ns (k.walker m).reach m file, v.scopes.Disciplined ns m) ∧
    (∀ c, (k.walker m).Runs ((k.walker m).start m file ⟨ns, count⟩) c →
      c.scopes.Disciplined ((k.walker m).ns c.state) m) ∧
    (∃ s, (k.walker m).Runs ((k.walker m).start m file ⟨ns, count⟩)
        ⟨[], { component := m }, 0, s⟩ ∧
      (k.walker m).leaveModule s = k.pass m file ⟨ns, count⟩) ∧
    ∀ (task : Task) (rest : List Task) (scopes : ScopeStack) (unbound : Nat)
      (s : (k.walker m).State), task.isNode = true →
        ∃ s', (k.walker m).RunsAbove rest ⟨task :: rest, scopes, unbound, s⟩
          ⟨rest, scopes, unbound, s'⟩ := by
  have hhoused : ns.Housed := hlater.sameOutline.housed (Namespace.housed_build h)
  refine ⟨fun v hv ↦ (Visit.own_of_mem_ofFile hhoused hm hv).disciplined, fun c hc ↦ ?_,
    ⟨_, Walker.Visits.file (k.walker m) m file ⟨ns, count⟩, (k.pass_eq m file ⟨ns, count⟩).symm⟩,
    fun task rest scopes unbound s htask ↦ Walker.Visits.node htask rest scopes unbound s⟩
  obtain ⟨houtline, hown⟩ := Walker.own_of_runs hhoused hm hc
    ((k.walker m).sameOutline_enterModule ⟨ns, count⟩) .module
  exact (hown.sameOutline houtline).disciplined

/-- A class with a method that has no receiver and defines a function of its own name, and a
function. -/
def nestingProject : Project where
  name := "p"
  location := "p"
  entries := [.file markerName ("class W:\n @classmethod\n def o(t):\n  def o():k.x=1\n  t.y=1\n" ++
    " k=1\ndef f():z=1\n").toUTF8]
  filter := []

/-- The nested function is visited in the scopes of the method, with the counter raised. -/
theorem walk_of_nestingProject :
    ∃ built file, nestingProject.build = .ok built ∧ nestingProject.source [markerName] = .ok file ∧
      built.kind? 0 = some .component ∧
      (Visit.ofFile built Attributes.reach 0 file).map (fun v ↦ (v.scopes.inner, v.unbound)) =
        [([], 0), ([1], 0), ([1], 0), ([2, 1], 1), ([2, 1], 1), ([2, 1], 1), ([1], 0), ([], 0),
          ([3], 0)] ∧
      (∀ v ∈ Visit.ofFile built Attributes.reach 0 file, v.scopes.Disciplined built 0) ∧
      ∃ s, ((FilePass.relating .attributes).walker 0).Runs
          (((FilePass.relating .attributes).walker 0).start 0 file ⟨built, 0⟩)
          ⟨[], { component := 0 }, 0, s⟩ ∧
        s = Attributes.pass 0 file ⟨built, 0⟩ := by
  have hbuild : (nestingProject.build.toOption.map fun ns ↦
      (ns.kind? 0, (nestingProject.source [markerName]).toOption.map fun file ↦
        (Visit.ofFile ns Attributes.reach 0 file).map fun v ↦ (v.scopes.inner, v.unbound))) =
      some (some .component, some [([], 0), ([1], 0), ([1], 0), ([2, 1], 1), ([2, 1], 1),
        ([2, 1], 1), ([1], 0), ([], 0), ([3], 0)]) := by
    decide +kernel
  obtain ⟨built, hbuilt, hread⟩ := exists_ok_of_toOption hbuild
  obtain ⟨hkind, hvisits⟩ := Prod.mk.inj hread
  obtain ⟨file, hfile, hvisits⟩ := exists_ok_of_toOption hvisits
  obtain ⟨hplaces, -, ⟨s, hruns, hs⟩, -⟩ :=
    scope_stack_disciplined hbuilt .refl hkind (.relating .attributes) file 0
  exact ⟨built, file, hbuilt, hfile, hkind, hvisits, hplaces, s, hruns, hs⟩

end CodeAtlas
