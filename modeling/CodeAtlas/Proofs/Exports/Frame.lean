import CodeAtlas.Proofs.Outline
import CodeAtlas.Proofs.SourceFiles

/-!
# What export resolution leaves alone

Resolving export lists changes the export list and the list aliases of components and nothing else.
In particular entities keep their kinds, and no name gets imported.

The pass is a fold over the visits to a file, with a state that has the namespace, the list as it is
so far and a count. Only two things write to the namespace: an import makes a list known to the
component under some names, and at the end of the file the list is entered. Both are changes to the
lists of one component (`ListChange`), so what such changes keep, the pass keeps (`pass_induction`).
The scopes are the first use (`sameScopes_pass`), and what the pass over a file writes is read off
from the same principle.
-/

namespace CodeAtlas

namespace Exports

variable {ns : Namespace} {component : Id} {s : State}

/-- An assignment of a sum leaves the namespace as it is. -/
@[simp]
theorem ns_assignSum (sum : List Operand) : (assignSum s component sum).ns = s.ns := by
  unfold assignSum
  split
  · rfl
  · dsimp only
    split <;> rfl

/-- An assignment leaves the namespace as it is. -/
@[simp]
theorem ns_assign (right : Expr) : (assign s component right).ns = s.ns := by
  unfold assign
  split
  · rfl
  · split
    · split
      · exact ns_assignSum _
      · rfl
    · rfl

@[simp]
theorem ns_extend (names : List String) : (extend s names).ns = s.ns := by
  unfold extend
  split <;> rfl

/-- A change to the export list of a component and to the lists it knows. -/
def ListChange (f : Component → Component) : Prop :=
  ∀ c, ∃ exports exportAliases, f c = { c with exports, exportAliases }

/-- Each statement leaves the namespace as it is, or makes a list known to the component. -/
theorem ns_step_cases (s : State) (v : Visit) :
    (step component s v).ns = s.ns ∨ ∃ f, ListChange f ∧
      (step component s v).ns = s.ns.modify component (·.mapComponent f) := by
  unfold step
  split
  · split
    · exact .inl (ns_assign _)
    · exact .inl rfl
  · split
    · split
      · exact .inl (ns_extend _)
      · exact .inl rfl
    · exact .inl rfl
  · unfold importList
    dsimp only
    split
    · exact .inl rfl
    · split
      · exact .inl rfl
      · split
        · exact .inl rfl
        · exact .inr ⟨_, fun c ↦ ⟨_, _, rfl⟩, rfl⟩
  · exact .inl rfl

/-- What changes to the lists of the component keep, the pass over its file keeps. -/
theorem pass_induction (holds : Namespace → Prop)
    (hmodify : ∀ ns f, ListChange f → holds ns → holds (ns.modify component (·.mapComponent f)))
    {p : Progress} (file : List Stmt) (h : holds p.ns) : holds (pass component file p).ns := by
  have hvisits : ∀ (visits : List Visit) (s : State), holds s.ns →
      holds (visits.foldl (step component) s).ns := by
    intro visits
    induction visits with
    | nil => exact fun _ hs ↦ hs
    | cons v rest ih =>
      intro s hs
      refine ih _ ?_
      rcases ns_step_cases s v with hsame | ⟨f, hf, hstep⟩
      · rw [hsame]
        exact hs
      · rw [hstep]
        exact hmodify s.ns f hf hs
  have hlast := hvisits (Visit.ofFile p.ns reach component file) { p with } h
  unfold pass
  dsimp only
  split
  · exact hlast
  · exact hmodify _ _ (fun c ↦ ⟨_, _, rfl⟩) hlast

/-- Export lists are not seen in outlines or scopes. -/
theorem ListChange.keeps {f : Component → Component} (h : ListChange f) :
    Body.Keeps (·.mapComponent f) := by
  refine Body.keeps_mapComponent (fun c ↦ ?_) (fun c ↦ ?_) fun c ↦ ?_ <;>
    obtain ⟨_, _, hc⟩ := h c
  · rw [hc]
  · rw [hc]
  · rw [hc]
    rfl

/-- The pass over a file keeps scopes. -/
theorem sameScopes_pass (component : Id) (file : List Stmt) (p : Progress) :
    p.ns.SameScopes (pass component file p).ns :=
  pass_induction p.ns.SameScopes (fun _ _ hf hns ↦ hns.modify hf.keeps) file (.refl p.ns)

/-- Resolving export lists keeps scopes. -/
theorem sameScopes_resolve {project : Project} {ns' : Namespace} {settled : Settled}
    (h : project.resolve pass ns = .ok (ns', settled)) : ns.SameScopes ns' :=
  Project.resolve_induction ns.SameScopes
    (fun component file p hp ↦ hp.trans (sameScopes_pass component file p)) (.refl ns) h

end Exports

end CodeAtlas
