import Mathlib.Data.Option.Basic
import CodeAtlas.Pass.Attributes
import CodeAtlas.Proofs.Nesting
import CodeAtlas.Proofs.Store

/-!
# Where attributes come from

The pass over a file gives a class an attribute where a member of a receiver is assigned, and who
the receiver is depends on the scopes of the visit.

## Recording

Recording an attribute gives one class this attribute and no other (`hasAttribute_record`). It does
not change who receivers are, since these are told from the kinds, names and parameters of entities
(`signature`, `receiver_congr`). So what a pass does at all visits can be told from the namespace
that it starts with: an attribute that a class has after some visits it had before, or one of the
visits assigns it (`hasAttribute_run`).

## Receivers

The receiver belongs to the innermost class around a visit, if the innermost scope is a function
(`of_receiver`). Where the visits are the planned ones, these scopes say what the text says: the
assignment stands in a function directly in the class (`inMethod_of_receiver`).
-/

namespace CodeAtlas

/-- A class has an attribute of a name. -/
def Namespace.HasAttribute (ns : Namespace) (id : Id) (name : String) : Prop :=
  ∃ c, ns.class? id = some c ∧ ∃ a ∈ c.attributes, a.name = name

instance (ns : Namespace) (id : Id) (name : String) : Decidable (ns.HasAttribute id name) :=
  inferInstanceAs (Decidable (∃ c ∈ ns.class? id, ∃ a ∈ c.attributes, a.name = name))

@[simp]
theorem Class.scope_addAttribute (c : Class) (v : Variable) :
    (c.addAttribute v).scope = c.scope := by
  unfold addAttribute
  split <;> rfl

theorem Class.methods_addAttribute (c : Class) (v : Variable) :
    (c.addAttribute v).methods = c.methods := by
  unfold addAttribute
  split <;> rfl

namespace Attributes

variable {ns : Namespace} {p : Progress} {owner id : Id} {label : Label} {name : String} {v : Visit}

/-! ### Recording -/

/-- Where a visit assigns a member of the receiver. -/
def Assigns (ns : Namespace) (v : Visit) (id : Id) (name : String) : Prop :=
  ∃ e object, v.site = .expr e ∧ receiver ns v = some (id, object) ∧
    ∃ target ∈ (chain e).1, attributeOf object target = some name

/-- An attribute is recorded in one class. -/
theorem get?_record (id : Id) :
    (record owner label p name).ns.get? id =
      if id = owner then (p.ns.get? owner).map fun e ↦
        { e with body := e.body.mapClass (·.addAttribute ⟨name, label.text⟩) }
      else p.ns.get? id := by
  unfold record
  cases label with
  | cls | primitive | unknown => exact Namespace.get?_modify

theorem lookup_record (q : QualName) : (record owner label p name).ns.lookup q = p.ns.lookup q := by
  unfold record
  cases label with
  | cls | primitive | unknown => exact Namespace.lookup_modify

/-- Recording an attribute gives the class this attribute and no other. -/
theorem hasAttribute_record {member : String}
    (h : (record owner label p name).ns.HasAttribute id member) :
    p.ns.HasAttribute id member ∨ id = owner ∧ member = name := by
  obtain ⟨c, hc, a, ha, rfl⟩ := h
  unfold Namespace.class? at hc
  rw [get?_record] at hc
  split at hc
  · next hid =>
    subst hid
    cases he : p.ns.get? id with
    | none =>
      rw [he] at hc
      cases hc
    | some e =>
      rw [he] at hc
      obtain ⟨_, _, body⟩ := e
      cases body with
      | package | component | function => cases hc
      | cls old =>
        have hold : p.ns.class? id = some old := by
          rw [Namespace.class?, he]
          rfl
        cases hc
        dsimp only [Class.addAttribute] at ha
        split at ha
        · exact .inl ⟨old, hold, a, ha, rfl⟩
        · rcases List.mem_append.1 ha with ha | ha
          · exact .inl ⟨old, hold, a, ha, rfl⟩
          · cases List.mem_singleton.1 ha
            exact .inr ⟨rfl, rfl⟩
  · exact .inl ⟨c, hc, a, ha, rfl⟩

/-! ### Receivers -/

/-- What is read off an entity to tell whether it is a method: its kind, its name and its
parameters. -/
def signature (e : Entity) : EntityKind × QualName × Option Function :=
  (e.kind, e.qualName, e.body.function?)

/-- Recording an attribute does not change what receivers are told from. -/
theorem signature_record (id : Id) :
    ((record owner label p name).ns.get? id).map signature = (p.ns.get? id).map signature := by
  rw [get?_record]
  split
  · next hid =>
    subst hid
    rw [Option.map_map]
    refine congrArg (Option.map · (p.ns.get? id)) (funext fun e ↦ ?_)
    obtain ⟨_, _, body⟩ := e
    cases body <;> rfl
  · rfl

/-- Who the receiver is depends on signatures only. -/
theorem receiver_congr {ns ns' : Namespace}
    (hsignature : ∀ id, (ns'.get? id).map signature = (ns.get? id).map signature)
    (hlookup : ∀ q, ns'.lookup q = ns.lookup q) (v : Visit) : receiver ns' v = receiver ns v := by
  have hkind : ns'.kind? = ns.kind? := funext fun id ↦ by
    have h := congrArg (Option.map Prod.fst) (hsignature id)
    rwa [Option.map_map, Option.map_map] at h
  have hnames : ns'.lookup = ns.lookup := funext hlookup
  have hparent : ns'.parent? = ns.parent? := funext fun id ↦ by
    have h := congrArg (fun s ↦ s.bind fun t ↦ t.2.1.parent.bind ns.lookup) (hsignature id)
    rw [Option.bind_map, Option.bind_map] at h
    show (ns'.get? id).bind (fun e ↦ e.qualName.parent.bind ns'.lookup) = _
    rw [hnames]
    exact h
  have hfunction : ∀ id, ((ns'.get? id).bind fun e ↦ e.body.function?) =
      (ns.get? id).bind fun e ↦ e.body.function? := fun id ↦ by
    have h := congrArg (fun s ↦ s.bind fun t ↦ t.2.2) (hsignature id)
    rwa [Option.bind_map, Option.bind_map] at h
  unfold receiver ScopeStack.enclosingClass
  rw [hkind, hparent]
  simp only [Option.bind_eq_bind, ← Option.bind_assoc, hfunction]

/-! ### One visit, and all visits -/

/-- What one visit does: nothing, or record the members of the receiver that are assigned. -/
theorem step_cases (p : Progress) (v : Visit) :
    step p v = p ∨ ∃ e owner object label, v.site = .expr e ∧
      receiver p.ns v = some (owner, object) ∧
      step p v = ((chain e).1.filterMap (attributeOf object)).foldl (record owner label) p := by
  unfold step
  split
  · next e hsite =>
    split
    · next targets value owner object hchain hreceiver =>
      refine .inr ⟨_, owner, object, infer p.ns v.scopes.current value, hsite, hreceiver, ?_⟩
      rw [hchain]
    · exact .inl rfl
  · exact .inl rfl

/-- Recording attributes gives one class these attributes and no others. -/
theorem hasAttribute_foldl_record {names : List String} {member : String}
    (h : (names.foldl (record owner label) p).ns.HasAttribute id member) :
    p.ns.HasAttribute id member ∨ id = owner ∧ member ∈ names := by
  induction names generalizing p with
  | nil => exact .inl h
  | cons name rest ih =>
    rcases ih h with h | ⟨hid, hmember⟩
    · rcases hasAttribute_record h with h | ⟨hid, hmember⟩
      · exact .inl h
      · exact .inr ⟨hid, hmember ▸ List.mem_cons_self⟩
    · exact .inr ⟨hid, List.mem_cons_of_mem _ hmember⟩

theorem receiver_foldl_record (names : List String) (v : Visit) :
    receiver (names.foldl (record owner label) p).ns v = receiver p.ns v := by
  induction names generalizing p with
  | nil => rfl
  | cons name rest ih => exact ih.trans (receiver_congr signature_record lookup_record v)

/-- A visit does not change who receivers are. -/
theorem receiver_step (p : Progress) (v w : Visit) :
    receiver (step p v).ns w = receiver p.ns w := by
  rcases step_cases p v with h | ⟨e, owner, object, label, -, -, h⟩
  · rw [h]
  · rw [h, receiver_foldl_record]

/-- An attribute that a class has after a visit it had before, or the visit assigns it. -/
theorem hasAttribute_step {member : String} (h : (step p v).ns.HasAttribute id member) :
    p.ns.HasAttribute id member ∨ Assigns p.ns v id member := by
  rcases step_cases p v with hstep | ⟨e, owner, object, label, hsite, hreceiver, hstep⟩
  · exact .inl (hstep ▸ h)
  · rw [hstep] at h
    rcases hasAttribute_foldl_record h with h | ⟨rfl, hmember⟩
    · exact .inl h
    · exact .inr ⟨e, object, hsite, hreceiver, List.mem_filterMap.1 hmember⟩

/-- An attribute that a class has after some visits it had before, or one of the visits assigns
it. -/
theorem hasAttribute_run {visits : List Visit} {member : String}
    (h : (visits.foldl step p).ns.HasAttribute id member) :
    p.ns.HasAttribute id member ∨ ∃ v ∈ visits, Assigns p.ns v id member := by
  induction visits generalizing p with
  | nil => exact .inl h
  | cons v rest ih =>
    -- who the receiver is at a later visit was so from the start
    rcases ih h with h | ⟨w, hw, e, object, hsite, hreceiver, htarget⟩
    · exact (hasAttribute_step h).imp_right fun h ↦ ⟨v, List.mem_cons_self, h⟩
    · rw [receiver_step] at hreceiver
      exact .inr ⟨w, List.mem_cons_of_mem _ hw, e, object, hsite, hreceiver, htarget⟩

/-! ### Receivers at planned visits -/

/-- The receiver belongs to the innermost class around, and the innermost scope is a function. -/
theorem of_receiver {object : String} (h : receiver ns v = some (owner, object)) :
    ns.kind? v.scopes.current = some .function ∧ v.scopes.enclosingClass ns = some owner := by
  simp only [receiver, Option.bind_eq_bind, Option.bind_eq_some_iff] at h
  obtain ⟨-, -, owner', howner, e, he, f, hf, -, -, first, -, heq⟩ := h
  cases heq
  refine ⟨?_, howner⟩
  rw [Namespace.kind?, he, Option.map_some, Entity.kind]
  revert hf
  cases e.body with
  | package | component | cls => exact fun hf ↦ by cases hf
  | function f => exact fun _ ↦ rfl

/-- The innermost class around is the innermost scope if that is one, or else that of the scopes
around. -/
theorem enclosingClass_push {s : ScopeStack} {k : EntityKind} (hkind : ns.kind? id = some k) :
    (s.push id).enclosingClass ns = if k = .cls then some id else s.enclosingClass ns := by
  unfold ScopeStack.enclosingClass ScopeStack.toList ScopeStack.push
  rw [List.cons_append, List.find?_cons, hkind]
  cases k <;> rfl

theorem enclosingClass_component {component : Id} (hkind : ns.kind? component = some .component) :
    ScopeStack.enclosingClass { component } ns = none := by
  show [component].find? _ = none
  rw [List.find?_singleton, hkind]
  rfl

/-- **Attributes come from methods.** Where visits are planned, the receiver belongs to the class
that the text says: the visit stands in a function directly in this class. -/
theorem inMethod_of_receiver {reach : Reach} {component : Id} {file : List Stmt} {object : String}
    (hkind : ns.kind? component = some .component)
    (hv : v ∈ Visit.plannedFile ns reach component file)
    (h : receiver ns v = some (owner, object)) :
    ∃ method, Visit.InMethod ns reach component file owner method v := by
  obtain ⟨hfunction, hclass⟩ := of_receiver h
  rcases Visit.inMethod_of_mem_plannedFile hv with (hscopes | ⟨id, hscopes⟩) | ⟨owner', method, hin⟩
  · -- the innermost scope would be the component
    rw [hscopes] at hfunction
    cases hkind.symm.trans hfunction
  · -- the scopes would be a function and the component, with no class among them
    have hscopes : v.scopes = ScopeStack.push { component } id := hscopes
    rw [hscopes] at hfunction hclass
    have hid : ns.kind? id = some .function := hfunction
    rw [enclosingClass_push hid, if_neg (by decide), enclosingClass_component hkind] at hclass
    cases hclass
  · have ⟨_, _, _, _, _, _, _, howner, _, hbody⟩ := hin
    have hscopes : v.scopes = (ScopeStack.push { component } owner').push method :=
      Visit.scopes_of_mem_plannedList hbody
    rw [hscopes] at hfunction hclass
    have hmethod : ns.kind? method = some .function := hfunction
    rw [enclosingClass_push hmethod, if_neg (by decide)] at hclass
    rcases ScopeStack.kind?_of_childScope howner with hk | hk
    · rw [enclosingClass_push hk, if_pos rfl] at hclass
      cases hclass
      exact ⟨method, hin⟩
    · rw [enclosingClass_push hk, if_neg (by decide), enclosingClass_component hkind] at hclass
      cases hclass

end Attributes

end CodeAtlas
