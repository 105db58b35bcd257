import CodeAtlas.Proofs.Footprints
import CodeAtlas.Proofs.RelationTypes
import CodeAtlas.Proofs.Schedules

/-!
# The attributes of a class

Attributes are added one by one, by whatever method assigns them, and one that is there already is
not added. In the end the attributes of a class are what all visits to its methods assign, in the
order of the visits, of each name only the first (`Class.attributes_foldl_addAttribute`).

## What a visit assigns

What a visit assigns is told here from where it stands, which is in a method directly in the class,
and not inside a method without a receiver (`Attributes.assigned`). The pass finds the receiver in
another way, by looking for a class around the scope and comparing parents, and the two agree at all
visits to a file (`Attributes.filterMap_found`). They do so because the scopes of a file have one of
four shapes, in only one of which there is a receiver.

## Labels

The label of an attribute is empty, one of the primitive categories, or the short name of a class
(`Attributes.infer_cases`). A bare name of a category is taken for the category as well. In the last
case there is an association of that class with the one that has the attribute, which may have been
recorded for another attribute (`Finding.association_mem`).

## The analysis

Before the passes that find attributes no class has any (`Project.Imported.attributes_eq_nil`), and
condensing keeps attributes, so `attributes_first_assigned` speaks of all attributes of a class.
-/

namespace CodeAtlas

/-! ### One attribute after another -/

/-- **Attributes are first come.** Adding attributes one by one adds the first of each name that is
not there. -/
theorem Class.attributes_foldl_addAttribute (vs : List Variable) (c : Class) :
    (vs.foldl addAttribute c).attributes = c.attributes ++
      (firstsBy Variable.name vs).filter fun v ↦ !c.attributes.any (·.name == v.name) := by
  induction vs generalizing c with
  | nil => exact (List.append_nil _).symm
  | cons v rest ih =>
    rw [List.foldl_cons, ih, firstsBy, List.filter_cons, List.filter_filter]
    unfold addAttribute
    cases hv : c.attributes.any (·.name == v.name) with
    | true =>
      -- later ones of the name are left out because this one was
      rw [if_pos rfl, if_neg (by decide)]
      refine congrArg (c.attributes ++ ·) (List.filter_congr fun w _ ↦ ?_)
      by_cases hname : w.name = v.name
      · rw [hname, hv]
        rfl
      · rw [bne_iff_ne.2 hname, Bool.and_true]
    | false =>
      rw [if_neg (by decide), if_pos (by decide)]
      dsimp only
      rw [List.append_assoc, List.singleton_append]
      refine congrArg (c.attributes ++ v :: ·) (List.filter_congr fun w _ ↦ ?_)
      rw [List.any_append, List.any_cons, List.any_nil, Bool.or_false, Bool.not_or, bne,
        BEq.comm (a := v.name)]

/-! ### What findings add to a class -/

namespace Finding

variable {ns : Namespace} {id : Id}

/-- The attribute of a class that a finding is. -/
def attribute? (cls : Id) : Finding → Option Variable
  | dependency _ => none
  | member owner label name => if owner = cls then some ⟨name, label.text⟩ else none

/-- The association that an attribute gives is recorded, if all associations are of its kind: there
is one under its key, and kinds are no part of keys. -/
theorem association_mem {fs : List Finding} {owner part : Id} {text name : String}
    (hkinds : ∀ r ∈ (fs.foldl add ns).associations.toList, r.kind = .association .aggregation)
    (hf : member owner (.cls part text) name ∈ fs) :
    Relation.association part owner .aggregation ∈ (fs.foldl add ns).associations.toList := by
  have hrecorded := (recorded_foldl_add hf ns).association
    (.association part owner .aggregation) rfl
  obtain ⟨r, hr, hkey⟩ := RelationSet.contains_iff.1 hrecorded
  obtain rfl : r = .association part owner .aggregation := by
    have hkind := hkinds r hr
    obtain ⟨key, kind⟩ := r
    cases hkey
    cases hkind
    rfl
  exact hr

/-- Adding a finding is seen in a class if it is an attribute of that class. -/
theorem class?_add (f : Finding) (ns : Namespace) (id : Id) :
    (f.add ns).class? id = (ns.class? id).map fun c ↦ (f.attribute? id).elim c c.addAttribute := by
  cases f with
  | dependency r => exact Option.map_id'.symm
  | member owner label name =>
    show ((ns.entities.modify owner _)[id]?).bind _ = _
    rw [Std.ExtTreeMap.getElem?_modify]
    simp only [Std.LawfulEqOrd.compare_eq_iff_eq, attribute?]
    show _ = Option.map _ ((ns.entities[id]?).bind _)
    split
    · next howner =>
      subst howner
      rcases ns.entities[owner]? with - | ⟨_, _, body⟩
      · rfl
      · cases body <;> rfl
    · exact Option.map_id'.symm

/-- Adding findings is seen in a class as adding those that are its attributes. -/
theorem class?_foldl_add (fs : List Finding) (ns : Namespace) (id : Id) :
    (fs.foldl add ns).class? id =
      (ns.class? id).map fun c ↦ (fs.filterMap (attribute? id)).foldl Class.addAttribute c := by
  induction fs generalizing ns with
  | nil => exact Option.map_id'.symm
  | cons f rest ih =>
    rw [List.foldl_cons, ih, class?_add, Option.map_map]
    refine congrArg (Option.map · (ns.class? id)) (funext fun c ↦ ?_)
    rw [List.filterMap_cons]
    cases attribute? id f <;> rfl

end Finding

/-! ### What a visit assigns -/

namespace Attributes

variable {ns ns' : Namespace} {m id : Id} {v : Visit} {current : Id} {value : Expr}

/-- The name of the first parameter of a function. -/
def firstParameter? (ns : Namespace) (method : Id) : Option String :=
  ((ns.get? method).bind (·.body.function?)).bind fun f ↦ f.params.head?.map Variable.name

/-- What a chain of assignments in a method assigns: the targets that are members of the first
parameter, from left to right, with the label of the value at the end of the chain. -/
def assignments (ns : Namespace) (method : Id) (e : Expr) : List Variable :=
  match firstParameter? ns method, (chain e).2 with
  | some object, some value =>
    ((chain e).1.filterMap (attributeOf object)).map (⟨·, (infer ns method value).text⟩)
  | _, _ => []

/-- What a visit assigns to instances of a class, if it stands in a method directly in this class
and not inside a method without a receiver. -/
def assigned (ns : Namespace) (cls : Id) (v : Visit) : List Variable :=
  match v.scopes.inner, v.unbound, v.site with
  | [method, owner], 0, .expr e => if owner = cls then assignments ns method e else []
  | _, _, _ => []

/-- Methods have their first parameter as receiver. -/
theorem receiver_of_method {cls method : Id} (hcls : ns.Houses m .classes cls)
    (h : ns.Houses cls .methods method) (unbound : Nat) (site : Site) :
    receiver ns ⟨⟨m, [method, cls]⟩, unbound, site⟩ =
      if unbound = 0 then (firstParameter? ns method).map (cls, ·) else none := by
  have hclass : ScopeStack.enclosingClass ⟨m, [method, cls]⟩ ns = some cls := by
    show (ScopeStack.push ⟨m, [cls]⟩ method).enclosingClass ns = _
    rw [enclosingClass_push (h.kind?_of_functions (.inr rfl)), if_neg (by decide)]
    show (ScopeStack.push { component := m } cls).enclosingClass ns = _
    rw [enclosingClass_push hcls.kind?_of_classes, if_pos rfl]
  unfold receiver firstParameter?
  dsimp only
  rw [hclass]
  show Option.bind (guard (unbound == 0)) _ = _
  split
  · next hzero =>
    subst hzero
    show (ns.get? method).bind _ = _
    cases he : ns.get? method with
    | none => rfl
    | some e =>
      show e.body.function?.bind _ = (e.body.function?.bind _).map _
      cases e.body.function? with
      | none => rfl
      | some f =>
        show Option.bind (guard (ns.parent? method == some cls)) _ = (f.params.head?.map _).map _
        rw [h.parent, beq_self_eq_true]
        show f.params.head?.bind _ = _
        cases f.params.head? <;> rfl
  · next hunbound =>
    rw [beq_eq_false_iff_ne.2 hunbound]
    rfl

/-- In a module, a class or a function of a module there are no receivers. -/
theorem receiver_eq_none (hm : ns.kind? m = some .component) (hown : v.scopes.Own ns m)
    (h : ∀ method cls, v.scopes.inner ≠ [method, cls]) : receiver ns v = none := by
  refine Option.eq_none_iff_forall_ne_some.2 ?_
  rintro ⟨owner, object⟩ hreceiver
  obtain ⟨hkind, hclass⟩ := of_receiver hreceiver
  obtain ⟨scopes, unbound, site⟩ := v
  cases hown with
  | module => cases hm.symm.trans hkind
  | cls hcls => cases hcls.kind?_of_classes.symm.trans hkind
  | @function f hf =>
    have hnone : (ScopeStack.push { component := m } f).enclosingClass ns = none := by
      rw [enclosingClass_push (hf.kind?_of_functions (.inl rfl)), if_neg (by decide),
        enclosingClass_component hm]
    cases hnone.symm.trans hclass
  | method => exact h _ _ rfl

/-- **What the pass finds** at a visit are the attributes that the visit assigns. -/
theorem filterMap_found (hm : ns.kind? m = some .component) (hown : v.scopes.Own ns m) (id : Id) :
    (found ns v).filterMap (Finding.attribute? id) = assigned ns id v := by
  obtain ⟨scopes, unbound, site⟩ := v
  cases site with
  | importModules | importFrom | classDef | funcDef =>
    unfold assigned
    split
    · next hsite => cases hsite
    · rfl
  | expr e =>
    have hnone : ∀ {v : Visit}, v.site = .expr e → receiver ns v = none →
        (found ns v).filterMap (Finding.attribute? id) = [] := by
      rintro ⟨_, _, _⟩ rfl hreceiver
      unfold found
      dsimp only
      rw [hreceiver]
      cases (chain e).2 <;> rfl
    cases hown with
    | module => exact hnone rfl (receiver_eq_none hm .module (by simp))
    | cls h => exact hnone rfl (receiver_eq_none hm (.cls h) (by simp))
    | function h => exact hnone rfl (receiver_eq_none hm (.function h) (by simp))
    | @method method cls hcls h =>
      have hreceiver := receiver_of_method hcls h unbound (.expr e)
      cases unbound with
      | succ n => exact hnone rfl (hreceiver.trans (if_neg n.succ_ne_zero))
      | zero =>
        rw [if_pos rfl] at hreceiver
        show _ = if cls = id then assignments ns method e else []
        unfold found assignments
        dsimp only
        rw [hreceiver]
        cases firstParameter? ns method with
        | none => cases (chain e).2 <;> simp
        | some object =>
          cases (chain e).2 with
          | none => simp
          | some value =>
            show (List.map _ _).filterMap _ = _
            rw [List.filterMap_map]
            by_cases howner : cls = id
            · rw [if_pos howner]
              show _ = List.map _ _
              rw [← List.filterMap_eq_map]
              refine congrArg (List.filterMap · _) (funext fun name ↦ ?_)
              exact if_pos howner
            · rw [if_neg howner]
              refine List.filterMap_eq_nil_iff.2 fun name _ ↦ ?_
              exact if_neg howner

/-! ### Labels -/

/-- The categories of literals and casts are primitive. -/
theorem category_mem_primitives {e : Expr} {category : String} (h : e.category = some category) :
    category ∈ primitives := by
  have hstring : ∀ text, Expr.stringCategory text ∈ primitives := by
    intro text
    unfold Expr.stringCategory
    split <;> decide
  unfold Expr.category at h
  split at h
  case h_1 | h_2 =>
    cases h
    exact hstring _
  case h_4 =>
    split at h
    · cases h
      decide
    · split at h <;> cases h <;> decide
  all_goals
    cases h
    try decide

/-- A value that does not name a class has the label of a category, or none. -/
theorem infer_cases (ns : Namespace) (current : Id) (value : Expr) :
    (∃ part text, infer ns current value = .cls part text) ∨
      (∃ category ∈ primitives, infer ns current value = .primitive category) ∨
      infer ns current value = .unknown := by
  unfold infer
  split
  · split
    · exact .inl ⟨_, _, rfl⟩
    · split
      · next hcontains => exact .inr (.inl ⟨_, List.contains_iff_mem.1 hcontains, rfl⟩)
      · exact .inr (.inr rfl)
  · split
    · next category hcategory =>
      exact .inr (.inl ⟨category, category_mem_primitives hcategory, rfl⟩)
    · exact .inr (.inr rfl)

/-! ### What assignments depend on -/

theorem assigned_withoutFindings (ns : Namespace) : assigned ns.withoutFindings = assigned ns := by
  have hparameter : firstParameter? ns.withoutFindings = firstParameter? ns := by
    funext method
    unfold firstParameter?
    rw [Namespace.get?_withoutFindings]
    rcases ns.get? method with - | ⟨_, _, body⟩
    · rfl
    · cases body <;> rfl
  have hassignments : assignments ns.withoutFindings = assignments ns := by
    funext method e
    rw [assignments, hparameter, infer_withoutFindings, assignments]
  funext cls v
  rw [assigned, hassignments, assigned]

/-- What a visit assigns does not depend on findings. -/
theorem assigned_congr (h : ns'.withoutFindings = ns.withoutFindings) :
    assigned ns' = assigned ns := by
  rw [← assigned_withoutFindings, h, assigned_withoutFindings]

end Attributes

/-- Condensing changes nothing but findings. -/
theorem Namespace.withoutFindings_condense (ns : Namespace) :
    ns.condense.withoutFindings = ns.withoutFindings := by
  have hrelations : ∀ ns : Namespace,
      ns.withoutRelations.withoutFindings = ns.withoutFindings := by
    intro ns
    have hbodies : (ns.mapBodies fun b ↦ b.mapRelations fun _ ↦ ∅).mapBodies Body.withoutFindings =
        ns.mapBodies Body.withoutFindings := by
      rw [mapBodies_mapBodies]
      refine congrArg (mapBodies · ns) (funext fun b ↦ ?_)
      cases b <;> rfl
    exact congrArg (fun ns : Namespace ↦
      { ns with dependencies := ∅, associations := ∅, condensed := ∅ }) hbodies
  rw [← hrelations, withoutRelations_condense, hrelations]

/-- The visits of a project do not depend on findings. -/
theorem Project.visits_congr {project : Project} {ns ns' : Namespace} (reach : Reach)
    (h : ns'.withoutFindings = ns.withoutFindings) :
    project.visits reach ns' = project.visits reach ns := by
  have hvisits : Visit.ofFile ns' = Visit.ofFile ns := by
    rw [← Visit.ofFile_withoutFindings, h, Visit.ofFile_withoutFindings]
  have hsources : ns'.withoutFindings.sources = ns.withoutFindings.sources := by rw [h]
  have hsources : ns'.sources = ns.sources := hsources
  rw [visits, hvisits, hsources, visits]

/-! ### The analysis -/

section Analysis

variable {project : Project} {built ns ns' : Namespace} {a : Analysis} {id : Id} {c : Class}

/-- Attributes are read off what is left where other parts of bodies are erased. -/
theorem Namespace.attributes_congr {erase : Body → Body}
    (herase : ∀ b, (erase b).class?.map Class.attributes = b.class?.map Class.attributes)
    (h : (ns'.mapBodies erase).get? id = (ns.mapBodies erase).get? id) :
    (ns'.class? id).map Class.attributes = (ns.class? id).map Class.attributes := by
  have hread : ∀ ns : Namespace, (ns.class? id).map Class.attributes =
      ((ns.mapBodies erase).get? id).bind fun e ↦ e.body.class?.map Class.attributes := by
    intro ns
    rw [get?_mapBodies, class?]
    cases ns.get? id with
    | none => rfl
    | some e => exact (herase e.body).symm
  rw [hread, h, ← hread]

/-- Condensing keeps attributes. -/
theorem Namespace.attributes_condense (ns : Namespace) (id : Id) :
    (ns.condense.class? id).map Class.attributes = (ns.class? id).map Class.attributes := by
  refine @attributes_congr ns ns.condense id (fun b ↦ b.mapRelations fun _ ↦ ∅) ?_ ?_
  · rintro (_ | _ | _ | _) <;> rfl
  · show ns.condense.withoutRelations.get? id = ns.withoutRelations.get? id
    rw [withoutRelations_condense]

/-- A body that is no class or one without attributes. -/
def Body.Unattributed (b : Body) : Prop :=
  ∀ c, b.class? = some c → c.attributes = []

/-- Building gives no class an attribute. -/
theorem Namespace.unattributed_build {e : Entity} (h : project.build = .ok ns)
    (he : ns.get? id = some e) : e.body.Unattributed := by
  refine forall_body_of_build h ?_ ?_ ?_ ?_ id e he
  · rintro _ (_ | _) c hc <;> cases hc
  · rintro _ _ (_ | _ | _) c hc <;> cases hc
    rfl
  · rintro short name id kind (_ | _ | old | _) hb c hc
    · cases hc
    · cases kind <;> cases hc
    · cases hc
      exact hb old rfl
    · cases hc
  · rintro f (_ | _ | old | _) hb c hc
    · cases hc
    · cases hc
    · exact hb c hc
    · cases hc

/-- Before the passes that find attributes no class has any. -/
theorem Project.Imported.attributes_eq_nil (h : project.Imported built ns)
    (hc : ns.class? id = some c) : c.attributes = [] := by
  have hbuilt : ∀ id as, (built.class? id).map Class.attributes = some as → as = [] := by
    intro id as has
    obtain ⟨c, hc, rfl⟩ := Option.map_eq_some_iff.1 has
    obtain ⟨e, he, hc⟩ := Option.bind_eq_some_iff.1 hc
    exact Namespace.unattributed_build h.build he c hc
  have hns : ∀ id as, (ns.class? id).map Class.attributes = some as → as = [] := by
    refine h.induction (fun ns ↦ ∀ id as, (ns.class? id).map Class.attributes = some as → as = [])
      (fun r component file p hp id as has ↦ hp id as (Eq.trans (Eq.symm ?_) has)) hbuilt
    cases r with
    | exports =>
      exact Namespace.attributes_congr (fun b ↦ by cases b <;> rfl)
        (congrArg (Namespace.get? · id) (Exports.writes_pass file component p).frame)
    | imports =>
      exact Namespace.attributes_congr (fun b ↦ by cases b <;> rfl) (congrArg (Namespace.get? · id)
        (Imports.grows_run (Visit.ofFile p.ns {} component file) p).frame)
  exact hns id _ (by rw [hc]; rfl)

/-- What the passes find of a class is what the visits to its methods assign. -/
theorem Project.Imported.filterMap_foundOn (h : project.Imported built ns) (id : Id) :
    (project.foundOn ns (scheduleOf ns)).filterMap (Finding.attribute? id) =
      (project.visits Attributes.reach ns).flatMap (Attributes.assigned ns id) := by
  have hlive := h.sameOutline.sourcesLive (Namespace.sound_build h.build).sourcesLive
  have hattributes : (Relating.attributes.foundInFiles project ns ns.sources).filterMap
      (Finding.attribute? id) =
        (project.visits Attributes.reach ns).flatMap (Attributes.assigned ns id) := by
    rw [Relating.foundInFiles, List.filterMap_flatMap, visits, List.flatMap_assoc]
    refine List.flatMap_congr fun f hf ↦ ?_
    rw [Relating.foundIn, List.filterMap_flatMap]
    refine List.flatMap_congr fun v hv ↦ ?_
    exact Attributes.filterMap_found (hlive f hf)
      (Visit.own_of_mem_ofFile h.housed (hlive f hf) hv) id
  have hothers : ∀ r : Relating, r ≠ .attributes →
      (r.foundInFiles project ns ns.sources).filterMap (Finding.attribute? id) = [] := by
    intro r hr
    refine List.filterMap_eq_nil_iff.2 fun f hf ↦ ?_
    obtain ⟨file, -, hf⟩ := List.mem_flatMap.1 hf
    have hmember := Relating.isMember_of_mem_foundIn hf
    cases f with
    | dependency => rfl
    | member => exact absurd (of_decide_eq_true hmember.symm) hr
  simp only [foundOn, scheduleOf, List.flatMap_cons, List.flatMap_nil, List.filterMap_append,
    hattributes, hothers .inheritance (by decide), hothers .calls (by decide), List.append_nil]

/-- What an analysis makes of a class: the attributes are those among the findings. -/
theorem Project.Imported.attributes_of_relate (h : project.Imported built ns)
    (hc : ((project.foundOn ns (scheduleOf ns)).foldl Finding.add ns).condense.class? id = some c) :
    c.attributes = firstsBy Variable.name
      ((project.foundOn ns (scheduleOf ns)).filterMap (Finding.attribute? id)) := by
  have hread := Namespace.attributes_condense
    ((project.foundOn ns (scheduleOf ns)).foldl Finding.add ns) id
  rw [hc, Finding.class?_foldl_add] at hread
  obtain ⟨_, hc', hread⟩ := Option.map_eq_some_iff.1 hread.symm
  obtain ⟨c₀, hc₀, rfl⟩ := Option.map_eq_some_iff.1 hc'
  rw [← hread, Class.attributes_foldl_addAttribute, h.attributes_eq_nil hc₀, List.nil_append]
  exact List.filter_eq_self.2 fun _ _ ↦ rfl

/-- **First come, and justified.** After an analysis no two attributes of a class have the same
name. They are what the visits to the methods of the class assign, in the order of the visits and
from left to right in a chain, of each name only the first. Each label is empty, one of the
primitive categories, or the short name of a class that is associated with this one. -/
theorem attributes_first_assigned (h : project.analyze = .ok a) (hc : a.ns.class? id = some c) :
    (c.attributes.map Variable.name).Nodup ∧
    c.attributes = firstsBy Variable.name
      ((project.visits Attributes.reach a.ns).flatMap (Attributes.assigned a.ns id)) ∧
    ∀ v ∈ c.attributes, v.label = "" ∨ v.label ∈ Attributes.primitives ∨
      ∃ part e, a.ns.get? part = some e ∧ e.kind = .cls ∧ e.name = v.label ∧
        Relation.association part id .aggregation ∈ a.ns.associations.toList := by
  obtain ⟨built, ns, called, himported, hrelate, hns⟩ := Project.exists_relate h
  have hsources : ∀ turn ∈ Project.scheduleOf ns, ∀ f ∈ turn.2, f ∈ ns.sources := by
    simp [Project.scheduleOf]
  obtain ⟨-, hassociations, -, hcalled⟩ := himported.typed_of_relate hsources hrelate
  rw [Project.relate_eq fun turn hturn f hf ↦ himported.readable f (hsources turn hturn f hf)]
    at hrelate
  obtain rfl := Except.ok.inj hrelate
  rw [hns] at hc
  have hattributes := himported.attributes_of_relate hc
  -- visits and assignments can be told from the namespace at the end as well
  have hfindings : a.ns.withoutFindings = ns.withoutFindings := by
    rw [hns, Namespace.withoutFindings_condense, Finding.withoutFindings_foldl_add]
  have hassigned := himported.filterMap_foundOn id
  rw [← Project.visits_congr _ hfindings, ← Attributes.assigned_congr hfindings] at hassigned
  refine ⟨hattributes ▸ nodup_map_firstsBy _ _, hassigned ▸ hattributes, fun v hv ↦ ?_⟩
  rw [hattributes] at hv
  obtain ⟨f, hf, hv⟩ := List.mem_filterMap.1 ((firstsBy_sublist _ _).subset hv)
  obtain ⟨m, -, hshown⟩ := himported.shown_of_mem_foundOn hsources hf
  cases hshown with
  | refines | uses => cases hv
  | @member owner current value name howner =>
    obtain ⟨rfl, rfl⟩ : owner = id ∧ ⟨name, (Attributes.infer ns current value).text⟩ = v := by
      simpa [Finding.attribute?] using hv
    rcases Attributes.infer_cases ns current value with
      ⟨part, text, hlabel⟩ | ⟨category, hcategory, hlabel⟩ | hlabel
    · have hassociation := Finding.association_mem (fun r hr ↦ (hassociations r hr).2.1)
        (hlabel ▸ hf)
      have hsame := hcalled.trans (Namespace.sameScopes_condense _)
      have hinfer : Attributes.infer a.ns current value = .cls part text := by
        rw [← Attributes.infer_withoutFindings, hfindings, Attributes.infer_withoutFindings, hlabel]
      obtain ⟨e, he, hkind, hname⟩ :=
        Attributes.exists_of_infer (hns ▸ hsame.tidy himported.housed.toTidy) hinfer
      refine .inr (.inr ⟨part, e, he, hkind, ?_, ?_⟩)
      · rw [hname, hlabel]
        rfl
      · rw [hns, Namespace.associations_condense]
        exact hassociation
    · refine .inr (.inl ?_)
      rw [hlabel]
      exact hcategory
    · refine .inl ?_
      rw [hlabel]
      rfl

/-- A class with a method that assigns two attributes in a chain and one of them again, a method
without a receiver, and another method. -/
def assigningProject : Project where
  name := "p"
  location := "p"
  entries := [.file markerName ("class N:0\nclass W:\n def o(t):\n  t.y=t.z=N()\n  t.y=1\n" ++
    " @staticmethod\n def u(k):k.x=1\n def w(t):t.k=\"\"\n").toUTF8]
  filter := []

/-- The second assignment of an attribute changes nothing, and the method without a receiver assigns
none. -/
theorem attributes_of_assigningProject :
    ∃ a c, assigningProject.analyze = .ok a ∧ a.ns.class? 2 = some c ∧
      c.attributes = [⟨"y", "N"⟩, ⟨"z", "N"⟩, ⟨"k", "str"⟩] ∧
      (assigningProject.visits Attributes.reach a.ns).flatMap (Attributes.assigned a.ns 2) =
        [⟨"y", "N"⟩, ⟨"z", "N"⟩, ⟨"y", "int"⟩, ⟨"k", "str"⟩] ∧
      (c.attributes.map Variable.name).Nodup ∧
      c.attributes = firstsBy Variable.name
        ((assigningProject.visits Attributes.reach a.ns).flatMap (Attributes.assigned a.ns 2)) ∧
      ∃ part e, a.ns.get? part = some e ∧ e.kind = .cls ∧ e.name = "N" ∧
        Relation.association part 2 .aggregation ∈ a.ns.associations.toList := by
  have hanalyze : (assigningProject.analyzeOnce?.map fun ns ↦
      ((ns.class? 2).map Class.attributes,
        (assigningProject.visits Attributes.reach ns).flatMap (Attributes.assigned ns 2))) =
      some (some [⟨"y", "N"⟩, ⟨"z", "N"⟩, ⟨"k", "str"⟩],
        [⟨"y", "N"⟩, ⟨"z", "N"⟩, ⟨"y", "int"⟩, ⟨"k", "str"⟩]) := by
    decide +kernel
  obtain ⟨a, ha, hread⟩ := Project.exists_analyze_of_analyzeOnce? hanalyze
  simp only [Prod.mk.injEq] at hread
  obtain ⟨hclass, hassigned⟩ := hread
  obtain ⟨c, hc, hattributes⟩ := Option.map_eq_some_iff.1 hclass
  obtain ⟨hnodup, hfirsts, hlabels⟩ := attributes_first_assigned ha hc
  have hlabel := hlabels ⟨"y", "N"⟩ (by rw [hattributes]; exact List.mem_cons_self)
  exact ⟨a, c, ha, hc, hattributes, hassigned, hnodup, hfirsts,
    (hlabel.resolve_left (by decide)).resolve_left (by decide)⟩

end Analysis

end CodeAtlas
