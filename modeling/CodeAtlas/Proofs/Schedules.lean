import CodeAtlas.Proofs.Findings

/-!
# The order of passes and of files

What the passes for attributes, inheritance and calls find is the same in every order, so an order
matters only where adding one finding after another does.

## Where the order matters

The attributes of a class are kept in the order in which they were found, but all of them are found
in one file and by one pass, and in every other file the findings belong to other scopes
(`Project.Imported.scope_ne`). Associations are all of one kind. Dependencies are not: of two with
the same ends, one by inheritance and one by a call, the first one stays. So schedules agree in
everything but the kinds of such dependencies (`Namespace.SameUpToKinds`), and condensing does not
read kinds.

A schedule is seen as a list of blocks, one for each pass and file (`Schedule.blocks`). Those of two
schedules with the same passes and files are permutations of each other
(`Schedule.Covers.blocks_perm`), and steps of different blocks can be swapped, so that the general
lemma on folds applies.

## Which kind stays

Attributes apart, a schedule has two passes, and a dependency that both find is the one that the
first of them finds (`Project.Imported.kinds_foldl_add`).

## Running a pass again

Whatever was added is there, and adding it again changes nothing (`Finding.Recorded`). So no pass
changes anything when it is run again, in whatever order it goes through the files
(`Project.Imported.traverse_again`).
-/

namespace CodeAtlas

/-! ### Sets of relations -/

namespace RelationSet

variable {s s' : RelationSet} {x y : Relation} {key : RelationKey}

/-- Sets with the same kinds under all keys are the same. -/
theorem ext_kinds (h : ∀ key : RelationKey, s.kinds[key]? = s'.kinds[key]?) : s = s' :=
  congrArg mk (Std.ExtTreeMap.ext_getElem? h)

/-- Under a key there is what was there, or else what is added under it. -/
theorem kinds_insert : (s.insert x).kinds[key]? =
    s.kinds[key]?.or (if x.toRelationKey = key then some x.kind else none) := by
  rw [insert, Std.ExtTreeMap.getElem?_insertIfNew]
  simp only [Std.LawfulEqOrd.compare_eq_iff_eq]
  by_cases hkey : x.toRelationKey = key
  · subst hkey
    by_cases hmem : x.toRelationKey ∈ s.kinds
    · have hsome := Std.ExtTreeMap.mem_iff_isSome_getElem?.1 hmem
      obtain ⟨kind, hkind⟩ := Option.isSome_iff_exists.1 hsome
      rw [if_neg fun h ↦ h.2 hmem, hkind, Option.some_or]
    · rw [if_pos ⟨rfl, hmem⟩, if_pos rfl, Std.ExtTreeMap.getElem?_eq_none hmem, Option.none_or]
  · rw [if_neg fun h ↦ hkey h.1, if_neg hkey, Option.or_none]

/-- Under a key there is what was there, or else what was added first under it. -/
theorem kinds_foldl_insert (rs : List Relation) : (rs.foldl insert s).kinds[key]? =
    s.kinds[key]?.or (rs.foldl insert ∅).kinds[key]? := by
  have hempty : (∅ : RelationSet).kinds[key]? = none := Std.ExtTreeMap.getElem?_empty
  induction rs generalizing s with
  | nil => rw [List.foldl_nil, List.foldl_nil, hempty, Option.or_none]
  | cons x rest ih =>
    rw [List.foldl_cons, List.foldl_cons, ih, @ih (insert ∅ x), kinds_insert, kinds_insert, hempty,
      Option.none_or, Option.or_assoc]

/-- Of two relations it matters which one is added first only if they have the same key. -/
theorem insert_comm (h : x.toRelationKey = y.toRelationKey → x = y) :
    (s.insert x).insert y = (s.insert y).insert x := by
  by_cases hkey : x.toRelationKey = y.toRelationKey
  · rw [h hkey]
  · refine ext_kinds fun key ↦ ?_
    simp only [kinds_insert, Option.or_assoc]
    congr 1
    -- at most one of the two is under the key
    by_cases hx : x.toRelationKey = key
    · have hy : y.toRelationKey ≠ key := fun hy ↦ hkey (hx.trans hy.symm)
      rw [if_neg hy, Option.none_or, Option.or_none]
    · rw [if_neg hx, Option.none_or, Option.or_none]

/-- The keys after relations were added are the old ones and those of the relations. -/
theorem contains_foldl_insert_iff {rs : List Relation} : (rs.foldl insert s).contains key ↔
    s.contains key ∨ ∃ r ∈ rs, r.toRelationKey = key := by
  induction rs generalizing s with
  | nil => simp
  | cons x rest ih =>
    rw [List.foldl_cons, ih, contains_insert, Bool.or_eq_true, beq_iff_eq, List.exists_mem_cons_iff,
      or_assoc, or_left_comm]

/-- The keys of a set are in order, so sets with the same keys list them alike. -/
theorem map_key_toList (h : ∀ key, s'.contains key = s.contains key) :
    s'.toList.map Relation.toRelationKey = s.toList.map Relation.toRelationKey := by
  have hkeys : ∀ t : RelationSet, t.toList.map Relation.toRelationKey =
      (t.kinds.map fun _ _ ↦ ()).keys := by
    intro t
    rw [toList, List.map_map, Std.ExtTreeMap.keys_map, ← Std.ExtTreeMap.map_fst_toList_eq_keys]
    rfl
  have hunits : (s'.kinds.map fun _ _ ↦ ()) = s.kinds.map fun _ _ ↦ () := by
    refine Std.ExtTreeMap.ext_getElem? fun key ↦ ?_
    have hsome : s'.kinds[key]?.isSome = s.kinds[key]?.isSome := by
      rw [← Std.ExtTreeMap.contains_eq_isSome_getElem?,
        ← Std.ExtTreeMap.contains_eq_isSome_getElem?]
      exact h key
    rw [Std.ExtTreeMap.getElem?_map, Std.ExtTreeMap.getElem?_map]
    cases hkind : s.kinds[key]? <;> cases hkind' : s'.kinds[key]? <;> simp_all
  rw [hkeys, hkeys, hunits]

end RelationSet

/-! ### Up to kinds -/

namespace Namespace

variable {ns ns' : Namespace}

/-- Two namespaces that differ at most in the kinds of their dependencies: entities with their
attributes and relation sets, associations and condensed relations are the same, and there are
dependencies between the same entities. -/
structure SameUpToKinds (ns ns' : Namespace) : Prop where
  rest : { ns' with dependencies := ns.dependencies } = ns
  keys : ∀ key, ns'.dependencies.contains key = ns.dependencies.contains key

/-- Condensing reads the keys of dependencies only. -/
theorem condense_setDependencies {dependencies : RelationSet}
    (h : ∀ key, ns.dependencies.contains key = dependencies.contains key) :
    { ns with dependencies }.condense = { ns.condense with dependencies } := by
  have hlift : ∀ source target,
      { ns with dependencies }.lift source target = ns.lift source target := by
    intro source target
    refine lift_congr ?_ ?_ source target
    · exact fun _ ↦ rfl
    · exact fun _ ↦ rfl
  have hlifted : { ns with dependencies }.lifted = ns.lifted := by
    have hkeys : ∀ (ns : Namespace) (rs : List Relation), (rs.filterMap fun r ↦
        ns.lift r.source r.target) = (rs.map Relation.toRelationKey).filterMap fun key ↦
          ns.lift key.source key.target := by
      intro ns rs
      rw [List.filterMap_map]
      rfl
    -- both sets list their keys in the same order
    rw [lifted, lifted, hkeys, hkeys, List.map_append, List.map_append,
      ← RelationSet.map_key_toList h]
    simp only [hlift]
  have hfold : ∀ (ls : List Lifted) (ns : Namespace), ls.foldl addLifted { ns with dependencies } =
      { ls.foldl addLifted ns with dependencies } := by
    intro ls
    induction ls with
    | nil => exact fun _ ↦ rfl
    | cons l rest ih =>
      intro ns
      have hstep : { ns with dependencies }.addLifted l = { ns.addLifted l with dependencies } := by
        simp only [addLifted, modify_eq]
      rw [List.foldl_cons, hstep, ih, List.foldl_cons]
  rw [condense_eq_foldl, hlifted, hfold, ← condense_eq_foldl]

/-- Namespaces that are the same up to kinds are so after condensing. -/
theorem SameUpToKinds.condense (h : ns.SameUpToKinds ns') :
    ns.condense.SameUpToKinds ns'.condense := by
  have hcondense := condense_setDependencies h.keys
  rw [h.rest] at hcondense
  refine ⟨?_, fun key ↦ ?_⟩
  · rw [dependencies_condense]
    exact hcondense.symm
  · rw [dependencies_condense, dependencies_condense]
    exact h.keys key

end Namespace

/-! ### Findings in another order -/

namespace Finding

variable {ns : Namespace} {f g : Finding}

/-- A dependency belongs to the scope that it starts at. -/
theorem source_of_relation? {r : Relation} (h : f.relation? = some r) : r.source = f.scope := by
  cases f with
  | dependency => cases h; rfl
  | member => cases h

/-- Associations are all of one kind, so their keys tell them apart. -/
theorem association_eq_of_key_eq {x y : Relation} (hx : f.association? = some x)
    (hy : g.association? = some y) (hkey : x.toRelationKey = y.toRelationKey) : x = y := by
  have hkind : ∀ {f : Finding} {x : Relation}, f.association? = some x →
      x.kind = .association .aggregation := by
    intro f x hx
    unfold association? at hx
    split at hx <;> cases hx
    rfl
  obtain ⟨_, _⟩ := x
  obtain ⟨_, _⟩ := y
  cases hkey
  cases hkind hx
  cases hkind hy
  rfl

/-- Attributes of different classes are entered in any order. -/
theorem enter_comm (h : f.isMember → g.isMember → f.scope ≠ g.scope)
    (entities : Std.ExtTreeMap Id Entity) :
    enter (enter entities f) g = enter (enter entities g) f := by
  cases f with
  | dependency => rfl
  | member owner label name =>
    cases g with
    | dependency => rfl
    | member owner' label' name' =>
      have hne : owner ≠ owner' := h rfl rfl
      refine Std.ExtTreeMap.ext_getElem? fun id ↦ ?_
      simp only [enter, Std.ExtTreeMap.getElem?_modify, Std.LawfulEqOrd.compare_eq_iff_eq]
      by_cases hid : owner = id
      · subst hid
        rw [if_neg hne.symm, if_pos rfl, if_pos rfl, if_neg hne.symm]
      · rw [if_neg hid, if_neg hid, if_neg hne]

/-! ### Findings that are there -/

/-- A finding is there: its dependency and its association by their keys, and its attribute by its
name, if the class is there at all. -/
structure Recorded (ns : Namespace) (f : Finding) : Prop where
  dependency : ∀ r, f.relation? = some r → ns.dependencies.contains r.toRelationKey
  association : ∀ r, f.association? = some r → ns.associations.contains r.toRelationKey
  named : ∀ owner label name, f = .member owner label name →
    ∀ e c, ns.get? owner = some e → e.body = .cls c → c.attributes.any (·.name == name)

/-- What a class of a namespace is after an attribute was added somewhere. -/
theorem exists_of_get?_add {owner : Id} {label : Attributes.Label} {name : String} {id : Id}
    {e : Entity} {c : Class} (he : ((member owner label name).add ns).get? id = some e)
    (hc : e.body = .cls c) : ∃ e₀ c₀, ns.get? id = some e₀ ∧ e₀.body = .cls c₀ ∧
      c = if owner = id then c₀.addAttribute ⟨name, label.text⟩ else c₀ := by
  change (ns.entities.modify owner fun e ↦
    { e with body := e.body.mapClass (·.addAttribute ⟨name, label.text⟩) })[id]? = some e at he
  rw [Std.ExtTreeMap.getElem?_modify] at he
  simp only [Std.LawfulEqOrd.compare_eq_iff_eq] at he
  split at he
  · next hid =>
    subst hid
    obtain ⟨e₀, he₀, rfl⟩ := Option.map_eq_some_iff.1 he
    obtain ⟨_, _, body⟩ := e₀
    cases body with
    | cls c₀ =>
      cases hc
      exact ⟨_, c₀, he₀, rfl, (if_pos rfl).symm⟩
    | package | component | function => cases hc
  · next hid => exact ⟨e, c, he, hc, (if_neg hid).symm⟩

theorem any_addAttribute_self (c : Class) (v : Variable) :
    (c.addAttribute v).attributes.any (·.name == v.name) := by
  unfold Class.addAttribute
  split
  · assumption
  · simp

theorem any_addAttribute {c : Class} {p : Variable → Bool} (h : c.attributes.any p) (v : Variable) :
    (c.addAttribute v).attributes.any p := by
  unfold Class.addAttribute
  split
  · exact h
  · rw [List.any_append, h, Bool.true_or]

/-- What was added is there. -/
theorem recorded_add (ns : Namespace) (f : Finding) : f.Recorded (f.add ns) := by
  have hinsert : ∀ (r : Option Relation) (s : RelationSet) (x : Relation), r = some x →
      (r.elim s s.insert).contains x.toRelationKey := by
    rintro _ s x rfl
    show (s.insert x).contains _
    rw [RelationSet.contains_insert, beq_self_eq_true, Bool.true_or]
  refine ⟨fun r hr ↦ hinsert _ _ r hr, fun r hr ↦ hinsert _ _ r hr, ?_⟩
  rintro owner label name rfl e c he hc
  obtain ⟨_, c₀, -, -, rfl⟩ := exists_of_get?_add he hc
  rw [if_pos rfl]
  exact any_addAttribute_self c₀ ⟨name, label.text⟩

/-- What is there stays, whatever else is added. -/
theorem Recorded.add (h : f.Recorded ns) (g : Finding) : f.Recorded (g.add ns) := by
  have hinsert : ∀ (r : Option Relation) (s : RelationSet) (key : RelationKey), s.contains key →
      (r.elim s s.insert).contains key := by
    rintro (- | r) s key hkey
    · exact hkey
    · show (s.insert r).contains _
      rw [RelationSet.contains_insert, hkey, Bool.or_true]
  refine ⟨fun r hr ↦ hinsert _ _ _ (h.dependency r hr),
    fun r hr ↦ hinsert _ _ _ (h.association r hr), fun owner label name hf e c he hc ↦ ?_⟩
  cases g with
  | dependency => exact h.named owner label name hf e c he hc
  | member owner' label' name' =>
    obtain ⟨e₀, c₀, he₀, hc₀, rfl⟩ := exists_of_get?_add he hc
    have hnamed := h.named owner label name hf e₀ c₀ he₀ hc₀
    split
    · exact any_addAttribute hnamed _
    · exact hnamed

/-- Each of several findings is there after all of them were added. -/
theorem recorded_foldl_add {fs : List Finding} (hf : f ∈ fs) (ns : Namespace) :
    f.Recorded (fs.foldl Finding.add ns) := by
  have hkept : ∀ (fs : List Finding) (ns : Namespace), f.Recorded ns →
      f.Recorded (fs.foldl Finding.add ns) := by
    intro fs
    induction fs with
    | nil => exact fun _ h ↦ h
    | cons g rest ih => exact fun ns h ↦ ih _ (h.add g)
  obtain ⟨before, after, rfl⟩ := List.append_of_mem hf
  rw [List.foldl_append, List.foldl_cons]
  exact hkept after _ (recorded_add _ f)

/-- Recording what is there changes nothing, and counts for nothing. -/
theorem Recorded.record_eq {p : Progress} (h : f.Recorded p.ns) : f.record p = p := by
  obtain ⟨ns, count⟩ := p
  cases f with
  | dependency r =>
    have hcontains := h.dependency r rfl
    show Progress.mk { ns with dependencies := ns.dependencies.insert r }
      (if ns.dependencies.contains r.toRelationKey then count else count + 1) = _
    rw [RelationSet.insert_of_contains hcontains, if_pos hcontains]
  | member owner label name =>
    have hmodify : ns.modify owner (·.mapClass (·.addAttribute ⟨name, label.text⟩)) = ns := by
      refine Namespace.modify_eq_self fun e he ↦ ?_
      obtain ⟨_, _, body⟩ := e
      cases body with
      | cls c => exact congrArg Body.cls (if_pos (h.named owner label name rfl _ c he rfl))
      | package | component | function => rfl
    cases label with
    | cls part text =>
      have hcontains := h.association _ rfl
      show Progress.mk (Namespace.modify { ns with
          associations := ns.associations.insert (.association part owner .aggregation) } owner _)
        (if ns.associations.contains _ then count else count + 1) = _
      rw [RelationSet.insert_of_contains hcontains, if_pos hcontains, hmodify]
    | primitive | unknown => exact congrArg (Progress.mk · count) hmodify

/-- Recording findings that are all there changes nothing. -/
theorem foldl_record_eq_self {fs : List Finding} {p : Progress} (h : ∀ f ∈ fs, f.Recorded p.ns) :
    fs.foldl record p = p := by
  induction fs with
  | nil => rfl
  | cons f rest ih =>
    rw [List.foldl_cons, (h f List.mem_cons_self).record_eq]
    exact ih fun g hg ↦ h g (List.mem_cons_of_mem _ hg)

end Finding

/-! ### Schedules -/

namespace Schedule

variable {ns : Namespace} {schedule schedule' : Schedule}

/-- The three passes in some order, each over all source files in an order of its own. -/
structure Covers (schedule : Schedule) (ns : Namespace) : Prop where
  passes : (schedule.map Prod.fst).Perm [.attributes, .inheritance, .calls]
  files : ∀ turn ∈ schedule, turn.2.Perm ns.sources

/-- The order of an analysis covers the source files. -/
theorem covers_scheduleOf (ns : Namespace) : Covers (Project.scheduleOf ns) ns := by
  refine ⟨.refl _, fun turn hturn ↦ ?_⟩
  simp only [Project.scheduleOf, List.mem_cons, List.not_mem_nil, or_false] at hturn
  rcases hturn with rfl | rfl | rfl <;> exact .refl _

/-- A schedule that covers the source files does so in reverse order. -/
theorem Covers.reverse (h : Covers schedule ns) : Covers schedule.reverse ns :=
  ⟨((List.reverse_perm schedule).map Prod.fst).trans h.passes,
    fun turn hturn ↦ h.files turn (List.mem_reverse.1 hturn)⟩

/-- The files that passes go through, one by one. -/
def blocks (schedule : Schedule) : List (Relating × SourceFile) :=
  schedule.flatMap fun turn ↦ turn.2.map (turn.1, ·)

/-- Schedules that cover the source files have the same blocks, in some order. -/
theorem Covers.blocks_perm (h : Covers schedule ns) (h' : Covers schedule' ns) :
    (blocks schedule).Perm (blocks schedule') := by
  have hblocks : ∀ {schedule : Schedule}, Covers schedule ns → (blocks schedule).Perm
      ((schedule.map Prod.fst).flatMap fun r ↦ ns.sources.map (r, ·)) := by
    intro schedule h
    rw [List.flatMap_map]
    exact .flatMap_left _ fun turn hturn ↦ (h.files turn hturn).map _
  have hpasses := h.passes.trans h'.passes.symm
  exact (hblocks h).trans ((hpasses.flatMap_right _).trans (hblocks h').symm)

theorem Covers.mem_sources (h : Covers schedule ns) {block : Relating × SourceFile}
    (hblock : block ∈ blocks schedule) : block.2 ∈ ns.sources := by
  obtain ⟨turn, hturn, hmem⟩ := List.mem_flatMap.1 hblock
  obtain ⟨f, hf, rfl⟩ := List.mem_map.1 hmem
  exact (h.files turn hturn).mem_iff.1 hf

end Schedule

namespace Project

variable {project : Project} {built ns result result' : Namespace} {schedule schedule' : Schedule}
  {r r' : Relating} {f g : SourceFile} {files : List SourceFile} {a b : Finding}

/-- What a pass finds in a file. -/
def foundAt (project : Project) (ns : Namespace) (block : Relating × SourceFile) : List Finding :=
  block.1.foundIn ns block.2.component (project.statements block.2.path)

/-- What a schedule finds is what is found block by block. -/
theorem foundOn_eq_flatMap :
    project.foundOn ns schedule = (Schedule.blocks schedule).flatMap (project.foundAt ns) := by
  simp only [foundOn, Schedule.blocks, Relating.foundInFiles, List.flatMap_assoc, List.flatMap_map]
  rfl

/-- All dependencies are found by the passes other than that for attributes. -/
theorem relations_foundOn (schedule : Schedule) :
    (project.foundOn ns schedule).filterMap Finding.relation? =
      (project.foundOn ns (schedule.filter (·.1 ≠ .attributes))).filterMap Finding.relation? := by
  induction schedule with
  | nil => rfl
  | cons turn rest ih =>
    rw [foundOn, List.flatMap_cons, List.filterMap_append, List.filter_cons]
    by_cases hturn : turn.1 = .attributes
    · have hnone : (turn.1.foundInFiles project ns turn.2).filterMap Finding.relation? = [] := by
        refine List.filterMap_eq_nil_iff.2 fun f hf ↦ ?_
        obtain ⟨file, -, hf⟩ := List.mem_flatMap.1 hf
        have hmember := Relating.isMember_of_mem_foundIn hf
        rw [decide_eq_true hturn] at hmember
        cases f with
        | dependency => cases hmember
        | member => rfl
      rw [if_neg (by simpa using hturn), hnone, List.nil_append]
      exact ih
    · rw [if_pos (by simpa using hturn), foundOn, List.flatMap_cons, List.filterMap_append]
      exact congrArg (_ ++ ·) ih

namespace Imported

/-- What is found in different files belongs to different scopes. -/
theorem scope_ne (h : project.Imported built ns) (hf : f ∈ ns.sources) (hg : g ∈ ns.sources)
    (hne : f ≠ g) (ha : a ∈ r.foundIn ns f.component (project.statements f.path))
    (hb : b ∈ r'.foundIn ns g.component (project.statements g.path)) : a.scope ≠ b.scope := by
  have hlive := h.sameOutline.sourcesLive (Namespace.sound_build h.build).sourcesLive
  have hconsistent := h.housed.toConsistent
  have hhome : ns.home? a.scope = some f.component :=
    (r.shown_of_mem_foundIn h.housed (hlive f hf) ha).home?_scope hconsistent (hlive f hf)
  have hhome' : ns.home? b.scope = some g.component :=
    (r'.shown_of_mem_foundIn h.housed (hlive g hg) hb).home?_scope hconsistent (hlive g hg)
  have hnodup : (ns.sources.map SourceFile.component).Nodup := by
    rw [h.sameOutline.sources]
    exact Namespace.nodup_sources_of_build h.build
  intro hscope
  rw [hscope, hhome'] at hhome
  exact hne (List.inj_on_of_nodup_map hnodup hf hg (Option.some.inj hhome).symm)

/-! ### Again -/

/-- **Running a pass again changes nothing**, in whatever order it goes through the files. -/
theorem traverse_again (h : project.Imported built ns)
    (hfiles : ∀ turn ∈ schedule, turn.2.Perm ns.sources) {turn : Relating × List SourceFile}
    (hturn : turn ∈ schedule) (hperm : files.Perm ns.sources) (count : Nat) :
    let result := (project.foundOn ns schedule).foldl Finding.add ns
    project.traverse turn.1.pass files ⟨result, count⟩ = (⟨result, count⟩, none) := by
  intro result
  have hreadable : project.Readable files := fun f hf ↦ h.readable f (hperm.mem_iff.1 hf)
  have hframe : result.withoutFindings = ns.withoutFindings :=
    Finding.withoutFindings_foldl_add ns _
  rw [turn.1.traverse_eq hreadable]
  refine congrArg (·, none) (Finding.foldl_record_eq_self fun f hf ↦ ?_)
  refine Finding.recorded_foldl_add ?_ ns
  -- it finds in the files what it has found before
  simp only [Relating.foundInFiles, Relating.foundIn_congr hframe] at hf
  obtain ⟨file, hfile, hf⟩ := List.mem_flatMap.1 hf
  have hsame := hperm.trans (hfiles turn hturn).symm
  exact List.mem_flatMap.2 ⟨turn, hturn, List.mem_flatMap.2 ⟨file, hsame.mem_iff.1 hfile, hf⟩⟩

/-! ### In another order -/

/-- A schedule over source files in any order adds what its passes find. -/
theorem relate_eq (h : project.Imported built ns)
    (hfiles : ∀ turn ∈ schedule, turn.2.Perm ns.sources) :
    project.relate schedule ns = .ok ((project.foundOn ns schedule).foldl Finding.add ns) :=
  Project.relate_eq (fun turn hturn f hf ↦ h.readable f ((hfiles turn hturn).mem_iff.1 hf)) ns

/-- Schedules that cover the source files end alike. -/
theorem sameUpToKinds (h : project.Imported built ns) (hschedule : Schedule.Covers schedule ns)
    (hschedule' : Schedule.Covers schedule' ns) :
    ((project.foundOn ns schedule).foldl Finding.add ns).SameUpToKinds
      ((project.foundOn ns schedule').foldl Finding.add ns) := by
  have hblocks := hschedule.blocks_perm hschedule'
  have hfound : (project.foundOn ns schedule).Perm (project.foundOn ns schedule') := by
    rw [foundOn_eq_flatMap, foundOn_eq_flatMap]
    exact hblocks.flatMap_right _
  have hentities : (project.foundOn ns schedule).foldl Finding.enter ns.entities =
      (project.foundOn ns schedule').foldl Finding.enter ns.entities := by
    rw [foundOn_eq_flatMap, foundOn_eq_flatMap]
    refine foldl_flatMap_perm hblocks (fun x hx y hy hne a ha b hb ↦
      Finding.enter_comm fun hmember hmember' ↦ ?_) ns.entities
    -- attributes are found by one pass, so these blocks are different files
    rw [Relating.isMember_of_mem_foundIn ha, decide_eq_true_eq] at hmember
    rw [Relating.isMember_of_mem_foundIn hb, decide_eq_true_eq] at hmember'
    refine h.scope_ne (hschedule.mem_sources hx) (hschedule.mem_sources hy) (fun heq ↦ hne ?_) ha hb
    exact Prod.ext (hmember.trans hmember'.symm) heq
  have hassociations :
      ((project.foundOn ns schedule).filterMap Finding.association?).foldl RelationSet.insert
        ns.associations =
      ((project.foundOn ns schedule').filterMap Finding.association?).foldl RelationSet.insert
        ns.associations := by
    -- all of them are of one kind, and so can be added in any order
    refine (hfound.filterMap _).foldl_eq' (fun x hx y hy s ↦ RelationSet.insert_comm ?_) _
    obtain ⟨_, -, hx⟩ := List.mem_filterMap.1 hx
    obtain ⟨_, -, hy⟩ := List.mem_filterMap.1 hy
    exact Finding.association_eq_of_key_eq hx hy
  refine ⟨?_, fun key ↦ ?_⟩
  · rw [Finding.foldl_add, Finding.foldl_add, hentities, hassociations]
  · rw [Finding.foldl_add, Finding.foldl_add, Bool.eq_iff_iff,
      RelationSet.contains_foldl_insert_iff, RelationSet.contains_foldl_insert_iff]
    simp only [(hfound.filterMap _).mem_iff]

/-! ### Which kind stays -/

/-- The dependencies that a pass finds in files do not depend on the order of files. -/
theorem foldl_insert_perm (h : project.Imported built ns) (r : Relating)
    (hperm : files.Perm ns.sources) (s : RelationSet) :
    ((r.foundInFiles project ns files).filterMap Finding.relation?).foldl RelationSet.insert s =
      ((r.foundInFiles project ns ns.sources).filterMap Finding.relation?).foldl
        RelationSet.insert s := by
  rw [Relating.foundInFiles, Relating.foundInFiles, List.filterMap_flatMap, List.filterMap_flatMap]
  refine foldl_flatMap_perm hperm (fun f hf g hg hne x hx y hy s ↦ RelationSet.insert_comm ?_) s
  obtain ⟨a, ha, hx⟩ := List.mem_filterMap.1 hx
  obtain ⟨b, hb, hy⟩ := List.mem_filterMap.1 hy
  have hscope : a.scope ≠ b.scope :=
    h.scope_ne (hperm.mem_iff.1 hf) (hperm.mem_iff.1 hg) hne ha hb
  intro hkey
  rw [← Finding.source_of_relation? hx, ← Finding.source_of_relation? hy, hkey] at hscope
  exact absurd rfl hscope

/-- The dependencies after a pass over all files are those that it finds. -/
theorem dependencies_run (h : project.Imported built ns) (r : Relating) :
    (project.run r.pass { ns }).1.ns.dependencies =
      ((r.foundInFiles project ns ns.sources).filterMap Finding.relation?).foldl
        RelationSet.insert ∅ := by
  have hnone : ns.dependencies = ∅ := congrArg Prod.fst h.relationSets
  rw [Project.run, r.traverse_eq h.readable]
  show (List.foldl Finding.record _ _).ns.dependencies = _
  rw [Finding.ns_foldl_record, Finding.foldl_add, ← hnone]

/-- Attributes apart, a schedule has two passes, and a dependency that both find is the one that the
first of them finds. -/
theorem kinds_foldl_add (h : project.Imported built ns)
    (hfiles : ∀ turn ∈ schedule, turn.2.Perm ns.sources) {first second : Relating}
    (hpasses : (schedule.map Prod.fst).filter (· ≠ .attributes) = [first, second])
    (key : RelationKey) :
    ((project.foundOn ns schedule).foldl Finding.add ns).dependencies.kinds[key]? =
      ((project.run first.pass { ns }).1.ns.dependencies.kinds[key]?).or
        (project.run second.pass { ns }).1.ns.dependencies.kinds[key]? := by
  obtain ⟨files, files', hturns⟩ : ∃ files files',
      schedule.filter (·.1 ≠ .attributes) = [(first, files), (second, files')] := by
    rw [List.filter_map] at hpasses
    obtain ⟨⟨_, files⟩, turns, hturns, rfl, hsecond⟩ := List.map_eq_cons_iff.1 hpasses
    obtain ⟨⟨_, files'⟩, rest, rfl, rfl, hrest⟩ := List.map_eq_cons_iff.1 hsecond
    cases List.map_eq_nil_iff.1 hrest
    exact ⟨files, files', hturns⟩
  -- attributes apart, the schedule is these two turns
  have hperm : ∀ turn ∈ [(first, files), (second, files')], turn.2.Perm ns.sources := by
    intro turn hturn
    rw [← hturns] at hturn
    exact hfiles turn (List.mem_filter.1 hturn).1
  have hnone : ns.dependencies = ∅ := congrArg Prod.fst h.relationSets
  rw [Finding.foldl_add, relations_foundOn, hturns, hnone, h.dependencies_run, h.dependencies_run]
  simp only [foundOn, List.flatMap_cons, List.flatMap_nil, List.append_nil, List.filterMap_append,
    List.foldl_append]
  rw [RelationSet.kinds_foldl_insert, h.foldl_insert_perm _ (hperm _ List.mem_cons_self),
    h.foldl_insert_perm _ (hperm _ (List.mem_cons_of_mem _ List.mem_cons_self))]

end Imported

end Project

section Orders

variable {project : Project} {built ns : Namespace}

/-- **The order of passes and files does not matter.** After references are resolved, the passes for
attributes, inheritance and calls succeed in any order and over the source files in any order, and
none of them changes anything when it is run again. Schedules of all three end in namespaces that
are the same up to the kinds of dependencies, and so they are after condensing. Of two dependencies
with the same key, one by inheritance and one by a call, the one that stays is that of the pass that
is run first. -/
theorem passes_commute (h : project.Imported built ns) :
    (∀ schedule : Schedule, (∀ turn ∈ schedule, turn.2.Perm ns.sources) →
      ∃ result, project.relate schedule ns = .ok result ∧
        ∀ turn ∈ schedule, ∀ files : List SourceFile, files.Perm ns.sources → ∀ count,
          project.traverse turn.1.pass files ⟨result, count⟩ = (⟨result, count⟩, none)) ∧
    (∀ schedule schedule' result result',
      Schedule.Covers schedule ns → project.relate schedule ns = .ok result →
      Schedule.Covers schedule' ns → project.relate schedule' ns = .ok result' →
        result.SameUpToKinds result' ∧ result.condense.SameUpToKinds result'.condense) ∧
    ∀ schedule result first second,
      Schedule.Covers schedule ns → project.relate schedule ns = .ok result →
      (schedule.map Prod.fst).filter (· ≠ .attributes) = [first, second] →
        ∀ r, r ∈ result.dependencies.toList ↔
          r ∈ (project.run first.pass { ns }).1.ns.dependencies.toList ∨
          (project.run first.pass { ns }).1.ns.dependencies.contains r.toRelationKey = false ∧
            r ∈ (project.run second.pass { ns }).1.ns.dependencies.toList := by
  refine ⟨fun schedule hfiles ↦ ⟨_, h.relate_eq hfiles, fun turn hturn files hperm count ↦
    h.traverse_again hfiles hturn hperm count⟩, ?_, ?_⟩
  · intro schedule schedule' result result' hschedule hresult hschedule' hresult'
    cases (h.relate_eq hschedule.files).symm.trans hresult
    cases (h.relate_eq hschedule'.files).symm.trans hresult'
    have hsame := h.sameUpToKinds hschedule hschedule'
    exact ⟨hsame, hsame.condense⟩
  · intro schedule result first second hschedule hresult hpasses r
    cases (h.relate_eq hschedule.files).symm.trans hresult
    rw [RelationSet.mem_toList_iff, h.kinds_foldl_add hschedule.files hpasses,
      RelationSet.mem_toList_iff, RelationSet.mem_toList_iff, RelationSet.contains,
      Std.ExtTreeMap.contains_eq_isSome_getElem?]
    cases (project.run first.pass { ns }).1.ns.dependencies.kinds[r.toRelationKey]? <;> simp

end Orders

/-- A module with a class that instantiates its base. -/
def instantiatedBaseProject : Project where
  name := "p"
  location := "p"
  entries := [.file markerName "class N:0\nclass W(N):N()\n".toUTF8]
  filter := []

/-- The dependency of the class on its base is a refinement in one order and a use in the other. -/
theorem passes_commute_on_instantiatedBaseProject : ∃ built ns result result',
    instantiatedBaseProject.Imported built ns ∧
    instantiatedBaseProject.relate (Project.scheduleOf ns) ns = .ok result ∧
    instantiatedBaseProject.relate (Project.scheduleOf ns).reverse ns = .ok result' ∧
    .dependency 2 1 .refines (some .derives) ∈ result.dependencies.toList ∧
    .dependency 2 1 .uses (some .instantiates) ∈ result'.dependencies.toList ∧
    result.SameUpToKinds result' ∧ result.condense.SameUpToKinds result'.condense := by
  have hbuild : (instantiatedBaseProject.build.toOption.map fun built ↦
      let exported := instantiatedBaseProject.run Exports.pass { ns := built }
      let imported := instantiatedBaseProject.run Imports.pass { ns := exported.1.ns }
      let related := instantiatedBaseProject.run Inheritance.pass { ns := imported.1.ns }
      let called := instantiatedBaseProject.run Calls.pass { ns := imported.1.ns }
      ([exported.2, imported.2].map Option.isNone, [exported.1.count, imported.1.count],
        [related, called].map (·.1.ns.dependencies.toList))) =
      some ([true, true], [0, 0], [[.dependency 2 1 .refines (some .derives)],
        [.dependency 2 1 .uses (some .instantiates)]]) := by
    decide +kernel
  obtain ⟨built, hbuilt, hread⟩ := exists_ok_of_toOption hbuild
  simp only [List.map_cons, List.map_nil, Prod.mk.injEq, List.cons.injEq, and_true] at hread
  obtain ⟨⟨hexports, himports⟩, ⟨hexported, himported⟩, hrelated, hcalled⟩ := hread
  have h : instantiatedBaseProject.Imported built _ := ⟨hbuilt, _, _, _,
    Project.resolve_of_count_eq_zero (Project.run_eq_of_isNone hexports) hexported,
    Project.resolve_of_count_eq_zero (Project.run_eq_of_isNone himports) himported⟩
  obtain ⟨hrun, hsame, hkept⟩ := passes_commute h
  have hcovers := Schedule.covers_scheduleOf (instantiatedBaseProject.run Imports.pass
    { ns := (instantiatedBaseProject.run Exports.pass { ns := built }).1.ns }).1.ns
  have hreverse := hcovers.reverse
  obtain ⟨result, hresult, -⟩ := hrun _ hcovers.files
  obtain ⟨result', hresult', -⟩ := hrun _ hreverse.files
  refine ⟨built, _, result, result', h, hresult, hresult', ?_, ?_,
    hsame _ _ _ _ hcovers hresult hreverse hresult'⟩
  · refine (hkept _ _ .inheritance .calls hcovers hresult rfl _).2 (.inl ?_)
    exact hrelated ▸ List.mem_singleton_self _
  · refine (hkept _ _ .calls .inheritance hreverse hresult' rfl _).2 (.inl ?_)
    exact hcalled ▸ List.mem_singleton_self _

end CodeAtlas
