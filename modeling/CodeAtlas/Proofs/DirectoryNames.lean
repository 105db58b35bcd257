import CodeAtlas.Proofs.Layout

/-!
# Every directory gets an entity

A directory gets no entity if its name is taken when its turn comes. Where the names of directories
have no dots this does not happen.

## Names are free

What is new in the turn of a directory is named inside it (`Namespace.TurnEnd.segments_prefix`), so
whatever has a name after some turns is inside one of the directories that had them
(`Project.exists_mem_of_get?`), and no directory is built after one that it is inside of. A
directory whose name was taken would therefore be inside a directory that was built before it, by
name. Without dots in their names directories are inside each other by name exactly if they are by
path (`Project.Undotted`), so this is excluded, and each directory that is built gets an entity
(`Project.exists_gets`).

With a dot it does happen: the directory `a.b` has the name of the directory `b` in `a`, and of the
two only the first to have its turn gets an entity.

## Which directories are built

Where no directory is ignored (`Project.Unfiltered`), all of them are built
(`Project.mem_directories_of_leads`), and each but the root is inside another that is built
(`Project.eq_root_or_exists_around`).
-/

namespace CodeAtlas

/-! ### Which directories there are -/

theorem eq_of_leads_nil {entries found : List Entry} (h : Leads entries [] found) :
    found = entries := by
  cases h
  rfl

/-- On a way through directories none of which is ignored, no ignored directory is passed. -/
theorem clear_of_leads {ignored : Path → Bool} {above : Path} {entries found : List Entry}
    {steps : List Step}
    (h : ∀ steps found, steps ≠ [] → Leads entries steps found →
      ignored (above ++ Step.names steps) = false)
    (hleads : Leads entries steps found) : Clear ignored above steps := by
  induction hleads generalizing above with
  | here => trivial
  | @inside before inner after found name steps hleads ih =>
    refine ⟨fun e he hdirectory ↦ ?_, ih fun steps' found' _ hinner ↦ ?_⟩
    · obtain ⟨first, rest, rfl⟩ := List.append_of_mem he
      cases e with
      | file => cases hdirectory
      | directory other inner' =>
        refine h [⟨first, other⟩] inner' (List.cons_ne_nil _ _) ?_
        rw [List.append_assoc, List.cons_append]
        exact .inside (.here inner')
    · have hnone := h (⟨before, name⟩ :: steps') found' (List.cons_ne_nil _ _) (.inside hinner)
      rwa [Step.names, List.map_cons, List.append_cons] at hnone

namespace Project

variable {project : Project} {d d' : Directory} {before after ns : Namespace} {id i : Id}
  {e : Entity} {steps : List Step} {found : List Entry}

/-- No directory of a project has a dot in its name. -/
def Undotted (project : Project) : Prop :=
  ∀ steps found, Leads project.entries steps found → ∀ name ∈ Step.names steps, '.' ∉ name.toList

/-- No directory of a project is ignored. -/
def Unfiltered (project : Project) : Prop :=
  ∀ steps found, steps ≠ [] → Leads project.entries steps found →
    project.filter.ignores (Step.names steps) true = false

/-- Where no directory is ignored, all are built. -/
theorem mem_directories_of_leads (h : project.Unfiltered)
    (hleads : Leads project.entries steps found) :
    ⟨Step.names steps, found⟩ ∈ project.directories := by
  cases steps with
  | nil =>
    rw [eq_of_leads_nil hleads]
    exact List.mem_append_right _ List.mem_cons_self
  | cons step steps =>
    refine List.mem_append_left _ (Entry.mem_walkList_iff.2 ⟨step, steps, hleads, rfl, ?_, ?_⟩)
    · exact h (step :: steps) found (List.cons_ne_nil _ _) hleads
    · exact clear_of_leads h hleads

/-- Where no directory is ignored, it is enough that those that are built have no dots in their
names. -/
theorem undotted_of_directories (hfilter : project.Unfiltered)
    (h : ∀ d ∈ project.directories, ∀ name ∈ d.path, '.' ∉ name.toList) : project.Undotted :=
  fun _ _ hleads ↦ h _ (mem_directories_of_leads hfilter hleads)

/-- A directory that is built is the root or inside another that is built. -/
theorem eq_root_or_exists_around (h : project.Unfiltered) (hd : d ∈ project.directories) :
    d = ⟨[], project.entries⟩ ∨
      ∃ around ∈ project.directories, ∃ name, d.path = around.path ++ [name] := by
  obtain ⟨path, entries⟩ := d
  obtain ⟨steps, hleads, rfl⟩ := exists_leads_of_mem_directories hd
  rcases List.eq_nil_or_concat' steps with rfl | ⟨init, step, rfl⟩
  · obtain rfl : entries = project.entries := eq_of_leads_nil hleads
    exact .inl rfl
  · obtain ⟨around, haround, -⟩ := Entry.exists_leads_of_append hleads
    refine .inr ⟨⟨Step.names init, around⟩, mem_directories_of_leads h haround, step.name, ?_⟩
    exact List.map_append

/-- No name on the path of a directory that is built has a dot. -/
theorem Undotted.not_mem (h : project.Undotted) (hd : d ∈ project.directories) {name : String}
    (hname : name ∈ d.path) : '.' ∉ name.toList := by
  obtain ⟨steps, hleads, hsteps⟩ := exists_leads_of_mem_directories hd
  exact h steps _ hleads name (hsteps ▸ hname)

end Project

/-! ### What a turn brings -/

namespace Namespace

variable {project : Project} {d : Directory} {before after : Namespace} {i : Id} {e : Entity}

/-- What holds something new is new. -/
theorem TurnEnd.le_of_holds (h : TurnEnd project d before after) (hbefore : before.Orderly [])
    {owner : Id} {s : Shelf} (hi : before.nextId ≤ i) (hholds : after.Holds owner s i) :
    before.nextId ≤ owner := by
  by_contra hlt
  obtain ⟨-, kind, hkind, -⟩ := hbefore.held owner s i
    ((holds_congr (h.below owner (Nat.lt_of_not_le hlt))).1 hholds)
  have hold := hbefore.bounded i (by rw [hkind]; rfl)
  exact Nat.not_le.2 hold hi

/-- A new module is named inside the directory. -/
theorem TurnEnd.exists_name_of_component (h : TurnEnd project d before after)
    (hi : before.nextId < i) (he : after.get? i = some e) (hkind : e.kind = .component) :
    ∃ file, e.qualName = .ofPath project.name d.path (some file) := by
  obtain ⟨files, -, hplaced, hfiled⟩ := h.files
  obtain ⟨f, hf, rfl⟩ := hfiled i (Nat.le_of_lt hi) (by rw [kind?, he, Option.map_some, hkind])
  cases hplaced f hf with
  | marker => exact absurd hi (Nat.lt_irrefl _)
  | @module file _ _ _ hid _ _ hname =>
    cases hid.symm.trans he
    exact ⟨file, hname⟩

/-- What is new in the turn of a directory is named inside it. -/
theorem TurnEnd.segments_prefix (h : TurnEnd project d before after) (hbefore : before.Orderly [])
    (hi : before.nextId ≤ i) (he : after.get? i = some e) :
    (QualName.ofPath project.name d.path none).segments <+: e.qualName.segments := by
  -- towards the entity of the directory, along what holds each other
  induction i using h.orderly.toConsistent.parent_induction generalizing e with
  | step i ih =>
    rcases Nat.eq_or_lt_of_le hi with rfl | hlt
    · exact (congrArg QualName.segments (h.entity e he).1).symm ▸ List.prefix_rfl
    have hother : ¬ e.body.OfDirectory := fun hdirectory ↦ h.others i hlt ⟨e, he, hdirectory⟩
    have hkind : after.kind? i = some e.kind := by rw [kind?, he, Option.map_some]
    have hdeclared : e.kind = .cls ∨ e.kind = .function →
        (QualName.ofPath project.name d.path none).segments <+: e.qualName.segments := by
      intro hcases
      obtain ⟨owner, s, -, hparent, hholds⟩ := (h.orderly.owned i _ hkind).exists_holds hcases
      obtain ⟨e', he', name, hname, hlookup⟩ := parent?_eq_some_iff.1 hparent
      cases he.symm.trans he'
      obtain ⟨o, ho, rfl⟩ := h.orderly.exists_of_lookup name owner hlookup
      exact (ih owner hparent (h.le_of_holds hbefore hi hholds) ho).trans
        (QualName.segments_prefix_of_parent hname)
    cases hbody : e.kind with
    | package => exact absurd (.inl hbody) hother
    | component =>
      obtain ⟨file, hname⟩ := h.exists_name_of_component hlt he hbody
      rw [hname, QualName.ofPath_file, QualName.segments_child (QualName.not_mem_stem file)]
      exact List.prefix_append _ _
    | cls => exact hdeclared (.inl hbody)
    | function => exact hdeclared (.inr hbody)

end Namespace

/-! ### Names are free -/

namespace Project

variable {project : Project} {d : Directory} {before after ns : Namespace} {id i : Id} {e : Entity}
  {earlier later : List Directory}

/-- After some turns each entity is named inside one of the directories that had them. -/
theorem exists_mem_of_get? (hdirectories : project.directories = earlier ++ later)
    (h : earlier.foldlM (Namespace.addDirectory project) { project := project.name } = .ok ns)
    (he : ns.get? i = some e) :
    ∃ d ∈ earlier,
      (QualName.ofPath project.name d.path none).segments <+: e.qualName.segments := by
  induction earlier using List.reverseRecOn generalizing later ns with
  | nil =>
    cases h
    simp [Namespace.get?] at he
  | append_singleton init d ih =>
    obtain ⟨before, hbefore, hlast⟩ := foldlM_append_eq_ok_iff.1 h
    obtain ⟨after, hafter, hnil⟩ := foldlM_cons_eq_ok_iff.1 hlast
    cases hnil
    rw [List.append_assoc, List.singleton_append] at hdirectories
    have hturn : project.Turn d before _ := ⟨init, later, hdirectories, hbefore, hafter⟩
    have horderly := hturn.complete_before.toOrderly
    have hold : before.get? i = some e → ∃ d' ∈ init ++ [d],
        (QualName.ofPath project.name d'.path none).segments <+: e.qualName.segments := by
      intro he
      obtain ⟨d', hd', hname⟩ := ih hdirectories hbefore he
      exact ⟨d', List.mem_append_left _ hd', hname⟩
    rcases hturn.cases horderly with ⟨-, root, rfl⟩ | ⟨-, hend⟩
    · exact hold he
    · rcases Nat.lt_or_ge i before.nextId with hlt | hge
      · exact hold (hend.below i hlt ▸ he)
      · exact ⟨d, List.mem_append_right _ List.mem_cons_self,
          hend.segments_prefix horderly hge he⟩

/-- Where directories have different names without dots, the name of a directory is free at its
turn. -/
theorem Turn.lookup_eq_none (h : project.Turn d before after)
    (hdistinct : Entry.Distinct project.entries) (hdots : project.Undotted) :
    before.lookup (.ofPath project.name d.path none) = none := by
  have hconsistent := h.complete_before.toConsistent
  obtain ⟨earlier, later, hdirectories, hbefore, -⟩ := h
  cases hlookup : before.lookup (.ofPath project.name d.path none) with
  | none => rfl
  | some i =>
    -- it would be inside a directory whose turn was before
    obtain ⟨e, he, hname⟩ := hconsistent.exists_of_lookup _ i hlookup
    obtain ⟨d', hd', hinside⟩ := exists_mem_of_get? hdirectories hbefore he
    have hmem : ∀ {d'}, d' ∈ earlier ∨ d' = d → d' ∈ project.directories := by
      rintro d' (hd' | rfl)
      · exact hdirectories ▸ List.mem_append_left _ hd'
      · exact hdirectories ▸ List.mem_append_right _ List.mem_cons_self
    have hpairwise := pairwise_directories hdistinct
    rw [hdirectories, List.pairwise_append] at hpairwise
    refine absurd ?_ (hpairwise.2.2 d' hd' d List.mem_cons_self)
    rw [hname, QualName.segments_ofPath fun name ↦ hdots.not_mem (hmem (.inl hd')),
      QualName.segments_ofPath fun name ↦ hdots.not_mem (hmem (.inr rfl))] at hinside
    exact (List.prefix_append_right_inj _).1 hinside

/-- Each directory has its turn. -/
theorem exists_turn (h : project.build = .ok ns) (hd : d ∈ project.directories) :
    ∃ before after, project.Turn d before after := by
  obtain ⟨earlier, later, hdirectories⟩ := List.append_of_mem hd
  rw [build, hdirectories] at h
  obtain ⟨before, hbefore, hlast⟩ := foldlM_append_eq_ok_iff.1 h
  obtain ⟨after, hafter, -⟩ := foldlM_cons_eq_ok_iff.1 hlast
  exact ⟨before, after, earlier, later, hdirectories, hbefore, hafter⟩

/-- Where directories have different names without dots, each gets an entity. -/
theorem exists_gets (h : project.build = .ok ns) (hdistinct : Entry.Distinct project.entries)
    (hdots : project.Undotted) (hd : d ∈ project.directories) : ∃ id, project.Gets d id := by
  obtain ⟨before, after, hturn⟩ := exists_turn h hd
  exact ⟨_, before, after, hturn, hturn.lookup_eq_none hdistinct hdots, rfl⟩

end Project

end CodeAtlas
