import CodeAtlas.Proofs.Folds
import CodeAtlas.Proofs.Walk

/-!
# Trees of files

A project is a tree of files and directories. While it is built its files are found by walking the
tree, and later they are read again by their paths. Both give the same file if the entries of each
directory have different names.

## Names

The entries of a directory have different names (`Entry.Distinct`), so that a file is read by the
path it was found at (`Entry.read_of_leads`), and one path leads to one directory
(`Entry.eq_of_leads`). Names are different because they are in order (`Entry.Ordered`), and they
stay in order when files are written and directories are made (`Entry.Ordered.write`,
`Entry.Ordered.makeDirectory`). So the tree of a project on such a disk has different names
(`Project.distinct_of_locate`).

## The order of the walk

Where names are different, the walk comes to no directory after one that it is below
(`Project.pairwise_directories`), and a directory that is built is listed in the one around it, if
that is built too (`Project.mem_subdirectories`).
-/

namespace CodeAtlas

namespace Entry

variable {entries entries' inner found : List Entry} {steps : List Step} {name : String} {e : Entry}
  {bytes : ByteArray} {path : Path}

/-! ### Reading what was found -/

/-- A file that holds a text has this text. -/
theorem decode_toUTF8 (text : String) : decode text.toUTF8 = .ok text := by
  have htext : String.fromUTF8? text.toUTF8 = some text := dif_pos text.isValidUTF8
  rw [decode, htext]

/-- In each directory of a tree names are different. -/
def Distinct (entries : List Entry) : Prop :=
  ∀ steps found, Leads entries steps found → (found.map Entry.name).Nodup

/-- Where names are different they are different in each directory inside. -/
theorem Distinct.inside {before after : List Entry}
    (h : Distinct (before ++ .directory name inner :: after)) : Distinct inner :=
  fun _ _ hleads ↦ h _ _ (.inside hleads)

/-- An entry is found by its name, if no other has it. -/
theorem find?_of_mem (h : (entries.map Entry.name).Nodup) (he : e ∈ entries) :
    find? entries e.name = some e := by
  induction entries with
  | nil => cases he
  | cons other rest ih =>
    rw [List.map_cons, List.nodup_cons] at h
    unfold find?
    rcases List.mem_cons.1 he with rfl | he
    · rw [List.find?_cons, beq_self_eq_true]
    · have hne : (other.name == e.name) = false := by
        rw [beq_eq_false_iff_ne]
        exact fun heq ↦ h.1 (heq ▸ List.mem_map_of_mem he)
      rw [List.find?_cons, hne]
      exact ih h.2 he

/-- A path is read by its first name, and the rest in the directory with that name. -/
theorem read_cons (h : path ≠ []) :
    read entries (name :: path) =
      match find? entries name with
      | none => .error .notFound
      | some (file ..) => .error .notDirectory
      | some (directory _ inner) => read inner path := by
  cases path with
  | nil => exact absurd rfl h
  | cons => rfl

/-- A file in a directory is read by the path of the directory and its name. -/
theorem read_of_leads (h : Distinct entries) (hleads : Leads entries steps found)
    (hfile : .file name bytes ∈ found) :
    read entries (Step.names steps ++ [name]) = .ok bytes := by
  induction hleads with
  | here entries =>
    have hfind := find?_of_mem (h [] entries (.here entries)) hfile
    show read entries [name] = _
    rw [read, show find? entries name = some (.file name bytes) from hfind]
  | @inside before inner after found directoryName steps hleads ih =>
    have hfind := find?_of_mem (h [] _ (.here _))
      (List.mem_append_right before List.mem_cons_self)
    show read _ (directoryName :: (Step.names steps ++ [name])) = _
    rw [read_cons (by simp),
      show find? _ directoryName = some (.directory directoryName inner) from hfind]
    exact ih h.inside hfile

/-! ### Ways to a directory -/

/-- Where names are different they are different without the first entry. -/
theorem Distinct.tail (h : Distinct (e :: entries)) : Distinct entries := by
  intro steps found hleads
  cases hleads with
  | here =>
    have hnodup := h [] _ (.here _)
    rw [List.map_cons] at hnodup
    exact hnodup.of_cons
  | @inside before inner after _ name steps hinner =>
    have hleads : Leads (e :: before ++ .directory name inner :: after) _ found := .inside hinner
    exact h _ found hleads

/-- The last step is one within the directory before it. -/
theorem exists_leads_of_append {step : Step} (h : Leads entries (steps ++ [step]) found) :
    ∃ around, Leads entries steps around ∧ .directory step.name found ∈ around := by
  induction steps generalizing entries with
  | nil =>
    generalize hsteps : [] ++ [step] = all at h
    cases h with
    | here => cases hsteps
    | inside hinner =>
      cases hsteps
      cases hinner
      exact ⟨_, .here _, List.mem_append_right _ List.mem_cons_self⟩
  | cons first steps ih =>
    generalize hsteps : first :: steps ++ [step] = all at h
    cases h with
    | here => cases hsteps
    | inside hinner =>
      cases hsteps
      obtain ⟨around, hleads, hmem⟩ := ih hinner
      exact ⟨around, .inside hleads, hmem⟩

/-- A directory within one that steps lead to is one step further. -/
theorem exists_leads_append (h : Leads entries steps found) (hmem : .directory name inner ∈ found) :
    ∃ before, Leads entries (steps ++ [⟨before, name⟩]) inner := by
  induction h with
  | here entries =>
    obtain ⟨before, after, rfl⟩ := List.append_of_mem hmem
    exact ⟨before, .inside (.here inner)⟩
  | inside _ ih =>
    obtain ⟨before, hleads⟩ := ih hmem
    exact ⟨before, .inside hleads⟩

/-- One path leads to one directory. -/
theorem eq_of_leads {steps' : List Step} {found' : List Entry} (h : Distinct entries)
    (hleads : Leads entries steps found) (hleads' : Leads entries steps' found')
    (hnames : Step.names steps = Step.names steps') : found = found' := by
  induction hleads generalizing steps' with
  | here entries =>
    cases hleads' with
    | here => rfl
    | inside => cases hnames
  | @inside before inner after found name steps hinner ih =>
    generalize hall : before ++ .directory name inner :: after = all at hleads'
    cases hleads' with
    | here => cases hnames
    | @inside before' inner' after' _ name' steps' hinner' =>
      obtain ⟨rfl, hrest⟩ := List.cons.inj hnames
      have hfind := find?_of_mem (h [] _ (.here _))
        (List.mem_append_right before List.mem_cons_self)
      have hfind' := find?_of_mem (hall ▸ h [] _ (.here _))
        (List.mem_append_right before' List.mem_cons_self)
      rw [hall] at hfind
      obtain rfl : inner = inner' := by
        have heq := hfind.symm.trans hfind'
        cases heq
        rfl
      exact ih h.inside hinner' hrest

/-! ### The order of the walk -/

/-- What the walk hands over is below an entry. -/
theorem exists_prefix_of_mem_walkList {ignored : Path → Bool} {above : Path} {d : Directory}
    (h : d ∈ walkList ignored above entries) : ∃ e ∈ entries, above ++ [e.name] <+: d.path := by
  obtain ⟨step, steps, hleads, hpath, -⟩ := mem_walkList_iff.1 h
  generalize hsteps : step :: steps = all at hleads
  cases hleads with
  | here => cases hsteps
  | inside =>
    cases hsteps
    refine ⟨_, List.mem_append_right _ List.mem_cons_self, Step.names steps, ?_⟩
    rw [hpath, List.append_assoc]
    rfl

/-- The walk comes to no directory after one that it is below. -/
theorem pairwise_walkList (ignored : Path → Bool) (above : Path) (h : Distinct entries) :
    (walkList ignored above entries).Pairwise fun d d' ↦ ¬ d.path <+: d'.path := by
  induction entries using tree_induction generalizing above with
  | nil => exact .nil
  | file name bytes rest ih =>
    rw [walkList_file]
    exact ih above h.tail
  | directory name inner rest ihInner ihRest =>
    -- what comes after the directory is below other entries
    have hother : ∀ d : Directory, above ++ [name] <+: d.path → ∀ d' ∈ walkList ignored above rest,
        ¬ d.path <+: d'.path := by
      intro d hd d' hd' hbegins
      obtain ⟨e, he, hbegins'⟩ := exists_prefix_of_mem_walkList hd'
      have heq : above ++ [name] = above ++ [e.name] :=
        List.IsPrefix.eq_of_length (List.prefix_of_prefix_length_le (hd.trans hbegins) hbegins'
          (by simp)) (by simp)
      have hnodup := h [] _ (.here _)
      rw [List.map_cons, List.nodup_cons] at hnodup
      refine hnodup.1 ?_
      have hname : name = e.name := List.singleton_inj.1 (List.append_cancel_left heq)
      rw [Entry.name, hname]
      exact List.mem_map_of_mem he
    have hinner : ∀ d ∈ walkList ignored (above ++ [name]) inner, ∃ e ∈ inner,
        above ++ [name] ++ [e.name] <+: d.path := fun d ↦ exists_prefix_of_mem_walkList
    have hdistinct : Distinct inner :=
      Distinct.inside (show Distinct ([] ++ .directory name inner :: rest) from h)
    rw [walkList_directory, List.pairwise_append]
    refine ⟨ihInner (above ++ [name]) hdistinct, ?_, fun d hd d' hd' ↦ ?_⟩
    · split
      · exact .nil
      · exact .cons (hother ⟨above ++ [name], inner⟩ (List.prefix_refl _)) (ihRest above h.tail)
    · obtain ⟨e, -, hbegins⟩ := hinner d hd
      split at hd'
      · cases hd'
      · rcases List.mem_cons.1 hd' with rfl | hd'
        · intro hback
          have hle := (hbegins.trans hback).length_le
          simp at hle
        · exact hother d ((List.prefix_append _ _).trans hbegins) d' hd'

/-! ### Names in order -/

/-- In each directory of a tree names are in order. -/
def Ordered (entries : List Entry) : Prop :=
  ∀ steps found, Leads entries steps found → found.Pairwise fun e e' ↦ e.name < e'.name

/-- Names in order are different. -/
theorem Ordered.distinct (h : Ordered entries) : Distinct entries := by
  intro steps found hleads
  rw [List.Nodup, List.pairwise_map]
  refine (h steps found hleads).imp fun hlt heq ↦ ?_
  exact String.lt_irrefl _ (heq ▸ hlt)

/-- Names are in order in a tree if they are at its top and in each directory inside. -/
theorem ordered_iff :
    Ordered entries ↔ (entries.Pairwise fun e e' ↦ e.name < e'.name) ∧
      ∀ name inner, .directory name inner ∈ entries → Ordered inner := by
  constructor
  · intro h
    refine ⟨h [] entries (.here entries), fun name inner hmem ↦ ?_⟩
    obtain ⟨before, after, rfl⟩ := List.append_of_mem hmem
    exact fun _ _ hleads ↦ h _ _ (.inside hleads)
  · rintro ⟨hsorted, hinner⟩ steps found hleads
    cases hleads with
    | here => exact hsorted
    | inside hleads =>
      exact hinner _ _ (List.mem_append_right _ List.mem_cons_self) _ _ hleads

theorem ordered_nil : Ordered [] :=
  ordered_iff.2 ⟨.nil, fun _ _ hmem ↦ nomatch hmem⟩

/-- Names are in order in a directory that is found in a tree with names in order. -/
theorem Ordered.of_find? (h : Ordered entries) {other : String}
    (hfind : find? entries name = some (.directory other inner)) : Ordered inner :=
  (ordered_iff.1 h).2 other inner (List.mem_of_find?_eq_some hfind)

/-- After an entry was put among others, there is nothing but that entry and the others. -/
theorem mem_put {other : Entry} (h : other ∈ put e entries) : other = e ∨ other ∈ entries := by
  fun_induction put e entries with
  | case1 => exact .inl (List.mem_singleton.1 h)
  | case2 first rest _ => exact List.mem_cons.1 h
  | case3 first rest _ _ => exact (List.mem_cons.1 h).imp_right (List.mem_cons_of_mem _)
  | case4 first rest _ _ ih =>
    rcases List.mem_cons.1 h with rfl | h
    · exact .inr List.mem_cons_self
    · exact (ih h).imp_right (List.mem_cons_of_mem _)

/-- The names of a directory stay in order when an entry is put among its entries. -/
theorem pairwise_put (h : entries.Pairwise fun e e' ↦ e.name < e'.name) :
    (put e entries).Pairwise fun e e' ↦ e.name < e'.name := by
  fun_induction put e entries with
  | case1 => exact List.pairwise_singleton ..
  | case2 first rest hlt =>
    refine List.pairwise_cons.2 ⟨fun other hother ↦ ?_, h⟩
    rcases List.mem_cons.1 hother with rfl | hother
    · exact hlt
    · exact String.lt_trans hlt ((List.pairwise_cons.1 h).1 other hother)
  | case3 first rest _ heq =>
    obtain ⟨hfirst, hrest⟩ := List.pairwise_cons.1 h
    exact List.pairwise_cons.2 ⟨fun other hother ↦ heq ▸ hfirst other hother, hrest⟩
  | case4 first rest hlt hne ih =>
    obtain ⟨hfirst, hrest⟩ := List.pairwise_cons.1 h
    refine List.pairwise_cons.2 ⟨fun other hother ↦ ?_, ih hrest⟩
    rcases mem_put hother with rfl | hother
    · -- neither before nor equal, so after
      have hle : first.name ≤ other.name := String.not_lt.1 hlt
      exact Decidable.byContradiction fun hnot ↦
        hne (String.le_antisymm (String.not_lt.1 hnot) hle)
    · exact hfirst other hother

/-- An entry is put where its name belongs. -/
theorem Ordered.put (h : Ordered entries)
    (he : ∀ name inner, e = .directory name inner → Ordered inner) : Ordered (put e entries) := by
  obtain ⟨hsorted, hinner⟩ := ordered_iff.1 h
  refine ordered_iff.2 ⟨pairwise_put hsorted, fun name inner hmem ↦ ?_⟩
  rcases mem_put hmem with heq | hmem
  · exact he name inner heq.symm
  · exact hinner name inner hmem

theorem Ordered.put_directory (h : Ordered entries) (hinner : Ordered inner) (name : String) :
    Ordered (Entry.put (.directory name inner) entries) :=
  h.put fun _ _ heq ↦ by cases heq; exact hinner

/-- Making a directory keeps names in order. -/
theorem Ordered.makeDirectory (h : Ordered entries)
    (hmake : Entry.makeDirectory entries path = .ok entries') : Ordered entries' := by
  induction path generalizing entries entries' with
  | nil =>
    cases hmake
    exact h
  | cons name rest ih =>
    rw [Entry.makeDirectory] at hmake
    split at hmake
    · obtain ⟨inner, hinner, hput⟩ := bind_eq_ok_iff.1 hmake
      cases hput
      exact h.put_directory (ih ordered_nil hinner) name
    · cases hmake
    · next other inner hfind =>
      obtain ⟨inner', hinner', hput⟩ := bind_eq_ok_iff.1 hmake
      cases hput
      exact h.put_directory (ih (h.of_find? hfind) hinner') name

/-- Writing a file keeps names in order. -/
theorem Ordered.write (h : Ordered entries)
    (hwrite : Entry.write entries bytes path = .ok entries') : Ordered entries' := by
  fun_induction Entry.write entries bytes path generalizing entries' with
  | case1 => cases hwrite
  | case2 => cases hwrite
  | case3 =>
    cases hwrite
    exact h.put nofun
  | case4 => cases hwrite
  | case5 => cases hwrite
  | case6 entries name rest _ other inner hfind ih =>
    obtain ⟨inner', hinner', hput⟩ := bind_eq_ok_iff.1 hwrite
    cases hput
    exact h.put_directory (ih (h.of_find? hfind) hinner') name

theorem Ordered.list (h : Ordered entries) (hlist : Entry.list entries path = .ok inner) :
    Ordered inner := by
  induction path generalizing entries with
  | nil =>
    cases hlist
    exact h
  | cons name rest ih =>
    rw [Entry.list] at hlist
    split at hlist
    · cases hlist
    · cases hlist
    · next other inner' hfind => exact ih (h.of_find? hfind) hlist

end Entry

/-- **Different names.** The project in a directory of a disk whose names are in order has different
names in each directory. -/
theorem Project.distinct_of_locate {disk : Disk} (h : Entry.Ordered disk.entries) {root : String}
    {name : Option String} {exclude : List String} {project : Project}
    (hlocate : Project.locate disk root name exclude = .ok project) :
    Entry.Distinct project.entries := by
  obtain ⟨path, -, hnamed⟩ := bind_eq_ok_iff.1 hlocate
  dsimp only at hnamed
  split at hnamed
  · obtain ⟨name, -, hlisted⟩ := bind_eq_ok_iff.1 hnamed
    split at hlisted
    · cases hlisted
    · next entries hlist =>
      cases hlisted
      exact (h.list hlist).distinct
  · cases hnamed

/-- The walk of a root comes to no directory after one that it is below. -/
theorem Directory.pairwise_walk (ignored : Path → Bool) {root : List Entry}
    (h : Entry.Distinct root) :
    (Directory.walk ignored root).Pairwise fun d d' ↦ ¬ d.path <+: d'.path := by
  rw [Directory.walk, List.pairwise_append]
  refine ⟨Entry.pairwise_walkList _ _ h, List.pairwise_singleton _ _, fun d hd d' hd' ↦ ?_⟩
  cases List.mem_singleton.1 hd'
  obtain ⟨e, -, hbegins⟩ := Entry.exists_prefix_of_mem_walkList hd
  intro hback
  have hle := (hbegins.trans hback).length_le
  simp at hle

namespace Project

variable {project : Project} {d d' : Directory} {name : String}

/-- No directory is built after one that it is below. -/
theorem pairwise_directories (h : Entry.Distinct project.entries) :
    project.directories.Pairwise fun d d' ↦ ¬ d.path <+: d'.path :=
  Directory.pairwise_walk _ h

/-- A directory does not have its turn after the one around it. -/
theorem not_mem_later (h : Entry.Distinct project.entries) (hpath : d.path = d'.path ++ [name])
    (earlier later : List Directory) (hdirectories : project.directories = earlier ++ d' :: later) :
    d ∉ later := by
  intro hd
  have hpairwise := pairwise_directories h
  rw [hdirectories, List.pairwise_append, List.pairwise_cons] at hpairwise
  refine hpairwise.2.1.1 d hd ?_
  rw [hpath]
  exact List.prefix_append _ _

/-- A directory that is built is listed in the one around it. -/
theorem mem_subdirectories (h : Entry.Distinct project.entries) (hd : d ∈ project.directories)
    (hd' : d' ∈ project.directories) (hpath : d.path = d'.path ++ [name]) :
    name ∈ (d'.listing project.filter).subdirectories := by
  obtain ⟨steps, hleads, hsteps⟩ := exists_leads_of_mem_directories hd
  obtain ⟨steps', hleads', hsteps'⟩ := exists_leads_of_mem_directories hd'
  have hignored : project.filter.ignores d.path true = false := by
    rcases List.mem_append.1 hd with hd | hd
    · obtain ⟨_, _, -, -, hignored, -⟩ := Entry.mem_walkList_iff.1 hd
      exact hignored
    · cases List.mem_singleton.1 hd
      simp at hpath
  have hmem : .directory name d.entries ∈ d'.entries := by
    rw [hsteps, hsteps', Step.names] at hpath
    obtain ⟨init, last, rfl, hinit, hlast⟩ := List.map_eq_append_iff.1 hpath
    obtain ⟨step, rfl, rfl⟩ := List.map_eq_singleton_iff.1 hlast
    obtain ⟨around, haround, hmem⟩ := Entry.exists_leads_of_append hleads
    rwa [Entry.eq_of_leads h haround hleads' hinit] at hmem
  refine List.mem_filterMap.2 ⟨.directory name d.entries, List.mem_filter.2 ⟨hmem, ?_⟩, rfl⟩
  show (!project.filter.ignores (d'.path ++ [name]) true) = true
  rw [← hpath, hignored]
  rfl

end Project

end CodeAtlas
