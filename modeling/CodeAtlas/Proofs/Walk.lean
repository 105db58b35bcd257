import Mathlib.Data.List.Basic
import CodeAtlas.Build

/-!
# Which directories are built

The filter says which directories are ignored. Two sets of directories are compared here: the
visible ones, neither ignored nor inside an ignored one, and those that the walk hands over.

## The walk

The walk asks the filter about a directory only after what is below it has been handed over, and
leaves the parent of a directory that is ignored. So it does not look at the directories around a
directory but at those before it: a directory is handed over if it is not ignored itself and, on the
way to it, no step passes an ignored directory (`mem_walkList_iff`). To say this, a way into a tree
is a list of steps, each with the entries that stand before the one it goes into (`Leads`).

## Where it is right

Two things can go wrong with an ignored directory: what is inside it is handed over, and what comes
after it is lost. The two agree exactly if neither happens in any visible directory, that is,
nothing is handed over from inside the first directory that is ignored, and all directories after it
are ignored too (`Harmless`). That one fault could make up for another is excluded by counting: as
long as all that is handed over is visible it is so in the same order
(`walkList_sublist_visibleList`), so the walk can only lose directories.

`directories_eq_visibleDirectories_iff` states this of a project, whose root is built in any case.
-/

namespace CodeAtlas

/-! ### Trees of entries -/

/-- Induction on a tree of entries: what is inside a directory and what comes after it are both
smaller. -/
theorem Entry.tree_induction {motive : List Entry → Prop} (nil : motive [])
    (file : ∀ name bytes rest, motive rest → motive (.file name bytes :: rest))
    (directory : ∀ name inner rest, motive inner → motive rest →
      motive (.directory name inner :: rest)) : ∀ entries, motive entries
  | [] => nil
  | .file name bytes :: rest => file name bytes rest (tree_induction nil file directory rest)
  | .directory name inner :: rest =>
    directory name inner rest (tree_induction nil file directory inner)
      (tree_induction nil file directory rest)

/-- A step into a directory: the entries that stand before it, and its name. -/
structure Step where
  before : List Entry
  name : String

/-- Steps lead from the entries of a directory to those of a directory below it. -/
inductive Leads : List Entry → List Step → List Entry → Prop
  | here (entries : List Entry) : Leads entries [] entries
  | inside {before inner after found : List Entry} {name : String} {steps : List Step}
      (h : Leads inner steps found) :
      Leads (before ++ .directory name inner :: after) (⟨before, name⟩ :: steps) found

/-- The path of the directory that steps lead to. -/
def Step.names (steps : List Step) : Path :=
  steps.map Step.name

variable {ignored : Path → Bool} {above : Path} {entries inner rest found : List Entry}
  {name : String} {step : Step} {steps : List Step} {d : Directory}

/-- There is no step into an empty directory. -/
theorem not_leads_nil : ¬ Leads [] (step :: steps) found := by
  generalize hentries : ([] : List Entry) = entries
  generalize hsteps : step :: steps = all
  rintro (_ | h)
  · cases hsteps
  · simp at hentries

/-- The first of some steps goes into the first entry, or it passes this entry. -/
theorem exists_leads_cons_iff {e : Entry} {holds : Step → List Step → Prop} :
    (∃ step steps, Leads (e :: rest) (step :: steps) found ∧ holds step steps) ↔
      (∃ name inner steps, e = .directory name inner ∧ Leads inner steps found ∧
        holds ⟨[], name⟩ steps) ∨
      ∃ step steps, Leads rest (step :: steps) found ∧
        holds ⟨e :: step.before, step.name⟩ steps := by
  constructor
  · rintro ⟨step, steps, hleads, h⟩
    generalize hentries : e :: rest = entries at hleads
    generalize hsteps : step :: steps = all at hleads
    cases hleads with
    | here => cases hsteps
    | @inside before inner after _ name _ hleads =>
      cases hsteps
      cases before with
      | nil =>
        cases hentries
        exact .inl ⟨name, inner, steps, rfl, hleads, h⟩
      | cons e' before =>
        cases hentries
        exact .inr ⟨⟨before, name⟩, steps, .inside hleads, h⟩
  · rintro (⟨name, inner, steps, rfl, hleads, h⟩ | ⟨step, steps, hleads, h⟩)
    · refine ⟨⟨[], name⟩, steps, ?_, h⟩
      show Leads ([] ++ .directory name inner :: rest) _ _
      exact .inside hleads
    · cases hleads with
      | @inside before inner after _ name _ hleads =>
        refine ⟨⟨e :: before, name⟩, steps, ?_, h⟩
        show Leads ((e :: before) ++ .directory name inner :: after) _ _
        exact .inside hleads

/-! ### What the walk hands over -/

/-- No step passes an ignored directory. -/
def Clear (ignored : Path → Bool) : Path → List Step → Prop
  | _, [] => True
  | above, step :: steps =>
    (∀ e ∈ step.before, e.isDirectory → ignored (above ++ [e.name]) = false) ∧
      Clear ignored (above ++ [step.name]) steps

namespace Entry

theorem walkList_file (bytes : ByteArray) :
    walkList ignored above (.file name bytes :: rest) = walkList ignored above rest := by
  rw [walkList]
  rfl

/-- The walk goes into a directory first, and then goes on unless the directory is ignored. -/
theorem walkList_directory :
    walkList ignored above (.directory name inner :: rest) =
      walkList ignored (above ++ [name]) inner ++
        if ignored (above ++ [name]) then []
        else ⟨above ++ [name], inner⟩ :: walkList ignored above rest := by
  rw [walkList]
  dsimp only [walk, Entry.isDirectory, Entry.name]
  by_cases h : ignored (above ++ [name]) <;> simp [h]

/-- A directory is handed over if it is not ignored, and no ignored directory is passed on the way
to it. Whether a directory on the way is ignored itself plays no role. -/
theorem mem_walkList_iff :
    d ∈ walkList ignored above entries ↔
      ∃ step steps, Leads entries (step :: steps) d.entries ∧
        d.path = above ++ Step.names (step :: steps) ∧ ignored d.path = false ∧
        Clear ignored above (step :: steps) := by
  induction entries using tree_induction generalizing above with
  | nil =>
    refine ⟨fun h ↦ absurd h List.not_mem_nil, ?_⟩
    rintro ⟨step, steps, hleads, -⟩
    exact absurd hleads not_leads_nil
  | file name bytes rest ih =>
    rw [walkList_file, ih, exists_leads_cons_iff]
    simp [Clear, Step.names, Entry.isDirectory]
  | directory name inner rest ihInner ihRest =>
    rw [walkList_directory, List.mem_append, ihInner, exists_leads_cons_iff]
    constructor
    · rintro (⟨step, steps, hleads, hpath, hself, hclear⟩ | h)
      · refine .inl ⟨name, inner, step :: steps, rfl, hleads, ?_, hself, by simp, hclear⟩
        simpa [Step.names] using hpath
      · split at h
        · cases h
        · next hname =>
          rcases List.mem_cons.1 h with rfl | h
          · exact .inl ⟨name, inner, [], rfl, .here inner, rfl, by simpa using hname, by simp,
              trivial⟩
          · obtain ⟨step, steps, hleads, hpath, hself, hbefore, hclear⟩ := ihRest.1 h
            refine .inr ⟨step, steps, hleads, hpath, hself, fun e he hdir ↦ ?_, hclear⟩
            rcases List.mem_cons.1 he with rfl | he
            · exact Bool.eq_false_iff.2 hname
            · exact hbefore e he hdir
    · rintro (⟨_, _, steps, heq, hleads, hpath, hself, -, hclear⟩ |
        ⟨step, steps, hleads, hpath, hself, hbefore, hclear⟩)
      · cases heq
        cases steps with
        | nil =>
          -- the way ends here, so the directory is the one that was entered
          obtain ⟨path, found⟩ := d
          cases hleads
          cases hpath
          refine .inr ?_
          rw [if_neg (by simpa [Step.names] using hself)]
          exact List.mem_cons_self
        | cons step steps =>
          refine .inl ⟨step, steps, hleads, ?_, hself, hclear⟩
          simpa [Step.names] using hpath
      · have hname : ignored (above ++ [name]) = false :=
          hbefore (.directory name inner) List.mem_cons_self rfl
        refine .inr ?_
        rw [hname, if_neg Bool.false_ne_true]
        refine List.mem_cons_of_mem _ (ihRest.2 ⟨step, steps, hleads, hpath, hself, ?_, hclear⟩)
        exact fun e he ↦ hbefore e (List.mem_cons_of_mem _ he)

/-! ### What is visible -/

/-- Nothing on the way from a directory along some names is ignored. -/
def Open (ignored : Path → Bool) (above names : Path) : Prop :=
  ∀ p ≠ [], p <+: names → ignored (above ++ p) = false

theorem open_nil : Open ignored above [] :=
  fun _ hp hprefix ↦ absurd (List.prefix_nil.1 hprefix) hp

/-- Nothing along some names is ignored if the first directory is not, and nothing below it. -/
theorem open_cons_iff {names : Path} :
    Open ignored above (name :: names) ↔
      ignored (above ++ [name]) = false ∧ Open ignored (above ++ [name]) names := by
  constructor
  · intro h
    refine ⟨h [name] (by simp) (by simp), fun p _ hprefix ↦ ?_⟩
    rw [List.append_assoc]
    exact h (name :: p) (by simp) (by simpa using hprefix)
  · rintro ⟨hname, hnames⟩ p hp hprefix
    rcases List.prefix_cons_iff.1 hprefix with rfl | ⟨q, rfl, hq⟩
    · exact absurd rfl hp
    · by_cases hnil : q = []
      · rw [hnil]
        exact hname
      · rw [List.append_cons]
        exact hnames q hnil hq

mutual

/-- The visible directories of an entry, from the inside out. -/
def visible (ignored : Path → Bool) (above : Path) : Entry → List Directory
  | .file .. => []
  | .directory name inner =>
    let path := above ++ [name]
    if ignored path then [] else visibleList ignored path inner ++ [⟨path, inner⟩]

/-- The visible directories below a directory. -/
def visibleList (ignored : Path → Bool) (above : Path) : List Entry → List Directory
  | [] => []
  | e :: rest => visible ignored above e ++ visibleList ignored above rest

end

theorem visibleList_file (bytes : ByteArray) :
    visibleList ignored above (.file name bytes :: rest) = visibleList ignored above rest := by
  rw [visibleList]
  rfl

/-- A directory is visible, and all that is visible in it, unless it is ignored. -/
theorem visibleList_directory :
    visibleList ignored above (.directory name inner :: rest) =
      if ignored (above ++ [name]) then visibleList ignored above rest
      else visibleList ignored (above ++ [name]) inner ++
        ⟨above ++ [name], inner⟩ :: visibleList ignored above rest := by
  rw [visibleList]
  dsimp only [visible]
  by_cases h : ignored (above ++ [name]) <;> simp [h]

/-- A directory is visible if neither it nor a directory on the way to it is ignored. -/
theorem mem_visibleList_iff :
    d ∈ visibleList ignored above entries ↔
      ∃ step steps, Leads entries (step :: steps) d.entries ∧
        d.path = above ++ Step.names (step :: steps) ∧
        Open ignored above (Step.names (step :: steps)) := by
  induction entries using tree_induction generalizing above with
  | nil =>
    refine ⟨fun h ↦ absurd h List.not_mem_nil, ?_⟩
    rintro ⟨step, steps, hleads, -⟩
    exact absurd hleads not_leads_nil
  | file name bytes rest ih =>
    rw [visibleList_file, ih, exists_leads_cons_iff]
    simp [Step.names]
  | directory name inner rest ihInner ihRest =>
    rw [visibleList_directory, exists_leads_cons_iff]
    by_cases hname : ignored (above ++ [name])
    · -- no way that begins here is open
      rw [if_pos hname, ihRest]
      refine ⟨.inr, ?_⟩
      rintro (⟨_, _, steps, heq, -, -, hopen⟩ | h)
      · cases heq
        have hself := (open_cons_iff.1 hopen).1
        rw [hname] at hself
        cases hself
      · exact h
    · rw [if_neg hname, List.mem_append, List.mem_cons, ihInner, ihRest]
      constructor
      · rintro (⟨step, steps, hleads, hpath, hopen⟩ | rfl | h)
        · refine .inl ⟨name, inner, step :: steps, rfl, hleads, ?_, ?_⟩
          · simpa [Step.names] using hpath
          · exact open_cons_iff.2 ⟨Bool.eq_false_iff.2 hname, hopen⟩
        · exact .inl ⟨name, inner, [], rfl, .here inner, rfl,
            open_cons_iff.2 ⟨Bool.eq_false_iff.2 hname, open_nil⟩⟩
        · exact .inr h
      · rintro (⟨_, _, steps, heq, hleads, hpath, hopen⟩ | h)
        · cases heq
          cases steps with
          | nil =>
            obtain ⟨path, found⟩ := d
            cases hleads
            cases hpath
            exact .inr (.inl rfl)
          | cons step steps =>
            refine .inl ⟨step, steps, hleads, ?_, (open_cons_iff.1 hopen).2⟩
            simpa [Step.names] using hpath
        · exact .inr (.inr h)

/-! ### Where the two agree -/

/-- Nothing is handed over: there is no directory, or the first one is ignored and nothing is handed
over from inside it either. -/
inductive Silent (ignored : Path → Bool) : Path → List Entry → Prop
  | nil {above : Path} : Silent ignored above []
  | file {above : Path} {name : String} {bytes : ByteArray} {rest : List Entry}
      (h : Silent ignored above rest) : Silent ignored above (.file name bytes :: rest)
  | directory {above : Path} {name : String} {inner rest : List Entry}
      (hname : ignored (above ++ [name]) = true) (h : Silent ignored (above ++ [name]) inner) :
      Silent ignored above (.directory name inner :: rest)

/-- The walk hands over nothing exactly if the directory is silent. -/
theorem walkList_eq_nil_iff :
    walkList ignored above entries = [] ↔ Silent ignored above entries := by
  induction entries using tree_induction generalizing above with
  | nil => exact ⟨fun _ ↦ .nil, fun _ ↦ rfl⟩
  | file name bytes rest ih =>
    rw [walkList_file, ih]
    refine ⟨.file, fun h ↦ ?_⟩
    cases h with
    | file h => exact h
  | directory name inner rest ihInner _ =>
    rw [walkList_directory, List.append_eq_nil_iff, ihInner]
    constructor
    · rintro ⟨hinner, hrest⟩
      refine .directory ?_ hinner
      by_contra hname
      rw [if_neg hname] at hrest
      cases hrest
    · intro h
      cases h with
      | directory hname h => exact ⟨h, if_pos hname⟩

/-- No directory is visible exactly if all directories at the top are ignored. -/
theorem visibleList_eq_nil_iff :
    visibleList ignored above entries = [] ↔
      ∀ e ∈ entries, e.isDirectory → ignored (above ++ [e.name]) = true := by
  induction entries with
  | nil => exact ⟨fun _ e he ↦ absurd he List.not_mem_nil, fun _ ↦ rfl⟩
  | cons e rest ih =>
    rw [List.forall_mem_cons, ← ih]
    cases e with
    | file name bytes =>
      rw [visibleList_file]
      simp [Entry.isDirectory]
    | directory name inner =>
      rw [visibleList_directory]
      by_cases hname : ignored (above ++ [name]) <;> simp [hname, Entry.isDirectory, Entry.name]

/-- The first directory that is ignored in a directory is silent, and so nothing is found that is
not visible; and no visible directory comes after it, so that nothing is lost. -/
def Harmless (ignored : Path → Bool) (d : Directory) : Prop :=
  ∀ before name inner after, d.entries = before ++ .directory name inner :: after →
    (∀ e ∈ before, e.isDirectory → ignored (d.path ++ [e.name]) = false) →
    ignored (d.path ++ [name]) = true →
      Silent ignored (d.path ++ [name]) inner ∧
        ∀ e ∈ after, e.isDirectory → ignored (d.path ++ [e.name]) = true

theorem harmless_nil : Harmless ignored ⟨above, []⟩ := by
  intro before name inner after h
  simp at h

/-- An entry that is not an ignored directory plays no role. -/
theorem harmless_cons_iff {e : Entry}
    (he : e.isDirectory → ignored (above ++ [e.name]) = false) :
    Harmless ignored ⟨above, e :: rest⟩ ↔ Harmless ignored ⟨above, rest⟩ := by
  constructor
  · intro h before name inner after heq hbefore hname
    refine h (e :: before) name inner after (congrArg (e :: ·) heq) ?_ hname
    exact List.forall_mem_cons.2 ⟨he, hbefore⟩
  · intro h before name inner after heq hbefore hname
    cases before with
    | nil =>
      cases heq
      exact absurd ((he rfl).symm.trans hname) Bool.false_ne_true
    | cons e' before =>
      cases heq
      exact h before name inner after rfl (List.forall_mem_cons.1 hbefore).2 hname

/-- An ignored directory is harmless if it is silent and all directories after it are ignored. -/
theorem harmless_ignored_iff (hname : ignored (above ++ [name]) = true) :
    Harmless ignored ⟨above, .directory name inner :: rest⟩ ↔
      Silent ignored (above ++ [name]) inner ∧
        ∀ e ∈ rest, e.isDirectory → ignored (above ++ [e.name]) = true := by
  constructor
  · intro h
    exact h [] name inner rest rfl (fun e he ↦ absurd he List.not_mem_nil) hname
  · intro h before name' inner' after heq hbefore _
    cases before with
    | nil =>
      cases heq
      exact h
    | cons e' before =>
      cases heq
      have hself := hbefore (.directory name inner) List.mem_cons_self rfl
      exact absurd (hself.symm.trans hname) Bool.false_ne_true

/-- Nothing on the way from a directory to one below it is ignored. -/
def Seen (ignored : Path → Bool) (above : Path) (d : Directory) : Prop :=
  ∃ names, d.path = above ++ names ∧ Open ignored above names

/-- Nothing on the way to a visible directory is ignored. -/
theorem seen_of_mem_visibleList (h : d ∈ visibleList ignored above entries) :
    Seen ignored above d := by
  obtain ⟨step, steps, -, hpath, hopen⟩ := mem_visibleList_iff.1 h
  exact ⟨_, hpath, hopen⟩

/-- What is handed over from inside a directory and seen from outside is seen from inside, and the
directory is not ignored. -/
theorem seen_of_mem_walkList (h : d ∈ walkList ignored (above ++ [name]) inner)
    (hseen : Seen ignored above d) :
    ignored (above ++ [name]) = false ∧ Seen ignored (above ++ [name]) d := by
  obtain ⟨step, steps, -, hpath, -⟩ := mem_walkList_iff.1 h
  obtain ⟨names, hnames, hopen⟩ := hseen
  have heq : names = name :: Step.names (step :: steps) := by
    rw [hnames, List.append_assoc] at hpath
    exact List.append_cancel_left hpath
  rw [heq, open_cons_iff] at hopen
  exact ⟨hopen.1, _, hpath, hopen.2⟩

/-- If all that is handed over is visible, it is so in the same order. -/
theorem walkList_sublist_visibleList
    (h : ∀ d ∈ walkList ignored above entries, Seen ignored above d) :
    (walkList ignored above entries).Sublist (visibleList ignored above entries) := by
  induction entries using tree_induction generalizing above with
  | nil => exact List.Sublist.refl _
  | file name bytes rest ih =>
    rw [walkList_file] at h ⊢
    rw [visibleList_file]
    exact ih h
  | directory name inner rest ihInner ihRest =>
    rw [walkList_directory] at h ⊢
    rw [visibleList_directory]
    have hinner := fun d hd ↦ seen_of_mem_walkList hd (h d (List.mem_append_left _ hd))
    split
    · next hname =>
      -- what is handed over from inside would not be seen
      have hnone : walkList ignored (above ++ [name]) inner = [] :=
        List.eq_nil_iff_forall_not_mem.2 fun d hd ↦
          absurd ((hinner d hd).1.symm.trans hname) Bool.false_ne_true
      rw [hnone]
      exact List.nil_sublist _
    · next hname =>
      rw [if_neg hname] at h
      refine (ihInner fun d hd ↦ (hinner d hd).2).append ((ihRest fun d hd ↦ ?_).cons_cons _)
      exact h d (List.mem_append_right _ (List.mem_cons_of_mem _ hd))

/-- In an ignored directory and what comes after it, nothing that is handed over is visible. -/
theorem walkList_eq_visibleList_of_ignored (hname : ignored (above ++ [name]) = true) :
    walkList ignored (above ++ [name]) inner = visibleList ignored above rest ↔
      walkList ignored (above ++ [name]) inner = [] ∧ visibleList ignored above rest = [] := by
  refine ⟨fun h ↦ ?_, fun h ↦ h.1.trans h.2.symm⟩
  have hnone : walkList ignored (above ++ [name]) inner = [] := by
    refine List.eq_nil_iff_forall_not_mem.2 fun d hd ↦ ?_
    have hseen := seen_of_mem_visibleList (h ▸ hd)
    exact absurd ((seen_of_mem_walkList hd hseen).1.symm.trans hname) Bool.false_ne_true
  exact ⟨hnone, h ▸ hnone⟩

/-- In and after a directory that is not ignored, the walk is right if it is right in and after
it: it can only lose directories as long as all it hands over is visible, so losses on one side
are not made up for on the other. -/
theorem walkList_directory_eq_iff (hname : ¬ ignored (above ++ [name])) :
    walkList ignored above (.directory name inner :: rest) =
        visibleList ignored above (.directory name inner :: rest) ↔
      walkList ignored (above ++ [name]) inner = visibleList ignored (above ++ [name]) inner ∧
        walkList ignored above rest = visibleList ignored above rest := by
  have hwalk : walkList ignored above (.directory name inner :: rest) =
      walkList ignored (above ++ [name]) inner ++
        ⟨above ++ [name], inner⟩ :: walkList ignored above rest := by
    rw [walkList_directory, if_neg hname]
  have hvisible : visibleList ignored above (.directory name inner :: rest) =
      visibleList ignored (above ++ [name]) inner ++
        ⟨above ++ [name], inner⟩ :: visibleList ignored above rest := by
    rw [visibleList_directory, if_neg hname]
  refine ⟨fun h ↦ ?_, fun ⟨hinner, hrest⟩ ↦ by rw [hwalk, hvisible, hinner, hrest]⟩
  have hseen : ∀ d ∈ walkList ignored above (.directory name inner :: rest),
      Seen ignored above d := fun d hd ↦ seen_of_mem_visibleList (h ▸ hd)
  rw [hwalk] at hseen
  have hinner : (walkList ignored (above ++ [name]) inner).Sublist
      (visibleList ignored (above ++ [name]) inner) :=
    walkList_sublist_visibleList fun d hd ↦
      (seen_of_mem_walkList hd (hseen d (List.mem_append_left _ hd))).2
  have hrest : (walkList ignored above rest).Sublist (visibleList ignored above rest) :=
    walkList_sublist_visibleList fun d hd ↦
      hseen d (List.mem_append_right _ (List.mem_cons_of_mem _ hd))
  have hlength := congrArg List.length h
  rw [hwalk, hvisible, List.length_append, List.length_append, List.length_cons,
    List.length_cons] at hlength
  have hinnerLength := hinner.length_le
  have hrestLength := hrest.length_le
  exact ⟨hinner.eq_of_length (by omega), hrest.eq_of_length (by omega)⟩

/-- **Exact exclusion.** The walk hands over the visible directories, and these only, exactly if the
directory itself and all visible directories below it are harmless. -/
theorem walkList_eq_visibleList_iff :
    walkList ignored above entries = visibleList ignored above entries ↔
      (∀ d ∈ visibleList ignored above entries, Harmless ignored d) ∧
        Harmless ignored ⟨above, entries⟩ := by
  induction entries using tree_induction generalizing above with
  | nil => exact ⟨fun _ ↦ ⟨fun d hd ↦ absurd hd List.not_mem_nil, harmless_nil⟩, fun _ ↦ rfl⟩
  | file name bytes rest ih =>
    have hfile : (Entry.file name bytes).isDirectory →
        ignored (above ++ [(Entry.file name bytes).name]) = false := fun h ↦ by cases h
    rw [walkList_file, visibleList_file, ih, harmless_cons_iff hfile]
  | directory name inner rest ihInner ihRest =>
    by_cases hname : ignored (above ++ [name])
    · rw [walkList_directory, visibleList_directory, if_pos hname, if_pos hname, List.append_nil,
        walkList_eq_visibleList_of_ignored hname, harmless_ignored_iff hname,
        ← walkList_eq_nil_iff, ← visibleList_eq_nil_iff]
      refine ⟨fun h ↦ ⟨fun d hd ↦ ?_, h⟩, fun h ↦ h.2⟩
      rw [h.2] at hd
      cases hd
    · have hdirectory : (Entry.directory name inner).isDirectory →
          ignored (above ++ [(Entry.directory name inner).name]) = false :=
        fun _ ↦ Bool.eq_false_iff.2 hname
      rw [walkList_directory_eq_iff hname, ihInner, ihRest, harmless_cons_iff hdirectory,
        visibleList_directory, if_neg hname, List.forall_mem_append, List.forall_mem_cons]
      constructor
      · rintro ⟨⟨hinner, hself⟩, hrest, houter⟩
        exact ⟨⟨hinner, hself, hrest⟩, houter⟩
      · rintro ⟨⟨hinner, hself, hrest⟩, houter⟩
        exact ⟨⟨hinner, hself⟩, hrest, houter⟩

/-- What is inside an ignored directory is found, and what comes after it is lost. -/
example :
    let tree : List Entry := [.directory "a" [.directory "s" []], .directory "b" []]
    (walkList (· == ["a"]) [] tree).map (·.path) = [["a", "s"]] ∧
      (visibleList (· == ["a"]) [] tree).map (·.path) = [["b"]] := by
  decide

end Entry

/-! ### The directories of a project -/

namespace Project

variable (project : Project)

/-- The visible directories of a project in the order they would be built, and its root. -/
def visibleDirectories : List Directory :=
  Entry.visibleList (project.filter.ignores · true) [] project.entries ++ [⟨[], project.entries⟩]

/-- The steps that lead to the root, and those that lead below it. -/
theorem exists_leads_iff {holds : List Step → Prop} (hroot : d.path = [] → holds []) :
    (d = ⟨[], entries⟩ ∨ ∃ step steps, Leads entries (step :: steps) d.entries ∧
        d.path = Step.names (step :: steps) ∧ holds (step :: steps)) ↔
      ∃ steps, Leads entries steps d.entries ∧ d.path = Step.names steps ∧ holds steps := by
  constructor
  · rintro (rfl | ⟨step, steps, h⟩)
    · exact ⟨[], .here entries, rfl, hroot rfl⟩
    · exact ⟨step :: steps, h⟩
  · rintro ⟨steps, hleads, hpath, h⟩
    cases steps with
    | nil =>
      obtain ⟨path, found⟩ := d
      cases hleads
      cases hpath
      exact .inl rfl
    | cons step steps => exact .inr ⟨step, steps, hleads, hpath, h⟩

/-- Each directory that is built is there. -/
theorem exists_leads_of_mem_directories {project : Project} (h : d ∈ project.directories) :
    ∃ steps, Leads project.entries steps d.entries ∧ d.path = Step.names steps := by
  rcases List.mem_append.1 h with h | h
  · obtain ⟨step, steps, hleads, hpath, -⟩ := Entry.mem_walkList_iff.1 h
    exact ⟨step :: steps, hleads, hpath⟩
  · cases List.mem_singleton.1 h
    exact ⟨[], .here _, rfl⟩

/-- **Directories that are built.** A directory below the root is built if it is not ignored and no
ignored directory is passed on the way to it. It is visible if neither it nor a directory on the
way to it is ignored. The two agree, in the order of the walk, exactly if each visible directory is
harmless: the first directory in it that is ignored is silent and has only ignored directories
after it. -/
theorem directories_eq_visibleDirectories_iff :
    (∀ d, d ∈ project.directories ↔ ∃ steps, Leads project.entries steps d.entries ∧
        d.path = Step.names steps ∧ (steps ≠ [] → project.filter.ignores d.path true = false) ∧
        Clear (project.filter.ignores · true) [] steps) ∧
      (∀ d, d ∈ project.visibleDirectories ↔ ∃ steps, Leads project.entries steps d.entries ∧
        d.path = Step.names steps ∧
        ∀ p ≠ [], p <+: d.path → project.filter.ignores p true = false) ∧
      (project.directories = project.visibleDirectories ↔
        ∀ d ∈ project.visibleDirectories, Entry.Harmless (project.filter.ignores · true) d) := by
  refine ⟨fun d ↦ ?_, fun d ↦ ?_, ?_⟩
  · rw [directories, Directory.walk, List.mem_append, List.mem_singleton, Entry.mem_walkList_iff,
      or_comm, ← exists_leads_iff fun _ ↦ ⟨absurd rfl, trivial⟩]
    simp
  · have hroot : d.path = [] → ∀ p ≠ [], p <+: d.path → project.filter.ignores p true = false :=
      fun hpath p hp hprefix ↦ absurd (List.prefix_nil.1 (hpath ▸ hprefix)) hp
    rw [visibleDirectories, List.mem_append, List.mem_singleton, Entry.mem_visibleList_iff,
      or_comm, ← exists_leads_iff hroot]
    refine or_congr_right (exists₂_congr fun step steps ↦ and_congr_right fun _ ↦ ?_)
    refine and_congr_right fun hpath ↦ ?_
    rw [hpath]
    rfl
  · rw [directories, Directory.walk, visibleDirectories, List.append_left_inj,
      Entry.walkList_eq_visibleList_iff, List.forall_mem_append, List.forall_mem_singleton]

end Project

end CodeAtlas
