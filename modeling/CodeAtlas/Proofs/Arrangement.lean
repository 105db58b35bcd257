import CodeAtlas.Proofs.DirectoryNames
import CodeAtlas.Proofs.Footprints

/-!
# Entities in a tree

An entity may be held by others on several shelves. In the projects considered here this makes a
tree (`Namespace.Arranged`): what holds an entity is always the entity around it by name, each
entity but the root is held on the shelf for its kind, and nothing is around the root.

## Declarations

Declarations are held where they were made and nowhere else, since what is declared is new
(`Namespace.DeclaredOnce`). The entity that declares is around the declared one by name, so the two
notions of containment agree (`Namespace.parent?_of_isDeclared`). This needs no assumption on the
project.

## What is attached

What is attached to the entity of a directory has a name inside the directory
(`Project.Gets.exists_child_or_listed`). If no directory has a dot in its name this is one segment
more, and so what something is attached to is around it by name (`Project.parent?_of_attached`). And
the entity of a directory is attached to that of the directory around it, which has got one as its
name was free. Here it is needed that no directory is ignored: the walk would leave out directories
around others that it hands over.

## The root

The root has the last turn, and no name has fewer segments than its name
(`Project.depth_le_of_get?`), so nothing is around it. `arranged_build` puts the parts together, and
`Project.arranged_of_analyze` carries the tree through the passes, which change no outline.
-/

namespace CodeAtlas

/-! ### Declarations -/

namespace Namespace

variable {project : Project} {ns ns' : Namespace} {owner child o i : Id} {s : Shelf}
  {kind : EntityKind}

/-- What is attached changes nothing about declarations. -/
theorem holds_attach_of_isDeclared (hs : s.isDeclared = true) :
    (ns.attach owner child kind).Holds o s i ↔ ns.Holds o s i := by
  unfold Holds attach
  rw [get?_modify]
  split
  · next ho =>
    subst ho
    cases ns.get? o with
    | none => exact Iff.rfl
    | some e => simp [Body.shelf_mapChildren hs]
  · exact Iff.rfl

/-- A declaration is held by one entity only; it has got its number, so that the next one is not
held by any. -/
structure DeclaredOnce (ns : Namespace) : Prop where
  lt_nextId : ∀ o s i, s.isDeclared = true → ns.Holds o s i → i < ns.nextId
  owner_eq : ∀ o o' s s' i, s.isDeclared = true → s'.isDeclared = true → ns.Holds o s i →
    ns.Holds o' s' i → o = o'

/-- Changes that leave declarations alone. -/
theorem DeclaredOnce.of_holds (h : ns.DeclaredOnce) (hnext : ns.nextId ≤ ns'.nextId)
    (hholds : ∀ o s i, s.isDeclared = true → ns'.Holds o s i → ns.Holds o s i) :
    ns'.DeclaredOnce where
  lt_nextId o s i hs hi := Nat.lt_of_lt_of_le (h.lt_nextId o s i hs (hholds o s i hs hi)) hnext
  owner_eq o o' s s' i hs hs' hi hi' :=
    h.owner_eq o o' s s' i hs hs' (hholds o s i hs hi) (hholds o' s' i hs' hi')

/-- Each step of building keeps that declarations are held by one entity only. -/
theorem BuildStep.declaredOnce (hstep : BuildStep project ns ns') (htidy : ns.Tidy)
    (h : ns.DeclaredOnce) : ns'.DeclaredOnce := by
  cases hstep with
  | container hbody hcreate =>
    refine h.of_holds (le_nextId_create hcreate) fun o s i _ hi ↦ ?_
    exact (holds_create htidy.bounded hbody.shelf_eq hcreate).1 hi
  | @declare created owner id e short body howner hbody hcreate =>
    have hholds : ∀ {o s i}, _ ↔ _ := fun {o s i} ↦
      holds_declaring htidy.bounded howner hbody hcreate short (o := o) (s := s) (i := i)
    have hid : id = ns.nextId := (create_eq_some_iff.1 hcreate).2.1
    -- what is declared is new, and was held by nothing
    have hnew : ∀ {o s}, s.isDeclared = true → ¬ ns.Holds o s id := fun hs hi ↦
      Nat.lt_irrefl _ (hid ▸ h.lt_nextId _ _ _ hs hi)
    refine ⟨fun o s i hs hi ↦ ?_, fun o o' s s' i hs hs' hi hi' ↦ ?_⟩
    · rw [nextId_modify, nextId_create hcreate]
      rcases hholds.1 hi with hi | ⟨-, -, rfl⟩
      · exact Nat.lt_succ_of_lt (hid ▸ h.lt_nextId o s i hs hi)
      · exact Nat.lt_succ_self _
    · rcases hholds.1 hi with hold | ⟨howner, -, hnext⟩
      · rcases hholds.1 hi' with hold' | ⟨-, -, rfl⟩
        · exact h.owner_eq o o' s s' i hs hs' hold hold'
        · exact absurd hold (hnew hs)
      · rcases hholds.1 hi' with hold' | ⟨howner', -, -⟩
        · exact absurd (hnext ▸ hold') (hnew hs')
        · rw [howner, howner']
  | attach =>
    refine h.of_holds (Nat.le_of_eq nextId_modify.symm) fun o s i hs hi ↦ ?_
    exact (holds_attach_of_isDeclared hs).1 hi
  | prune =>
    exact h.of_holds (Nat.le_of_eq nextId_prune.symm) fun o s i _ hi ↦ (holds_prune.1 hi).2
  | keep | root => exact h.of_holds (Nat.le_refl _) fun o s i _ hi ↦ hi

/-- In what is built a declaration is held by one entity only. -/
theorem declaredOnce_build (h : project.build = .ok ns) : ns.DeclaredOnce := by
  refine build_induction DeclaredOnce h ⟨fun o s i _ hi ↦ ?_, fun o o' s s' i _ _ hi ↦ ?_⟩
    fun _ _ htidy _ hstep honce ↦ hstep.declaredOnce htidy honce
  · simp [Holds, get?] at hi
  · simp [Holds, get?] at hi

/-- What declares an entity is around it by name. -/
theorem parent?_of_isDeclared (h : project.build = .ok ns) (hs : s.isDeclared = true)
    (hi : ns.Holds o s i) : ns.parent? i = some o := by
  have hcomplete := complete_build h
  obtain ⟨-, kind, hkind, hadmits⟩ := hcomplete.held o s i hi
  have hcases : kind = .cls ∨ kind = .function := by
    cases s with
    | packages | components => cases hs
    | classes => exact .inl hadmits
    | functions | methods => exact .inr hadmits
  obtain ⟨owner, s', hs', hparent, hholds⟩ := (hcomplete.owned i kind hkind).exists_holds hcases
  rw [(declaredOnce_build h).owner_eq o owner s s' i hs hs' hi hholds]
  exact hparent

end Namespace

/-! ### What is attached -/

namespace Project

variable {project : Project} {ns : Namespace} {d : Directory} {owner i r : Id} {s : Shelf}

/-- A directory that is listed has no dot in its name. -/
theorem Undotted.not_mem_of_listed (h : project.Undotted) (hd : d ∈ project.directories)
    {name : String} (hname : name ∈ (d.listing project.filter).subdirectories) :
    '.' ∉ name.toList := by
  obtain ⟨steps, hleads, -⟩ := exists_leads_of_mem_directories hd
  obtain ⟨entry, hentry, heq⟩ := List.mem_filterMap.1 hname
  cases entry with
  | file => cases heq
  | directory =>
    cases heq
    obtain ⟨before, hinside⟩ := Entry.exists_leads_append hleads (List.mem_filter.1 hentry).1
    exact h _ _ hinside name (by simp [Step.names])

/-- What is attached to the entity of a directory has a name inside the directory: that of a file
there, without a dot, or that of a directory which is listed there. -/
theorem Gets.exists_child_or_listed (h : project.Gets d owner) (hbuild : project.build = .ok ns)
    (hs : s = .packages ∨ s = .components) (hi : ns.Holds owner s i) :
    ∃ e short, ns.get? i = some e ∧
      e.qualName = (QualName.ofPath project.name d.path none).child short ∧
        ('.' ∉ short.toList ∨ d ∈ project.directories ∧
          short ∈ (d.listing project.filter).subdirectories) := by
  obtain ⟨before, after, hturn, hfree, rfl⟩ := h
  have hend := hturn.turnEnd hfree
  have hleaves := hturn.leaves_build hbuild
  -- the entity holds what it held at the end of its turn
  have hi := (Namespace.holds_congr (hleaves.below _ hend.next)).1 hi
  obtain ⟨-, kind, hkind, -⟩ := hend.orderly.held _ _ i hi
  obtain ⟨e, he, -⟩ := Option.map_eq_some_iff.1 hkind
  have hlive : ns.get? i = some e := by
    rw [hleaves.below i (hend.orderly.bounded i (by rw [hkind]; rfl)), he]
  rcases hend.attached s i hs hi with ⟨hlt, hcomponent⟩ | ⟨name, hname, hlookup⟩
  · rw [Namespace.kind?, he] at hcomponent
    obtain ⟨file, hfile⟩ := hend.exists_name_of_component hlt he (Option.some.inj hcomponent)
    rw [QualName.ofPath_file] at hfile
    exact ⟨e, _, hlive, hfile, .inl (QualName.not_mem_stem file)⟩
  · obtain ⟨e', he', hqual⟩ := hend.orderly.exists_of_lookup _ i hlookup
    cases he.symm.trans he'
    rw [QualName.ofPath_directory] at hqual
    exact ⟨e, name, hlive, hqual, .inr ⟨hturn.mem_directories, hname⟩⟩

/-- Where directories have no dots in their names, what is attached has none in its name inside the
directory. -/
theorem Gets.exists_child_of_holds (h : project.Gets d owner) (hbuild : project.build = .ok ns)
    (hdots : project.Undotted) (hs : s = .packages ∨ s = .components) (hi : ns.Holds owner s i) :
    ∃ e short, ns.get? i = some e ∧
      e.qualName = (QualName.ofPath project.name d.path none).child short ∧ '.' ∉ short.toList := by
  obtain ⟨e, short, he, hname, hdot | ⟨hd, hlisted⟩⟩ := h.exists_child_or_listed hbuild hs hi
  · exact ⟨e, short, he, hname, hdot⟩
  · exact ⟨e, short, he, hname, hdots.not_mem_of_listed hd hlisted⟩

/-- What something is attached to is around it by name. -/
theorem parent?_of_attached (hbuild : project.build = .ok ns) (hdots : project.Undotted)
    (hs : s = .packages ∨ s = .components) (hi : ns.Holds owner s i) :
    ns.parent? i = some owner := by
  have hcomplete := Namespace.complete_build hbuild
  have howner := hcomplete.around owner (hi.hasChild hs)
  obtain ⟨d, hgets⟩ := hcomplete.origin owner howner
  obtain ⟨e, short, he, hname, hdot⟩ := hgets.exists_child_of_holds hbuild hdots hs hi
  exact hgets.parent? hbuild howner he hname hdot

/-! ### The root -/

/-- The root has the last turn. -/
theorem Turn.eq_of_root {before after : Namespace} (h : project.Turn d before after)
    (hpath : d.path = []) (hdistinct : Entry.Distinct project.entries)
    (hbuild : project.build = .ok ns) : after = ns := by
  obtain ⟨earlier, later, hdirectories, hbefore, hafter⟩ := h
  have hlast : later = [] := by
    refine List.eq_nil_iff_forall_not_mem.2 fun d' hd' ↦ ?_
    have hpairwise := pairwise_directories hdistinct
    rw [hdirectories, List.pairwise_append, List.pairwise_cons] at hpairwise
    refine hpairwise.2.1.1 d' hd' ?_
    rw [hpath]
    exact List.nil_prefix
  rw [build, hdirectories, hlast, Turn.foldlM_eq hbefore hafter] at hbuild
  exact Except.ok.inj hbuild

/-- The root that is noted is the entity that the root has got, if it was kept. -/
theorem Gets.root_eq_some_iff (h : project.Gets d r) (hpath : d.path = [])
    (hdistinct : Entry.Distinct project.entries) (hbuild : project.build = .ok ns) :
    ns.root = some i ↔ i = r ∧ (ns.get? i).isSome := by
  obtain ⟨before, after, hturn, hfree, rfl⟩ := h
  obtain rfl := hturn.eq_of_root hpath hdistinct hbuild
  have horderly := hturn.complete_before.toOrderly
  obtain ⟨_, _, -, -, hafter⟩ := hturn
  obtain ⟨⟨built, kept⟩, hbuilt, hrest⟩ := bind_eq_ok_iff.1 hafter
  simp only [hpath, List.isEmpty_nil, if_pos] at hrest
  cases hrest
  rcases exists_inTurn_of_buildDirectory horderly hbuilt with ⟨htaken, -⟩ | ⟨-, draft, hdraft,
    hfinish⟩
  · rw [hfree] at htaken
    cases htaken
  · unfold Draft.finish at hfinish
    split at hfinish
    · cases hfinish
      obtain ⟨e, he, -⟩ := hdraft.entity
      constructor
      · intro hi
        cases hi
        exact ⟨rfl, Option.isSome_iff_exists.2 ⟨e, he⟩⟩
      · rintro ⟨rfl, -⟩
        rfl
    · cases hfinish
      constructor
      · intro hi
        cases hi
      · rintro ⟨rfl, hlive⟩
        have hlive : ((draft.ns.prune before.nextId).get? before.nextId).isSome := hlive
        rw [Namespace.get?_prune, if_pos rfl] at hlive
        cases hlive

/-- No name has fewer segments than that of the project. -/
theorem depth_le_of_get? (hbuild : project.build = .ok ns) (hdots : project.Undotted)
    {e : Entity} (he : ns.get? i = some e) :
    (⟨project.name⟩ : QualName).depth ≤ e.qualName.depth := by
  obtain ⟨d, hd, hinside⟩ := exists_mem_of_get? (List.append_nil _).symm hbuild he
  rw [QualName.segments_ofPath fun name ↦ hdots.not_mem hd] at hinside
  exact ((List.prefix_append _ _).trans hinside).length_le

/-- Nothing is around the root. -/
theorem Gets.parent?_root (h : project.Gets d r) (hpath : d.path = [])
    (hbuild : project.build = .ok ns) (hdots : project.Undotted) : ns.parent? r = none := by
  cases hparent : ns.parent? r with
  | none => rfl
  | some p =>
    obtain ⟨e, he, name, hname, hlookup⟩ := Namespace.parent?_eq_some_iff.1 hparent
    obtain ⟨e', he', rfl⟩ := (Namespace.complete_build hbuild).exists_of_lookup name p hlookup
    have hle := depth_le_of_get? hbuild hdots he'
    have hdepth := QualName.depth_of_parent hname
    rw [(h.named hbuild he).1, hpath] at hdepth
    have hroot : QualName.ofPath project.name [] none = ⟨project.name⟩ := rfl
    rw [hroot] at hdepth
    omega

end Project

/-! ### The tree -/

/-- The kind of those entities on a shelf that belong there. What has the name of a directory may be
among components without being one. -/
def Shelf.recorded : Shelf → EntityKind
  | packages => .package
  | components => .component
  | classes => .cls
  | functions | methods => .function

/-- The shelf on which an entity belongs is known from its kind, but for functions and methods. -/
theorem Shelf.eq_or_of_recorded_eq {s s' : Shelf} (h : s.recorded = s'.recorded) :
    s = s' ∨ (s = functions ∧ s' = methods) ∨ (s = methods ∧ s' = functions) := by
  cases s <;> cases s' <;> simp_all [recorded]

namespace Namespace

/-- Entities form a tree: what holds an entity is the entity around it by name, each entity but the
root is held on a shelf for its kind, and nothing is around the root, which is a package or a
component. -/
structure Arranged (ns : Namespace) : Prop extends Tidy ns where
  houses : ∀ o s i, ns.Holds o s i → ns.Houses o s i
  inside : ∀ i kind, ns.kind? i = some kind →
    ns.root = some i ∨ ∃ o s, ns.Houses o s i ∧ s.recorded = kind
  top : ∀ r, ns.root = some r → ns.parent? r = none ∧
    (ns.kind? r = some .package ∨ ns.kind? r = some .component)

variable {project : Project} {ns ns' : Namespace} {i : Id} {kind : EntityKind}

section Build

variable (h : project.build = .ok ns) (hdistinct : Entry.Distinct project.entries)
  (hdots : project.Undotted) (hfilter : project.Unfiltered)

include h hdots

/-- What holds an entity is around it by name, and the entity is of a kind for the shelf. -/
theorem houses_of_build {o : Id} {s : Shelf} (hi : ns.Holds o s i) : ns.Houses o s i := by
  obtain ⟨-, hkind⟩ := (complete_build h).held o s i hi
  refine ⟨?_, hi, hkind⟩
  cases hs : s.isDeclared with
  | true => exact parent?_of_isDeclared h hs hi
  | false => exact Project.parent?_of_attached h hdots (Shelf.isDeclared_eq_false_iff.1 hs) hi

include hdistinct hfilter

/-- The entity of a directory is the root or held by that of the directory around it. -/
theorem root_or_houses_of_ofDirectory (hi : ns.OfDirectory i) (hkind : ns.kind? i = some kind) :
    ns.root = some i ∨ ∃ o, ns.Houses o (.attached kind) i := by
  obtain ⟨d, hgets⟩ := (complete_build h).origin i hi
  obtain ⟨_, _, hturn, -⟩ := id hgets
  rcases Project.eq_root_or_exists_around hfilter hturn.mem_directories with rfl |
    ⟨around, haround, name, hpath⟩
  · refine .inl ((hgets.root_eq_some_iff rfl hdistinct h).2 ⟨rfl, ?_⟩)
    obtain ⟨e, he, -⟩ := hi
    exact Option.isSome_iff_exists.2 ⟨e, he⟩
  · obtain ⟨owner, howner⟩ := Project.exists_gets h hdistinct hdots haround
    exact .inr ⟨owner, houses_of_build h hdots (hgets.holds h hdistinct hkind howner hpath)⟩

/-- **The tree.** Where directories have different names without dots and none is ignored, what is
built is a tree. -/
theorem arranged_build : ns.Arranged := by
  have hcomplete := complete_build h
  have hhouses : ∀ {o s i}, ns.Holds o s i → ns.Houses o s i := houses_of_build h hdots
  refine ⟨hcomplete.toTidy, fun o s i ↦ hhouses, fun i kind hkind ↦ ?_, fun r hr ↦ ?_⟩
  · cases kind with
    | package =>
      obtain ⟨e, he, hpackage⟩ := Option.map_eq_some_iff.1 hkind
      refine (root_or_houses_of_ofDirectory h hdistinct hdots hfilter ⟨e, he, .inl hpackage⟩
        hkind).imp_right ?_
      rintro ⟨o, hhouses⟩
      exact ⟨o, _, hhouses, rfl⟩
    | component =>
      obtain ⟨⟨_, _, body⟩, he, hcomponent⟩ := Option.map_eq_some_iff.1 hkind
      cases body with
      | package | cls | function => cases hcomponent
      | component c =>
        cases hmarker : c.isDirectory with
        | true =>
          refine (root_or_houses_of_ofDirectory h hdistinct hdots hfilter ⟨_, he, .inr hmarker⟩
            hkind).imp_right ?_
          rintro ⟨o, hhouses⟩
          exact ⟨o, _, hhouses, rfl⟩
        | false =>
          have hc : ns.component? i = some c := by rw [component?, he]; rfl
          obtain ⟨_, _, owner, -, -, -, -, -, hholds⟩ := exists_directory_of_module h hc hmarker
          exact .inr ⟨owner, _, hhouses hholds, rfl⟩
    | cls =>
      obtain ⟨owner, -, hholds⟩ := hcomplete.owned i _ hkind
      exact .inr ⟨owner, _, hhouses hholds, rfl⟩
    | function =>
      obtain ⟨owner, -, hholds | hholds⟩ := hcomplete.owned i _ hkind
      · exact .inr ⟨owner, _, hhouses hholds, rfl⟩
      · exact .inr ⟨owner, _, hhouses hholds, rfl⟩
  · obtain ⟨r', hgets⟩ := Project.exists_gets h hdistinct hdots
      (d := ⟨[], project.entries⟩) (List.mem_append_right _ List.mem_cons_self)
    obtain ⟨rfl, hlive⟩ := (hgets.root_eq_some_iff rfl hdistinct h).1 hr
    obtain ⟨e, he⟩ := Option.isSome_iff_exists.1 hlive
    exact ⟨hgets.parent?_root rfl h hdots, OfDirectory.kind? ⟨e, he, (hgets.named h he).2⟩⟩

end Build

theorem SameOutline.houses (h : ns.SameOutline ns') {o : Id} {s : Shelf} (hi : ns.Houses o s i) :
    ns'.Houses o s i := by
  refine ⟨(h.parent? i).trans hi.parent, h.holds.2 hi.holds, ?_⟩
  rw [h.kind?]
  exact hi.kind

/-- Whether entities form a tree is seen in outlines, and in the root that is noted. -/
theorem SameOutline.arranged (h : ns.SameOutline ns') (hroot : ns'.root = ns.root)
    (hns : ns.Arranged) : ns'.Arranged := by
  refine ⟨h.tidy hns.toTidy, fun o s i hi ↦ h.houses (hns.houses o s i (h.holds.1 hi)),
    fun i kind hi ↦ ?_, fun r hr ↦ ?_⟩
  · rw [h.kind?] at hi
    rw [hroot]
    refine (hns.inside i kind hi).imp_right ?_
    rintro ⟨o, s, hhouses, hkind⟩
    exact ⟨o, s, h.houses hhouses, hkind⟩
  · rw [h.parent?, h.kind?]
    exact hns.top r (hroot ▸ hr)

end Namespace

/-- Where directories have different names without dots and none is ignored, an analysis ends with a
tree. -/
theorem Project.arranged_of_analyze {project : Project} {a : Analysis}
    (hdistinct : Entry.Distinct project.entries) (hdots : project.Undotted)
    (hfilter : project.Unfiltered) (h : project.analyze = .ok a) : a.ns.Arranged := by
  obtain ⟨built, hbuild, -⟩ := bind_eq_ok_iff.1 h
  have hlater := later_of_analyze hbuild h
  have hroot : a.ns.skeleton.root = built.skeleton.root :=
    congrArg Namespace.root hlater.skeleton_eq
  exact hlater.sameOutline.arranged hroot
    (Namespace.arranged_build hbuild hdistinct hdots hfilter)

end CodeAtlas
