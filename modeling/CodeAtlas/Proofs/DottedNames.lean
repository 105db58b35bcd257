import CodeAtlas.Proofs.Footprints

/-!
# Dotted names, segment by segment

To resolve a dotted name, all its beginnings are tried from the longest to the shortest, and what
comes after the first one that leads somewhere is followed as members. The search is thus from right
to left, but what it finds can be said from left to right.

## One more segment

A name with one more segment is what it is known as in a whole, or else the member of what the name
before it resolves to (`resolve_child`). For the proof the list of all cuts of a name is compared
with that of the name without its last segment (`cuts_concat`): there is one more cut, which comes
first, and all others have the last segment at the end of their second part.

## The longest beginning

The longest beginning that is bound decides, and the members after it are followed one by one
(`Bound.resolve_eq`). There is no way back: if a segment after it leads nowhere, shorter beginnings
are not tried with other members. Where the segments after it are declared, each in the one before,
this is a walk through declared names only (`members_of_declaredMembers`).

From the end of building on what is bound is there (`Named.exists_of_binding?`), so that the longest
beginning always leads to an entity.
-/

namespace CodeAtlas

namespace Namespace

variable {ns ns' built : Namespace} {fromId o target : Id} {name q : QualName}
  {known rest : List String}

/-! ### Cuts -/

/-- With one more segment at the end, there is a cut after it, and it is at the end of the second
part of all others. -/
theorem cuts_concat {α : Type} (segments : List α) (last : α) :
    cuts (segments ++ [last]) =
      (segments ++ [last], []) :: (cuts segments).map fun cut ↦ (cut.1, cut.2 ++ [last]) := by
  have hlength : (segments ++ [last]).length = segments.length + 1 := by simp
  simp only [cuts, hlength, List.range_succ, List.reverse_append, List.reverse_singleton,
    List.singleton_append, List.map_cons, List.map_map, List.cons.injEq, Prod.mk.injEq]
  refine ⟨⟨List.take_of_length_le (by simp), List.drop_of_length_le (by simp)⟩, ?_⟩
  refine List.map_congr_left fun k hk ↦ ?_
  have hk : k + 1 ≤ segments.length := List.mem_range.1 (List.mem_reverse.1 hk)
  simp only [Function.comp_apply, Prod.mk.injEq]
  exact ⟨List.take_append_of_le_length hk, List.drop_append_of_le_length hk⟩

/-- What is found among cuts with one more segment at their ends is what is found without it, with
that segment at its end. -/
theorem findSome?_map_cut {α β : Type} (f : α → Option β) (last : String)
    (cuts : List (α × List String)) :
    ((cuts.map fun cut ↦ (cut.1, cut.2 ++ [last])).findSome? fun cut ↦ (f cut.1).map (·, cut.2)) =
      (cuts.findSome? fun cut ↦ (f cut.1).map (·, cut.2)).map fun found ↦
        (found.1, found.2 ++ [last]) := by
  induction cuts with
  | nil => rfl
  | cons cut rest ih =>
    rw [List.map_cons, List.findSome?_cons, List.findSome?_cons, ih]
    cases f cut.1 <;> rfl

/-! ### One more segment -/

theorem members_concat (ns : Namespace) (owner : Id) (names : List String) (last : String) :
    ns.members owner (names ++ [last]) = (ns.members owner names).bind (ns.member · last) := by
  rw [members, List.foldlM_append]
  simp only [List.foldlM_cons, List.foldlM_nil, bind_pure]
  rfl

/-- **One more segment.** A name inside another refers to what is known under the whole of it, or
else to a member of what the other refers to. -/
theorem resolve_child (ns : Namespace) (fromId : Id) (p : QualName) {segment : String}
    (h : '.' ∉ segment.toList) :
    ns.resolve fromId (p.child segment) =
      (ns.resolveName fromId (p.child segment).text).or
        ((ns.resolve fromId p).bind (ns.member · segment)) := by
  have hwhole : ".".intercalate (p.segments ++ [segment]) = (p.child segment).text := by
    rw [← QualName.segments_child h]
    exact congrArg QualName.text (QualName.ofSegments_segments _)
  unfold resolve
  rw [QualName.segments_child h, cuts_concat, List.findSome?_cons]
  simp only [hwhole]
  cases ns.resolveName fromId (p.child segment).text with
  | some id => rfl
  | none =>
    rw [Option.map_none, Option.none_or]
    dsimp only
    rw [findSome?_map_cut fun known ↦ ns.resolveName fromId (".".intercalate known)]
    cases (cuts p.segments).findSome? fun cut ↦
      (ns.resolveName fromId (".".intercalate cut.1)).map (·, cut.2) with
    | none => rfl
    | some found => exact ns.members_concat found.1 found.2 segment

/-- What is known under a name as a whole is what the name refers to. -/
theorem resolve_of_resolveName (h : ns.resolveName fromId name.text = some o) :
    ns.resolve fromId name = some o := by
  have hne : name.segments ≠ [] := mt List.map_eq_nil_iff.1 (QualName.splitDots_ne_nil _)
  have hwhole : ".".intercalate name.segments = name.text :=
    congrArg QualName.text (QualName.ofSegments_segments name)
  obtain ⟨init, last, hlast⟩ := (List.eq_nil_or_concat' name.segments).resolve_left hne
  unfold resolve
  rw [hlast, cuts_concat, ← hlast, List.findSome?_cons]
  simp only [hwhole, h]
  rfl

/-! ### The longest beginning that is bound -/

/-- The longest beginning of a dotted name that a scope around knows, what it is bound to, and the
segments after it. -/
structure Bound (ns : Namespace) (fromId : Id) (name : QualName) (known rest : List String)
    (q : QualName) : Prop where
  segments : name.segments = known ++ rest
  ne_nil : known ≠ []
  binding : ns.binding? fromId (".".intercalate known) = some q
  longest : ∀ more, more ≠ [] → more <+: rest →
    ns.binding? fromId (".".intercalate (known ++ more)) = none

/-- The entity reached from an entity by following declared names. -/
def declaredMembers (ns : Namespace) (owner : Id) (names : List String) : Option Id :=
  names.foldlM (fun id name ↦ do ns.lookup (← (← ns.scope? id).declared[name]?)) owner

/-- **The longest beginning decides.** If what it is bound to is there, the rest is followed from
there. -/
theorem Bound.resolve_eq (h : ns.Bound fromId name known rest q) (ho : ns.lookup q = some o) :
    ns.resolve fromId name = ns.members o rest := by
  induction rest using List.reverseRecOn generalizing name with
  | nil =>
    refine resolve_of_resolveName ?_
    have hwhole : ".".intercalate known = name.text := by
      rw [← List.append_nil known, ← h.segments]
      exact congrArg QualName.text (QualName.ofSegments_segments name)
    rw [resolveName, ← hwhole, h.binding, Option.bind_some, ho]
  | append_singleton init last ih =>
    have hne : known ++ init ≠ [] := List.append_ne_nil_of_left_ne_nil h.ne_nil init
    have hdots : ∀ s ∈ known ++ init ++ [last], '.' ∉ s.toList := fun s hs ↦
      QualName.not_mem_of_mem_segments (h.segments ▸ List.append_assoc known init _ ▸ hs)
    have hname : name = (QualName.ofSegments (known ++ init)).child last := by
      rw [← QualName.ofSegments_append hne, List.append_assoc, ← h.segments,
        QualName.ofSegments_segments]
    have hinit : ns.Bound fromId (.ofSegments (known ++ init)) known init q :=
      ⟨QualName.segments_ofSegments hne fun s hs ↦ hdots s (List.mem_append_left _ hs), h.ne_nil,
        h.binding, fun more hmore hinit ↦
          h.longest more hmore (hinit.trans (List.prefix_append init _))⟩
    -- the name as a whole is longer than what is bound
    have hunbound : ns.resolveName fromId name.text = none := by
      have hwhole := h.longest (init ++ [last]) (by simp) List.prefix_rfl
      rw [← h.segments] at hwhole
      rw [resolveName, ← QualName.ofSegments_segments name, QualName.ofSegments, hwhole]
      rfl
    rw [hname] at hunbound ⊢
    rw [resolve_child _ _ _ (hdots last (by simp)), hunbound, Option.none_or, ih hinit,
      members_concat]

/-- A declared name comes before all others. -/
theorem member_of_declared {segment : String} {s : Scope} (hs : ns.scope? o = some s)
    (hq : s.declared[segment]? = some q) : ns.member o segment = ns.lookup q := by
  obtain ⟨e, he, hscope⟩ := Option.bind_eq_some_iff.1 hs
  simp [member, he, hscope, Scope.find?, hq]

/-- Following declared names is following members. -/
theorem members_of_declaredMembers (h : ns.declaredMembers o rest = some target) :
    ns.members o rest = some target := by
  induction rest generalizing o with
  | nil => exact h
  | cons segment rest ih =>
    obtain ⟨next, hnext, hrest⟩ := Option.bind_eq_some_iff.1 h
    obtain ⟨s, hs, hnext⟩ := Option.bind_eq_some_iff.1 hnext
    obtain ⟨q, hq, hlookup⟩ := Option.bind_eq_some_iff.1 hnext
    rw [members, List.foldlM_cons, member_of_declared hs hq, hlookup]
    exact ih hrest

/-! ### After building -/

/-- Names in tables lead to entities after passes, if they did when the namespace was built. -/
theorem Later.named (h : built.Later ns) (hbuilt : built.Named) : ns.Named := by
  induction h with
  | refl => exact hbuilt
  | @repeated p _ r component file ih =>
    cases r with
    | exports => exact (Exports.sameScopes_pass component file p).named ih
    | imports => exact Imports.named_run _ ih
  | @relating p _ r component file ih => exact (r.sameScopes_pass component file p).named ih
  | @condense ns _ ih => exact (sameScopes_condense ns).named ih

/-- What is bound to a name in a scope or around it is there. -/
theorem Named.exists_of_binding? (h : ns.Named) {key : String}
    (hq : ns.binding? fromId key = some q) : ∃ o e, ns.lookup q = some o ∧ ns.get? o = some e := by
  obtain ⟨id, -, hid⟩ := List.exists_of_findSome?_eq_some hq
  obtain ⟨s, hs, hfind⟩ := Option.bind_eq_some_iff.1 hid
  obtain ⟨o, ho⟩ := Option.isSome_iff_exists.1 (h.isSome_lookup hs (Named.find?_eq_some hfind))
  obtain ⟨e, he, -⟩ := h.exists_of_lookup q o ho
  exact ⟨o, e, ho, he⟩

/-- **Dotted names.** A name with one more segment refers to what is known under the whole of it,
and if nothing is, to the member of what the name before it refers to. So if the longest beginning
of a name that is bound leads to an entity, and the segments after it are declared, each in the one
before, the name refers to the entity that is declared last. From the end of building on, and so
after imports were resolved, the longest beginning that is bound always leads to an entity, and the
segments after it are followed as its members. -/
theorem resolve_dotted (ns : Namespace) (fromId : Id) :
    (∀ (p : QualName) (segment : String), '.' ∉ segment.toList →
      ns.resolve fromId (p.child segment) =
        (ns.resolveName fromId (p.child segment).text).or
          ((ns.resolve fromId p).bind (ns.member · segment))) ∧
    (∀ name known rest q o target, ns.Bound fromId name known rest q → ns.lookup q = some o →
      ns.declaredMembers o rest = some target → ns.resolve fromId name = some target) ∧
    ∀ (project : Project) built, project.build = .ok built → built.Later ns →
      ∀ name known rest q, ns.Bound fromId name known rest q →
        ∃ o e, ns.lookup q = some o ∧ ns.get? o = some e ∧
          ns.resolve fromId name = ns.members o rest := by
  refine ⟨fun p segment h ↦ ns.resolve_child fromId p h,
    fun name known rest q o target h ho hrest ↦ ?_,
    fun project built hbuild hlater name known rest q h ↦ ?_⟩
  · rw [h.resolve_eq ho, members_of_declaredMembers hrest]
  · obtain ⟨o, e, ho, he⟩ := (hlater.named (named_build hbuild)).exists_of_binding? h.binding
    exact ⟨o, e, ho, he, h.resolve_eq ho⟩

/-- A directory that imports its module under a dotted name. -/
def dottedProject : Project where
  name := "p"
  location := "p"
  entries := [
    .file markerName "import p.w\n".toUTF8,
    .file "w.py" "class A:\n def u(s):0\n".toUTF8]
  filter := []

/-- The longest beginning that is bound is the module, and its class and the method are followed. -/
theorem resolve_dotted_method :
    ∃ built a, dottedProject.build = .ok built ∧ dottedProject.analyze = .ok a ∧
      built.Later a.ns ∧ a.ns.Bound 0 ⟨"p.w.A.u"⟩ ["p", "w"] ["A", "u"] ⟨"p.w"⟩ ∧
      a.ns.lookup ⟨"p.w"⟩ = some 1 ∧ a.ns.kind? 1 = some .component ∧
      a.ns.declaredMembers 1 ["A", "u"] = some 3 ∧
      a.ns.resolve 0 ⟨"p.w.A.u"⟩ = some 3 ∧
      (a.ns.resolve 0 ⟨"p.w.A"⟩).bind (a.ns.member · "u") = some 3 ∧
      a.ns.members 1 ["A", "u"] = some 3 := by
  have hanalyze : (dottedProject.analyzeOnce?.map fun ns ↦
      (["p.w", "p.w.A", "p.w.A.u"].map (ns.binding? 0), ns.lookup ⟨"p.w"⟩, ns.kind? 1,
        ns.declaredMembers 1 ["A", "u"])) =
      some ([some ⟨"p.w"⟩, none, none], some 1, some .component, some 3) := by
    decide +kernel
  obtain ⟨a, ha, hread⟩ := Project.exists_analyze_of_analyzeOnce? hanalyze
  simp only [List.map_cons, List.map_nil, Prod.mk.injEq, List.cons.injEq, and_true] at hread
  obtain ⟨⟨hwhole, hclass, hmethod⟩, hlookup, hkind, hmembers⟩ := hread
  obtain ⟨built, hbuild, -⟩ := bind_eq_ok_iff.1 ha
  have hlater := Project.later_of_analyze hbuild ha
  have hbound : a.ns.Bound 0 ⟨"p.w.A.u"⟩ ["p", "w"] ["A", "u"] ⟨"p.w"⟩ := by
    refine ⟨by decide +kernel, List.cons_ne_nil _ _, hwhole, fun more hmore hinit ↦ ?_⟩
    rcases List.prefix_cons_iff.1 hinit with rfl | ⟨after, rfl, hafter⟩
    · exact absurd rfl hmore
    · rcases List.prefix_cons_iff.1 hafter with rfl | ⟨last, rfl, hlast⟩
      · exact hclass
      · rw [List.prefix_nil.1 hlast]
        exact hmethod
  obtain ⟨hchild, hdeclared, hbuilt⟩ := resolve_dotted a.ns 0
  have hresolve := hdeclared _ _ _ _ _ _ hbound hlookup hmembers
  obtain ⟨o, -, ho, -, hfollow⟩ := hbuilt _ built hbuild hlater _ _ _ _ hbound
  cases hlookup.symm.trans ho
  have hlast := hchild ⟨"p.w.A"⟩ "u" (by decide)
  have hunbound : a.ns.resolveName 0 ((⟨"p.w.A"⟩ : QualName).child "u").text = none := by
    show (a.ns.binding? 0 "p.w.A.u").bind _ = none
    rw [hmethod, Option.bind_none]
  rw [hunbound, Option.none_or] at hlast
  exact ⟨built, a, hbuild, ha, hlater, hbound, hlookup, hkind, hmembers, hresolve,
    hlast.symm.trans hresolve, hfollow.symm.trans hresolve⟩

end Namespace

end CodeAtlas
