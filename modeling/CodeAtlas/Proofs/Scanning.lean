import CodeAtlas.Proofs.Later
import CodeAtlas.Proofs.Settling

/-!
# Where an analysis fails

Building a project scans files one after another, and nothing else in it can fail. This module says
which files are scanned, and that an analysis fails exactly as the first of them does that cannot be
used.

## Failing with a log

A log is kept beside each step of the builder (`FailsAs`), in which what comes after a failure is
left out (`andThen`): a computation fails exactly if something in its log does, and as the first
thing that does. Logs are put together as the computations are, one after another and along a fold
(`trail`).

## Files

The files that are scanned, up to the first that cannot be used, are those of `Project.scanned`, and
the builder fails as the first file of its log does that cannot be used (`Project.failsAs_build`).
Which files these are is said without the log in `Project.Scans`: the marker of a directory that
gets its name, and the modules of such a directory whose names are free when their turn comes.

## After building

Every pass finds the source files by their paths again, where the names in each directory are
different, as they are on disks (`Project.distinct_of_locate`). So the rest of the analysis succeeds
(`Project.exists_analyze`).
-/

namespace CodeAtlas

/-! ### Failing with a log -/

section Log

variable {σ α β γ ε : Type} {fails : β → Option ε} {x : Except ε α} {first log : List β}

/-- A computation fails exactly if something in its log does, and as the first thing that does. -/
def FailsAs (fails : β → Option ε) (x : Except ε α) (log : List β) : Prop :=
  ∀ e, x = .error e ↔ log.findSome? fails = some e

/-- The log of a computation followed by another, which is not begun if the first one fails. -/
def andThen (first : List β) (x : Except ε α) (second : α → List β) : List β :=
  first ++
    match x with
    | .error _ => []
    | .ok a => second a

namespace FailsAs

theorem ok (a : α) : FailsAs fails (.ok a) [] := by
  simp [FailsAs]

/-- If a computation succeeds nothing in its log fails. -/
theorem findSome?_eq_none (h : FailsAs fails x log) {a : α} (hx : x = .ok a) :
    log.findSome? fails = none := by
  refine Option.eq_none_iff_forall_not_mem.2 fun e he ↦ ?_
  cases hx.symm.trans ((h e).2 he)

/-- A computation followed by another fails as the log of both does. -/
theorem bind (h : FailsAs fails x first) {next : α → Except ε γ} {second : α → List β}
    (hnext : ∀ a, FailsAs fails (next a) (second a)) :
    FailsAs fails (x >>= next) (andThen first x second) := by
  intro e
  unfold andThen
  rw [List.findSome?_append]
  cases hx : x with
  | error e' =>
    rw [(h e').1 hx, Option.some_or, Option.some.injEq]
    exact ⟨Except.error.inj, congrArg Except.error⟩
  | ok a =>
    rw [h.findSome?_eq_none hx, Option.none_or]
    exact hnext a e

/-- What cannot fail adds nothing to the log. -/
theorem bind_ok (h : FailsAs fails x log) {next : α → Except ε γ}
    (hnext : ∀ a, ∃ c, next a = .ok c) : FailsAs fails (x >>= next) log := by
  intro e
  cases hx : x with
  | error e' =>
    rw [← h e, hx, Except.error.injEq]
    exact ⟨Except.error.inj, congrArg Except.error⟩
  | ok a =>
    obtain ⟨c, hc⟩ := hnext a
    have hnext : (Except.ok a >>= next) = .ok c := hc
    rw [hnext, h.findSome?_eq_none hx]
    simp

end FailsAs

variable {step : σ → α → Except ε σ} {does : σ → α → List β} {l : List α}

/-- The log of a fold. -/
def trail (step : σ → α → Except ε σ) (does : σ → α → List β) : List α → σ → List β
  | [], _ => []
  | a :: rest, s => andThen (does s a) (step s a) (trail step does rest)

/-- A fold fails as the logs of its steps do, one after another. -/
theorem FailsAs.foldlM (h : ∀ s a, FailsAs fails (step s a) (does s a)) (l : List α) (s : σ) :
    FailsAs fails (l.foldlM step s) (trail step does l s) := by
  induction l generalizing s with
  | nil => exact .ok s
  | cons a rest ih =>
    rw [List.foldlM_cons]
    exact (h s a).bind ih

theorem mem_andThen_iff {second : α → List β} {b : β} :
    b ∈ andThen first x second ↔ b ∈ first ∨ ∃ a, x = .ok a ∧ b ∈ second a := by
  unfold andThen
  rw [List.mem_append]
  cases x <;> simp

/-- What a fold does is what some step does, after those before it succeeded. -/
theorem mem_trail_iff {s : σ} {b : β} : b ∈ trail step does l s ↔
    ∃ before a after t, l = before ++ a :: after ∧ before.foldlM step s = .ok t ∧ b ∈ does t a := by
  induction l generalizing s with
  | nil => simp [trail]
  | cons a rest ih =>
    simp only [trail, mem_andThen_iff, ih]
    constructor
    -- it is the first step that does it, or a later one after the first succeeded
    · rintro (hb | ⟨s', ha, before, x, after, t, rfl, ht, hx⟩)
      · exact ⟨[], a, rest, s, rfl, rfl, hb⟩
      · exact ⟨a :: before, x, after, t, rfl, foldlM_cons_eq_ok_iff.2 ⟨s', ha, ht⟩, hx⟩
    · rintro ⟨before, x, after, t, hl, ht, hx⟩
      cases before with
      | nil =>
        cases hl
        cases ht
        exact .inl hx
      | cons first before =>
        cases hl
        obtain ⟨s', ha, ht⟩ := foldlM_cons_eq_ok_iff.1 ht
        exact .inr ⟨s', ha, before, x, after, t, rfl, ht, hx⟩

end Log

/-! ### Files -/

/-- Why a file cannot be used: it is no text, or not the text of a module. -/
def Project.failure? (project : Project) (file : Path × ByteArray) : Option Failure :=
  match String.fromUTF8? file.2 with
  | none => some (.unreadable .notText)
  | some text =>
    if (Stmt.ofText? text).isNone then some (.malformed (project.shown file.1)) else none

/-- Parsing a file fails as the file does. -/
theorem Project.failsAs_parse (project : Project) (path : Path) (bytes : ByteArray) :
    FailsAs project.failure? (project.parse path bytes) [(path, bytes)] := by
  intro failure
  rw [List.findSome?_singleton]
  unfold parse failure? Entry.decode
  cases String.fromUTF8? bytes with
  | none => simp
  | some text => cases hfile : Stmt.ofText? text <;> simp [hfile]

namespace Draft

variable (project : Project) (directory : Directory) (owner : Id) (draft : Draft)

theorem failsAs_scan (file : String) (bytes : ByteArray) :
    FailsAs project.failure? (scan project directory draft owner file bytes)
      [(directory.path ++ [file], bytes)] :=
  (project.failsAs_parse _ bytes).bind_ok fun _ ↦ ⟨_, rfl⟩

/-- The marker of a directory, as a file that is scanned. -/
def markerFiles (marker : Option ByteArray) : List (Path × ByteArray) :=
  marker.toList.map (directory.path ++ [markerName], ·)

theorem failsAs_addMarker (marker : Option ByteArray) :
    FailsAs project.failure? (addMarker project directory owner draft marker)
      (markerFiles directory marker) := by
  cases marker with
  | none => exact .ok draft
  | some bytes =>
    exact (failsAs_scan project directory owner draft markerName bytes).bind_ok fun _ ↦ ⟨_, rfl⟩

/-- The file of a module, which is scanned if the name of the module is free. -/
def moduleFiles (file : String × ByteArray) : List (Path × ByteArray) :=
  if (draft.ns.lookup (.ofPath project.name directory.path (some file.1))).isNone then
    [(directory.path ++ [file.1], file.2)]
  else []

/-- Entering a module fails as its file does, if that is scanned. -/
theorem failsAs_addModule (file : String × ByteArray) :
    FailsAs project.failure? (addModule project directory owner draft file)
      (moduleFiles project directory draft file) := by
  unfold addModule moduleFiles
  split
  · next hcreate =>
    -- the name is taken, and the file is not looked at
    obtain ⟨other, hother⟩ := Option.isSome_iff_exists.1 (Namespace.create_eq_none_iff.1 hcreate)
    rw [hother]
    exact .ok draft
  · next id ns hcreate =>
    rw [(Namespace.create_eq_some_iff.1 hcreate).1]
    have hscan := failsAs_scan project directory id { draft with ns } file.1 file.2
    refine hscan.bind_ok fun scanned ↦ ?_
    split
    · exact ⟨_, rfl⟩
    · exact ⟨_, rfl⟩

end Draft

namespace Namespace

variable (project : Project) (ns : Namespace) (directory : Directory)

/-- The files of a directory that are scanned when it is built: none if its name is taken, and else
its marker and then its modules. -/
def scannedIn : List (Path × ByteArray) :=
  let listing := directory.listing project.filter
  match ns.create (.ofPath project.name directory.path none) listing.body with
  | none => []
  | some (id, ns) =>
    andThen (Draft.markerFiles directory listing.marker)
      (Draft.addMarker project directory id { ns } listing.marker)
      (trail (Draft.addModule project directory id) (Draft.moduleFiles project directory)
        listing.modules)

/-- Building a directory fails as the first of its files does that is scanned. -/
theorem failsAs_addDirectory : FailsAs project.failure? (ns.addDirectory project directory)
    (ns.scannedIn project directory) := by
  refine FailsAs.bind_ok ?_ fun _ ↦ ⟨_, rfl⟩
  unfold buildDirectory scannedIn
  dsimp only
  cases ns.create (.ofPath project.name directory.path none)
      (directory.listing project.filter).body with
  | none => exact .ok _
  | some created =>
    have hmarker := Draft.failsAs_addMarker project directory created.1 { ns := created.2 }
      (directory.listing project.filter).marker
    have hmodules := FailsAs.foldlM (Draft.failsAs_addModule project directory created.1)
      (directory.listing project.filter).modules
    exact hmarker.bind fun draft ↦ (hmodules draft).bind_ok fun _ ↦ ⟨_, rfl⟩

end Namespace

/-! ### The files of a project -/

namespace Project

variable {project : Project} {built ns : Namespace} {path : Path} {bytes : ByteArray}
  {failure : Failure}

/-- The files that are scanned when a project is built, in order, up to the first that cannot be
used. -/
def scanned (project : Project) : List (Path × ByteArray) :=
  trail (Namespace.addDirectory project) (Namespace.scannedIn project) project.directories
    { project := project.name }

/-- **Building** fails as the first file does that cannot be used. -/
theorem failsAs_build (project : Project) :
    FailsAs project.failure? project.build project.scanned :=
  .foldlM (Namespace.failsAs_addDirectory project) project.directories _

/-- A directory gets its name: it comes to its turn, after those before it were built, and the name
is free. -/
def Opens (project : Project) (d : Directory) (id : Id) (created : Namespace) : Prop :=
  ∃ earlier later before, project.directories = earlier ++ d :: later ∧
    earlier.foldlM (Namespace.addDirectory project) { project := project.name } = .ok before ∧
    before.create (.ofPath project.name d.path none) (d.listing project.filter).body =
      some (id, created)

/-- A file is scanned: the marker of a directory that gets its name, or a module of such a directory
whose name is free after the marker and the modules before it. -/
inductive Scans (project : Project) : Path → ByteArray → Prop
  | marker {d : Directory} {id : Id} {created : Namespace} {bytes : ByteArray}
    (h : project.Opens d id created) (hmarker : (d.listing project.filter).marker = some bytes) :
    Scans project (d.path ++ [markerName]) bytes
  | module {d : Directory} {id : Id} {created : Namespace} {marked draft : Draft}
    {earlier later : List (String × ByteArray)} {file : String × ByteArray}
    (h : project.Opens d id created)
    (hmarked : Draft.addMarker project d id { ns := created } (d.listing project.filter).marker =
      .ok marked)
    (hmodules : (d.listing project.filter).modules = earlier ++ file :: later)
    (hdraft : earlier.foldlM (Draft.addModule project d id) marked = .ok draft)
    (hfree : draft.ns.lookup (.ofPath project.name d.path (some file.1)) = none) :
    Scans project (d.path ++ [file.1]) file.2

/-- The log has the files that are scanned. -/
theorem mem_scanned_iff : (path, bytes) ∈ project.scanned ↔ project.Scans path bytes := by
  rw [scanned, mem_trail_iff]
  constructor
  · rintro ⟨earlier, d, later, before, hdirectories, hbefore, hmem⟩
    unfold Namespace.scannedIn at hmem
    dsimp only at hmem
    split at hmem
    · cases hmem
    · next id created hcreate =>
      have hopens : project.Opens d id created :=
        ⟨earlier, later, before, hdirectories, hbefore, hcreate⟩
      rcases mem_andThen_iff.1 hmem with hmem | ⟨marked, hmarked, hmem⟩
      · obtain ⟨_, hmarker, heq⟩ := List.mem_map.1 hmem
        cases heq
        exact .marker hopens (Option.mem_toList.1 hmarker)
      · obtain ⟨earlier, file, later, draft, hmodules, hdraft, hfile⟩ := mem_trail_iff.1 hmem
        obtain ⟨hfree, hfile⟩ := List.mem_ite_nil_right.1 hfile
        cases List.mem_singleton.1 hfile
        exact .module hopens hmarked hmodules hdraft (Option.isNone_iff_eq_none.1 hfree)
  · have hscannedIn : ∀ {d : Directory} {before created : Namespace} {id : Id},
        before.create (.ofPath project.name d.path none) (d.listing project.filter).body =
          some (id, created) →
        before.scannedIn project d = andThen
          (Draft.markerFiles d (d.listing project.filter).marker)
          (Draft.addMarker project d id { ns := created } (d.listing project.filter).marker)
          (trail (Draft.addModule project d id) (Draft.moduleFiles project d)
            (d.listing project.filter).modules) := by
      intro d before created id hcreate
      rw [Namespace.scannedIn, hcreate]
    intro h
    cases h with
    | marker h hmarker =>
      obtain ⟨earlier, later, before, hdirectories, hbefore, hcreate⟩ := h
      refine ⟨earlier, _, later, before, hdirectories, hbefore, ?_⟩
      rw [hscannedIn hcreate, mem_andThen_iff, hmarker]
      exact .inl (List.mem_singleton_self _)
    | module h hmarked hmodules hdraft hfree =>
      obtain ⟨earlier, later, before, hdirectories, hbefore, hcreate⟩ := h
      refine ⟨earlier, _, later, before, hdirectories, hbefore, ?_⟩
      rw [hscannedIn hcreate, mem_andThen_iff]
      refine .inr ⟨_, hmarked, mem_trail_iff.2 ⟨_, _, _, _, hmodules, hdraft, ?_⟩⟩
      rw [Draft.moduleFiles, hfree]
      exact List.mem_singleton_self _

/-! ### After building -/

/-- No pass over the files of what was built can fail. -/
theorem run_succeeds (hdistinct : Entry.Distinct project.entries)
    (hbuild : project.build = .ok built) (h : built.Later ns) (pass : Pass) (count : Nat) :
    (project.run pass ⟨ns, count⟩).2 = none := by
  refine (traverse_snd_eq_none_iff pass _).2 ?_
  rw [h.sameOutline.sources]
  exact readable_of_build hdistinct hbuild

/-- A project that was built is analyzed. -/
theorem exists_analyze (hdistinct : Entry.Distinct project.entries)
    (hbuild : project.build = .ok built) : ∃ a, project.analyze = .ok a := by
  have honce : ∀ {ns : Namespace} (r : Relating), built.Later ns →
      ∃ ns', project.runOnce r.pass ns = .ok ns' ∧ built.Later ns' := by
    intro ns r hns
    have hrun : project.run r.pass { ns } = ((project.run r.pass { ns }).1, none) :=
      Prod.ext rfl (run_succeeds hdistinct hbuild hns r.pass 0)
    refine ⟨_, ?_, (hns.runsStay project).relating r 0⟩
    rw [runOnce, hrun]
  have hresolve : ∀ {ns ns' : Namespace} {settled : Settled} (r : Repeated), built.Later ns →
      project.resolve r.pass ns = .ok (ns', settled) → built.Later ns' := fun r hns ↦
    resolve_induction built.Later (fun component file _ hp ↦ hp.repeated r component file) hns
  -- the first two passes are repeated until their counts settle, and the others run once
  have hprepared := Exports.prepared_of_build hbuild (readable_of_build hdistinct hbuild)
  obtain ⟨exports, hexports⟩ := hprepared.exists_settles
  have hready := (Imports.prepared_of_resolve hbuild hexports.resolve_eq).ready
  obtain ⟨imports, himports⟩ := hready.exists_settles
  have hexported := hresolve .exports .refl hexports.resolve_eq
  have himported := hresolve .imports hexported himports.resolve_eq
  obtain ⟨attributed, hattributes, hattributed⟩ := honce .attributes himported
  obtain ⟨related, hinheritance, hrelated⟩ := honce .inheritance hattributed
  obtain ⟨called, hcalls, -⟩ := honce .calls hrelated
  refine ⟨⟨called.condense, exports, imports⟩, ?_⟩
  simp only [Relating.pass] at hattributes hinheritance hcalls
  simp only [analyze, hbuild, hexports.resolve_eq, himports.resolve_eq, hattributes, hinheritance,
    hcalls, bind, Except.bind, pure, Except.pure]

/-- An analysis fails as the first file does that is scanned and cannot be used. -/
theorem analyze_eq_error_iff (hdistinct : Entry.Distinct project.entries) :
    project.analyze = .error failure ↔
      project.scanned.findSome? project.failure? = some failure := by
  rw [← project.failsAs_build failure]
  cases hbuild : project.build with
  | error e =>
    have hanalyze : project.analyze = .error e := by
      rw [analyze, hbuild]
      rfl
    rw [hanalyze, Except.error.injEq, Except.error.injEq]
  | ok built =>
    obtain ⟨a, ha⟩ := exists_analyze hdistinct hbuild
    rw [ha]
    simp

/-- **An analysis fails exactly where building fails.** It fails if and only if one of the files
that are scanned while the namespace is built is no text or not that of a module, and as the first
of these files does. Files that are scanned are the marker of a directory that gets its name, and
the modules of such a directory whose names are free. Once the namespace was built no pass over its
files can fail, after whatever other passes, and the analysis succeeds. -/
theorem analysis_fails_where_build_fails (hdistinct : Entry.Distinct project.entries) :
    ((∃ failure, project.analyze = .error failure) ↔
      ∃ path bytes, project.Scans path bytes ∧ (project.failure? (path, bytes)).isSome) ∧
    (∀ failure, project.analyze = .error failure ↔
      project.scanned.findSome? project.failure? = some failure) ∧
    (∀ path bytes, (path, bytes) ∈ project.scanned ↔ project.Scans path bytes) ∧
    ∀ built, project.build = .ok built →
      (∀ ns, built.Later ns → ∀ (pass : Pass) (count : Nat),
        (project.run pass ⟨ns, count⟩).2 = none) ∧
      ∃ a, project.analyze = .ok a := by
  refine ⟨?_, fun failure ↦ analyze_eq_error_iff hdistinct, fun path bytes ↦ mem_scanned_iff,
    fun built hbuild ↦ ⟨fun ns hns pass count ↦ run_succeeds hdistinct hbuild hns pass count,
      exists_analyze hdistinct hbuild⟩⟩
  simp only [analyze_eq_error_iff hdistinct, ← Option.isSome_iff_exists, List.findSome?_isSome_iff,
    Prod.exists, mem_scanned_iff]

/-- A module that is not closed, and after it one that is no text. -/
def brokenProject : Project where
  name := "p"
  location := "p"
  entries := [.file "n.py" "(".toUTF8, .file "w.py" ⟨#[255]⟩]
  filter := []

theorem distinct_brokenProject : Entry.Distinct brokenProject.entries := by
  have hfirst : Entry.write [] "(".toUTF8 ["n.py"] = .ok [.file "n.py" "(".toUTF8] := rfl
  have hsecond : Entry.write [.file "n.py" "(".toUTF8] ⟨#[255]⟩ ["w.py"] =
      .ok brokenProject.entries := rfl
  exact ((Entry.ordered_nil.write hfirst).write hsecond).distinct

/-- The first file is scanned and fails; the second is not looked at. -/
theorem brokenProject_fails :
    brokenProject.scanned.map Prod.fst = [["n.py"]] ∧
      (∃ bytes, brokenProject.Scans ["n.py"] bytes) ∧
      (brokenProject.failure? (["w.py"], ⟨#[255]⟩)).isSome ∧
      brokenProject.analyze = .error (.malformed "p/n.py") := by
  obtain ⟨-, hfails, hscans, -⟩ := analysis_fails_where_build_fails distinct_brokenProject
  have hscanned : brokenProject.scanned.map Prod.fst = [["n.py"]] := by
    decide +kernel
  have hfirst : brokenProject.scanned.findSome? brokenProject.failure? =
      some (.malformed "p/n.py") := by
    decide +kernel
  have hmem : ["n.py"] ∈ brokenProject.scanned.map Prod.fst := hscanned ▸ List.mem_singleton_self _
  obtain ⟨⟨_, bytes⟩, hfile, rfl⟩ := List.mem_map.1 hmem
  exact ⟨hscanned, ⟨bytes, (hscans _ _).1 hfile⟩, by decide +kernel, (hfails _).2 hfirst⟩

end Project

end CodeAtlas
