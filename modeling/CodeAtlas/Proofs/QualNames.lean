import Mathlib.Data.List.Induction
import CodeAtlas.QualName

/-!
# Segments of qualified names

A qualified name is a text, and what stands between its dots are its segments. This module is about
the two ways to look at a name, and about names inside others.

## Texts and segments

The text of a name and its segments determine each other: a list of segments without dots is read
back from the name it makes (`segments_ofSegments`), and a name is made of its segments
(`ofSegments_segments`). Both hold for all texts, also for those with empty segments, with dots at
either end, or with no text at all, since cutting at dots is inverse to putting dots in between
(`splitDots_intercalate`, `intercalate_splitDots`).

## Depth

Dropping segments from the end of a name shortens it by as many (`depth_of_ancestor`), which is what
bounds every climb towards the root of a project.

## Names inside

A name inside another has the segments of both (`segments_child_eq`). If the short name has no dot,
the parent of the name is that other name (`parent_child`), and its last segment is the short name
(`name_child`). The names of directories and files are made in this way from the name of the project
(`ofPath_directory`, `ofPath_file`).
-/

namespace CodeAtlas

namespace QualName

/-! ### Cutting texts at dots -/

/-- Every text has a piece, even the empty one. -/
theorem splitDots_ne_nil (text : List Char) : splitDots text ≠ [] := by
  induction text with
  | nil => exact List.cons_ne_nil _ _
  | cons c rest ih =>
    unfold splitDots
    split
    · exact List.cons_ne_nil _ _
    · split <;> exact List.cons_ne_nil _ _

/-- The pieces between dots have no dots. -/
theorem not_mem_of_mem_splitDots {text piece : List Char} (h : piece ∈ splitDots text) :
    '.' ∉ piece := by
  induction text generalizing piece with
  | nil =>
    rw [splitDots, List.mem_singleton] at h
    rw [h]
    exact List.not_mem_nil
  | cons c rest ih =>
    unfold splitDots at h
    split at h
    · rcases List.mem_cons.1 h with rfl | h
      · exact List.not_mem_nil
      · exact ih h
    · next hc =>
      split at h
      · next hnil => exact absurd hnil (splitDots_ne_nil rest)
      · next first others hsplit =>
        rcases List.mem_cons.1 h with rfl | h
        · have hfirst : '.' ∉ first := ih (hsplit ▸ List.mem_cons_self)
          exact List.not_mem_cons_of_ne_of_not_mem (Ne.symm hc) hfirst
        · exact ih (hsplit ▸ List.mem_cons_of_mem _ h)

/-- A text without dots is one piece. -/
theorem splitDots_of_not_mem {piece : List Char} (h : '.' ∉ piece) : splitDots piece = [piece] := by
  induction piece with
  | nil => rfl
  | cons c rest ih =>
    have hc : c ≠ '.' := (List.ne_of_not_mem_cons h).symm
    rw [splitDots, if_neg hc, ih (List.not_mem_of_not_mem_cons h)]

/-- **Cutting at a dot.** The pieces on its two sides are cut on their own. -/
theorem splitDots_append_dot (text rest : List Char) :
    splitDots (text ++ '.' :: rest) = splitDots text ++ splitDots rest := by
  induction text with
  | nil => rfl
  | cons c others ih =>
    rw [List.cons_append, splitDots, splitDots, ih]
    split
    · rfl
    · cases hothers : splitDots others with
      | nil => exact absurd hothers (splitDots_ne_nil others)
      | cons first pieces => rfl

/-- A piece ends at the first dot. -/
theorem splitDots_append {piece : List Char} (h : '.' ∉ piece) (rest : List Char) :
    splitDots (piece ++ '.' :: rest) = piece :: splitDots rest := by
  rw [splitDots_append_dot, splitDots_of_not_mem h]
  rfl

/-- Pieces without dots are read back from the text that they make. -/
theorem splitDots_intercalate {pieces : List (List Char)} (hne : pieces ≠ [])
    (h : ∀ piece ∈ pieces, '.' ∉ piece) : splitDots (['.'].intercalate pieces) = pieces := by
  induction pieces with
  | nil => exact absurd rfl hne
  | cons piece rest ih =>
    have hpiece : '.' ∉ piece := h piece List.mem_cons_self
    cases rest with
    | nil => simpa using splitDots_of_not_mem hpiece
    | cons next others =>
      have hrest := ih (List.cons_ne_nil _ _) fun p hp ↦ h p (List.mem_cons_of_mem _ hp)
      rw [List.intercalate_cons_cons, List.append_assoc, List.singleton_append,
        splitDots_append hpiece, hrest]

/-- A text is made of its pieces. -/
theorem intercalate_splitDots (text : List Char) : ['.'].intercalate (splitDots text) = text := by
  induction text with
  | nil => rfl
  | cons c rest ih =>
    rw [splitDots]
    cases hrest : splitDots rest with
    | nil => exact absurd hrest (splitDots_ne_nil rest)
    | cons first others =>
      rw [hrest] at ih
      split
      · next hc =>
        rw [List.intercalate_cons_cons, ih, hc]
        rfl
      · cases others with
        | nil => simpa using ih
        | cons next others =>
          rw [List.intercalate_cons_cons] at ih ⊢
          simpa using ih

/-- The last piece of a text stands after a dot. -/
theorem intercalate_append_singleton {pieces : List (List Char)} (hne : pieces ≠ [])
    (last : List Char) :
    ['.'].intercalate (pieces ++ [last]) = ['.'].intercalate pieces ++ '.' :: last := by
  induction pieces with
  | nil => exact absurd rfl hne
  | cons first rest ih =>
    cases rest with
    | nil => simp
    | cons next others =>
      have hrest := ih (List.cons_ne_nil _ _)
      rw [List.cons_append] at hrest
      simp only [List.cons_append, List.intercalate_cons_cons, hrest, List.append_assoc]

/-! ### Segments -/

/-- Segments have no dots. -/
theorem not_mem_of_mem_segments {q : QualName} {segment : String} (h : segment ∈ q.segments) :
    '.' ∉ segment.toList := by
  obtain ⟨piece, hpiece, rfl⟩ := List.mem_map.1 h
  rw [String.toList_ofList]
  exact not_mem_of_mem_splitDots hpiece

/-- Segments are read back from the name that they make. -/
theorem segments_ofSegments {segments : List String} (hne : segments ≠ [])
    (h : ∀ s ∈ segments, '.' ∉ s.toList) : (ofSegments segments).segments = segments := by
  have hpieces : ∀ piece ∈ segments.map String.toList, '.' ∉ piece := by
    intro piece hpiece
    obtain ⟨s, hs, rfl⟩ := List.mem_map.1 hpiece
    exact h s hs
  have hsplit := splitDots_intercalate (mt List.map_eq_nil_iff.1 hne) hpieces
  have hdot : ".".toList = ['.'] := rfl
  rw [QualName.segments, ofSegments, String.toList_intercalate, hdot, hsplit, List.map_map]
  have hid : String.ofList ∘ String.toList = id := funext fun s ↦ String.ofList_toList
  rw [hid, List.map_id]

/-- A name is made of its segments. -/
theorem ofSegments_segments (q : QualName) : ofSegments q.segments = q := by
  have hid : String.toList ∘ String.ofList = id := funext fun cs ↦ String.toList_ofList
  have htext : (".".intercalate q.segments).toList = q.text.toList := by
    rw [String.toList_intercalate, segments, List.map_map, hid, List.map_id]
    exact intercalate_splitDots q.text.toList
  rw [ofSegments, String.toList_injective htext]

/-- A name with one more segment at its end is a name inside the one without it. -/
theorem ofSegments_append {segments : List String} (hne : segments ≠ []) (last : String) :
    ofSegments (segments ++ [last]) = (ofSegments segments).child last := by
  have htext : (".".intercalate (segments ++ [last])).toList =
      (".".intercalate segments ++ "." ++ last).toList := by
    have hne' : segments.map String.toList ≠ [] := mt List.map_eq_nil_iff.1 hne
    have hpieces := intercalate_append_singleton hne' last.toList
    simpa [String.toList_intercalate] using hpieces
  rw [child, ofSegments, ofSegments, String.toList_injective htext]

/-! ### Depth -/

/-- A name that leaves out some levels has the segments before them. -/
theorem segments_of_ancestor {q a : QualName} {levels : Nat} (h : q.ancestor levels = some a) :
    a.segments = q.segments.take (q.depth - levels) ∧ levels < q.depth := by
  unfold ancestor at h
  split at h
  · next hlt =>
    cases h
    have hne : q.segments.take (q.depth - levels) ≠ [] := by
      intro hnil
      have hlength := congrArg List.length hnil
      rw [List.length_take, List.length_nil, ← depth] at hlength
      omega
    refine ⟨segments_ofSegments hne fun s hs ↦ ?_, hlt⟩
    exact not_mem_of_mem_segments (List.mem_of_mem_take hs)
  · cases h

/-- A name that leaves out some levels is shorter by as many. -/
theorem depth_of_ancestor {q a : QualName} {levels : Nat} (h : q.ancestor levels = some a) :
    a.depth + levels = q.depth := by
  obtain ⟨hsegments, hlt⟩ := segments_of_ancestor h
  rw [depth, hsegments, List.length_take, ← depth]
  omega

theorem depth_of_parent {q p : QualName} (h : q.parent = some p) : p.depth + 1 = q.depth :=
  depth_of_ancestor h

/-- A name begins with its parent. -/
theorem segments_prefix_of_parent {q p : QualName} (h : q.parent = some p) :
    p.segments <+: q.segments := by
  rw [(segments_of_ancestor h).1]
  exact List.take_prefix _ _

/-! ### Names inside -/

/-- A name inside another has the segments of both. -/
theorem segments_child_eq (q : QualName) (name : String) :
    (q.child name).segments = q.segments ++ (⟨name⟩ : QualName).segments := by
  have htext : (q.child name).text.toList = q.text.toList ++ '.' :: name.toList := by
    simp [child]
  rw [segments, htext, splitDots_append_dot, List.map_append]
  rfl

/-- A short name without a dot adds one segment. -/
theorem segments_child {q : QualName} {name : String} (h : '.' ∉ name.toList) :
    (q.child name).segments = q.segments ++ [name] := by
  rw [segments_child_eq]
  show q.segments ++ (splitDots name.toList).map String.ofList = _
  rw [splitDots_of_not_mem h, List.map_singleton, String.ofList_toList]

/-- A name without a dot inside another has that other as its parent. -/
theorem parent_child {q : QualName} {name : String} (h : '.' ∉ name.toList) :
    (q.child name).parent = some q := by
  have hlength : (q.child name).depth = q.segments.length + 1 := by
    rw [depth, segments_child h, List.length_append]
    rfl
  have hpos : 0 < q.segments.length := by
    rw [segments, List.length_map]
    exact List.length_pos_iff.2 (splitDots_ne_nil _)
  rw [parent, ancestor, hlength, if_pos (by omega), Nat.add_sub_cancel, segments_child h,
    List.take_left, ofSegments_segments]

/-- A name inside another is not that other. -/
theorem child_ne (q : QualName) (name : String) : q.child name ≠ q := by
  intro h
  have hlength := congrArg (fun q : QualName ↦ q.text.length) h
  have hdot : ".".length = 1 := rfl
  simp only [child, String.length_append] at hlength
  omega

/-- Different short names make different names inside a name. -/
theorem child_injective (q : QualName) : Function.Injective q.child := by
  intro name name' h
  have htext := congrArg (fun q : QualName ↦ q.text.toList) h
  exact String.toList_inj.1 (by simpa [child] using htext)

/-- A name without a dot is the short name of what it names inside another. -/
theorem name_child {q : QualName} {name : String} (h : '.' ∉ name.toList) :
    (q.child name).name = name := by
  rw [QualName.name, segments_child h, List.getLast?_concat]
  rfl

/-- A name is its short name inside its parent. -/
theorem child_name_of_parent {q p : QualName} (h : q.parent = some p) : p.child q.name = q := by
  obtain ⟨hsegments, hdepth⟩ := segments_of_ancestor h
  have hne : q.segments ≠ [] := by
    intro hnil
    rw [depth, hnil] at hdepth
    exact Nat.not_lt_zero _ hdepth
  have hsplit : q.segments = p.segments ++ [q.name] := by
    rw [hsegments, depth, ← List.dropLast_eq_take, QualName.name,
      List.getLast?_eq_some_getLast hne, Option.getD_some, List.dropLast_concat_getLast]
  have hparent : p.segments ≠ [] := by
    rw [segments]
    exact mt List.map_eq_nil_iff.1 (splitDots_ne_nil _)
  calc p.child q.name = ofSegments (p.segments ++ [q.name]) := by
        rw [ofSegments_append hparent, ofSegments_segments]
    _ = q := by rw [← hsplit, ofSegments_segments]

/-- The parent of a name is what stands before its last dot. -/
theorem parent_eq_some_iff {q p : QualName} :
    q.parent = some p ↔ ∃ last : String, '.' ∉ last.toList ∧ q = p.child last := by
  constructor
  · intro h
    have hne : q.segments ≠ [] := mt List.map_eq_nil_iff.1 (splitDots_ne_nil _)
    have hname : q.name ∈ q.segments := by
      rw [QualName.name, List.getLast?_eq_some_getLast hne]
      exact List.getLast_mem hne
    exact ⟨q.name, not_mem_of_mem_segments hname, (child_name_of_parent h).symm⟩
  · rintro ⟨last, hlast, rfl⟩
    exact parent_child hlast

/-- Leaving out one more level is taking the parent. -/
theorem ancestor_succ (q : QualName) (levels : Nat) :
    q.ancestor (levels + 1) = (q.ancestor levels).bind parent := by
  cases ha : q.ancestor levels with
  | none =>
    have hle : ¬ levels < q.depth := by
      intro hlt
      rw [ancestor, if_pos hlt] at ha
      cases ha
    rw [ancestor, if_neg (by omega), Option.bind_none]
  | some a =>
    obtain ⟨hsegments, hlt⟩ := segments_of_ancestor ha
    have hdepth := depth_of_ancestor ha
    have htake : a.segments.take (a.depth - 1) = q.segments.take (q.depth - (levels + 1)) := by
      rw [hsegments, List.take_take, Nat.min_eq_left (by omega)]
      congr 1
      omega
    rw [Option.bind_some, parent, ancestor, ancestor, htake]
    simp only [show levels + 1 < q.depth ↔ 1 < a.depth by omega]

/-- A directory is named inside the one that it is in. -/
theorem ofPath_directory (project : String) (path : List String) (name : String) :
    ofPath project (path ++ [name]) none = (ofPath project path none).child name := by
  show ofSegments (project :: (path ++ [name]) ++ []) = (ofSegments (project :: path ++ [])).child _
  rw [List.append_nil, List.append_nil, ← List.cons_append,
    ofSegments_append (List.cons_ne_nil _ _)]

/-- A file is named inside the directory that it is in. -/
theorem ofPath_file (project : String) (path : List String) (file : String) :
    ofPath project path (some file) = (ofPath project path none).child (stem file) := by
  show ofSegments (project :: path ++ [stem file]) = (ofSegments (project :: path ++ [])).child _
  rw [List.append_nil, ofSegments_append (List.cons_ne_nil _ _)]

/-- The name of a directory has the segments of the project and then those of the path. -/
theorem segments_ofPath {project : String} {path : List String}
    (h : ∀ name ∈ path, '.' ∉ name.toList) :
    (ofPath project path none).segments = (⟨project⟩ : QualName).segments ++ path := by
  induction path using List.reverseRecOn with
  | nil =>
    have hproject : ofPath project [] none = ⟨project⟩ := rfl
    rw [hproject, List.append_nil]
  | append_singleton init name ih =>
    rw [ofPath_directory, segments_child (h name (by simp)),
      ih fun other hother ↦ h other (List.mem_append_left _ hother), List.append_assoc]

/-- A file name without what follows its first dot has no dot. -/
theorem not_mem_stem (file : String) : '.' ∉ (stem file).toList := by
  rw [stem, String.toList_ofList]
  intro h
  have hall := List.all_takeWhile (p := (· != '.')) (l := file.toList)
  rw [List.all_eq_true] at hall
  exact absurd (hall _ h) (by decide)

end QualName

end CodeAtlas
