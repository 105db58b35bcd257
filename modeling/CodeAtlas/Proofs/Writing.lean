import CodeAtlas.Files.Disk
import CodeAtlas.Proofs.FileTree

/-!
# What a file that is written holds

Writing a file puts one entry into one directory of a tree. So the file is in its directory
(`Entry.list_write`), and every directory is still there, with all the names in it
(`Entry.stays_write`).

A path is a text, cut into pieces at slashes, which are followed one after another from the root or
from where the disk stands (`Disk.follow_cons`). Where directories stay, pieces lead where they led
before (`Disk.follow_of_stays`). The text of a path that was written has a last piece which is a
name and not a dot or two (`Disk.exists_write`). So after writing it leads to the directory that the
file was put into, and in there to the file (`Disk.readText_write`).
-/

namespace CodeAtlas

namespace Entry

variable {entries entries' inner : List Entry} {bytes : ByteArray} {path : Path} {name : String}

/-! ### Trees -/

/-- The first entry of a name is found. -/
theorem find?_cons (e : Entry) (entries : List Entry) (name : String) :
    find? (e :: entries) name = if name = e.name then some e else find? entries name := by
  rw [find?, List.find?_cons]
  by_cases hname : name = e.name
  · rw [if_pos hname, hname, beq_self_eq_true]
  · rw [if_neg hname, beq_eq_false_iff_ne.2 (Ne.symm hname)]
    rfl

/-- An entry that is put into a directory is found, and so are the others. -/
theorem find?_put (e : Entry) (entries : List Entry) (name : String) :
    find? (put e entries) name = if name = e.name then some e else find? entries name := by
  fun_induction put e entries with
  | case1 => exact find?_cons e [] name
  | case2 first rest _ => exact find?_cons e (first :: rest) name
  | case3 first rest _ hsame =>
    rw [find?_cons, find?_cons, ← hsame]
    split
    · rfl
    · rfl
  | case4 first rest _ hother ih =>
    rw [find?_cons, find?_cons, ih]
    by_cases hfirst : name = first.name
    · rw [if_pos hfirst, if_pos hfirst, if_neg fun he ↦ hother (he.symm.trans hfirst)]
    · rw [if_neg hfirst, if_neg hfirst]

/-- A directory is listed by the first name of its path, and the rest in the directory with that
name. -/
theorem list_cons_eq_ok_iff :
    list entries (name :: path) = .ok inner ↔
      ∃ other below, find? entries name = some (.directory other below) ∧
        list below path = .ok inner := by
  rw [list]
  cases find? entries name with
  | none => simp
  | some e =>
    cases e with
    | file => simp
    | directory other below =>
      constructor
      · exact fun hlist ↦ ⟨other, below, rfl, hlist⟩
      · rintro ⟨_, _, hfind, hlist⟩
        cases hfind
        exact hlist

/-- The directories of the first tree are in the second, with all the names in them. -/
def Stays (entries entries' : List Entry) : Prop :=
  ∀ path inner, list entries path = .ok inner → ∃ inner', list entries' path = .ok inner' ∧
    ∀ name, (find? inner name).isSome → (find? inner' name).isSome

/-- A new entry takes no directory away, if it is a file in no directory's place, or a directory
that has what was in the one in its place. -/
theorem stays_put {e : Entry}
    (h : ∀ other inner, find? entries e.name = some (.directory other inner) →
      ∃ inner', e = .directory e.name inner' ∧ Stays inner inner') :
    Stays entries (put e entries) := by
  intro path inner hlist
  cases path with
  | nil =>
    cases hlist
    refine ⟨_, rfl, fun name hname ↦ ?_⟩
    rw [find?_put]
    split
    · rfl
    · exact hname
  | cons name path =>
    obtain ⟨other, below, hfind, hbelow⟩ := list_cons_eq_ok_iff.1 hlist
    by_cases hname : name = e.name
    · subst hname
      obtain ⟨below', he, hstays⟩ := h other below hfind
      obtain ⟨inner', hbelow', hnames⟩ := hstays path inner hbelow
      refine ⟨inner', list_cons_eq_ok_iff.2 ⟨e.name, below', ?_, hbelow'⟩, hnames⟩
      rw [find?_put, if_pos rfl, ← he]
    · refine ⟨inner, list_cons_eq_ok_iff.2 ⟨other, below, ?_, hbelow⟩, fun _ hname ↦ hname⟩
      rw [find?_put, if_neg hname, hfind]

/-- Writing a file takes no directory away. -/
theorem stays_write (h : write entries bytes path = .ok entries') : Stays entries entries' := by
  fun_induction write entries bytes path generalizing entries' with
  | case1 => cases h
  | case2 => cases h
  | case3 entries name hfind =>
    cases h
    exact stays_put fun other inner hdirectory ↦ absurd hdirectory (hfind other inner)
  | case4 => cases h
  | case5 => cases h
  | case6 entries name rest _ other inner hfind ih =>
    obtain ⟨inner', hinner', hput⟩ := bind_eq_ok_iff.1 h
    cases hput
    refine stays_put fun other' inner'' hfind' ↦ ⟨inner', rfl, ?_⟩
    cases hfind.symm.trans hfind'
    exact ih hinner'

/-- A file is written in the directory with the first name of its path, which is put back. -/
theorem write_cons_eq_ok (hpath : path ≠ [])
    (h : write entries bytes (name :: path) = .ok entries') :
    ∃ other below below', find? entries name = some (.directory other below) ∧
      write below bytes path = .ok below' ∧ entries' = put (.directory name below') entries := by
  rw [write] at h
  · split at h
    · cases h
    · cases h
    · next other below hfind =>
      obtain ⟨below', hbelow', hput⟩ := bind_eq_ok_iff.1 h
      cases hput
      exact ⟨other, below, below', hfind, hbelow', rfl⟩
  · exact hpath

/-- A file that was written is in its directory. -/
theorem list_write (h : write entries bytes (path ++ [name]) = .ok entries') :
    ∃ inner, list entries' path = .ok inner ∧ find? inner name = some (.file name bytes) := by
  induction path generalizing entries entries' with
  | nil =>
    rw [List.nil_append, write] at h
    split at h
    · cases h
    · cases h
      exact ⟨_, rfl, by rw [find?_put]; exact if_pos rfl⟩
  | cons first path ih =>
    obtain ⟨other, below, below', hfind, hwrite, rfl⟩ := write_cons_eq_ok (by simp) h
    obtain ⟨inner, hlist, hfile⟩ := ih hwrite
    refine ⟨inner, list_cons_eq_ok_iff.2 ⟨first, below', ?_, hlist⟩, hfile⟩
    rw [find?_put]
    exact if_pos rfl

/-- A file in a directory is read there. -/
theorem read_of_list (hlist : list entries path = .ok inner)
    (hfile : find? inner name = some (.file name bytes)) :
    read entries (path ++ [name]) = .ok bytes := by
  induction path generalizing entries with
  | nil =>
    cases hlist
    rw [List.nil_append, read, hfile]
  | cons first path ih =>
    obtain ⟨other, below, hfind, hlist⟩ := list_cons_eq_ok_iff.1 hlist
    rw [List.cons_append, read_cons (by simp), hfind]
    exact ih hlist

end Entry

/-! ### Disks -/

namespace Disk

variable {d d' : Disk} {here target : Path} {pieces : List String} {text : String}
  {bytes : ByteArray}

/-- Where one piece of a path leads. -/
def step (d : Disk) (here : Path) (piece : String) : Except FileError Path :=
  match Entry.list d.entries here with
  | .error cause => .error cause
  | .ok entries =>
    if piece = "" || piece = "." then .ok here
    else if piece = ".." then .ok here.dropLast
    else if (Entry.find? entries piece).isSome then .ok (here ++ [piece])
    else .error .notFound

/-- Pieces of a path are followed one after another. -/
theorem follow_cons (d : Disk) (here : Path) (piece : String) (rest : List String) :
    d.follow here (piece :: rest) = (d.step here piece).bind (d.follow · rest) := by
  rw [follow, step]
  cases Entry.list d.entries here with
  | error cause => rfl
  | ok entries =>
    show (if _ then _ else _) = Except.bind (if _ then _ else _) _
    split
    · rfl
    · split
      · rfl
      · split
        · rfl
        · rfl

/-- Following pieces of a path and then more is following all of them. -/
theorem follow_append (d : Disk) (here : Path) (pieces more : List String) :
    d.follow here (pieces ++ more) = (d.follow here pieces).bind (d.follow · more) := by
  induction pieces generalizing here with
  | nil => rfl
  | cons piece rest ih =>
    rw [List.cons_append, follow_cons, follow_cons]
    cases d.step here piece with
    | error cause => rfl
    | ok there => exact ih there

/-- Where directories stay, a piece of a path leads where it led before. -/
theorem step_of_stays (hstays : Entry.Stays d.entries d'.entries) {piece : String}
    (h : d.step here piece = .ok target) : d'.step here piece = .ok target := by
  unfold step at h ⊢
  cases hlist : Entry.list d.entries here with
  | error cause =>
    rw [hlist] at h
    cases h
  | ok entries =>
    obtain ⟨entries', hlist', hnames⟩ := hstays here entries hlist
    rw [hlist] at h
    rw [hlist']
    dsimp only at h ⊢
    split at h
    · next hhere => rw [if_pos hhere, h]
    · next hhere =>
      rw [if_neg hhere]
      split at h
      · next hup => rw [if_pos hup, h]
      · next hup =>
        rw [if_neg hup]
        split at h
        · next hname => rw [if_pos (hnames piece hname), h]
        · cases h

/-- Where directories stay, the pieces of a path lead where they led before. -/
theorem follow_of_stays (hstays : Entry.Stays d.entries d'.entries)
    (h : d.follow here pieces = .ok target) : d'.follow here pieces = .ok target := by
  induction pieces generalizing here with
  | nil => exact h
  | cons piece rest ih =>
    rw [follow_cons] at h ⊢
    obtain ⟨there, hstep, hrest⟩ := bind_eq_ok_iff.1 h
    rw [step_of_stays hstays hstep]
    exact ih hrest

theorem pieces_empty : Path.pieces "" = [] ++ [""] := by
  rw [Path.pieces, String.splitOn, if_neg (by decide), String.splitOnAux, if_pos (by decide)]
  rfl

/-- The last piece of a path that does not end in a slash has a name. -/
theorem ne_empty_of_getLast? {name : String}
    (h : (pieces.reverse.dropWhile (· = "")).reverse.getLast? = some name) : name ≠ "" := by
  have hhead := List.head?_dropWhile_not (fun piece : String ↦ decide (piece = "")) pieces.reverse
  rw [List.getLast?_reverse] at h
  rw [h] at hhead
  exact of_decide_eq_false hhead

/-- A path that does not end in a slash has a name as its last piece. -/
theorem eq_of_not_lt_named
    (h : ¬ ((pieces.reverse.dropWhile (· = "")).reverse.length < pieces.length)) :
    (pieces.reverse.dropWhile (· = "")).reverse = pieces := by
  have hsuffix := List.dropWhile_suffix (l := pieces.reverse) (· = "")
  rw [List.length_reverse, ← pieces.length_reverse] at h
  rw [hsuffix.eq_of_length_le (Nat.not_lt.1 h), List.reverse_reverse]

/-- What writing a file means: there is a directory for it, and the last piece of its path is its
name. -/
theorem exists_write (h : d.write text bytes = .ok d') :
    ∃ before name parent entries, Path.pieces text = before ++ [name] ∧
      (name ≠ "" ∧ name ≠ "." ∧ name ≠ "..") ∧ d.follow (d.start text) before = .ok parent ∧
      Entry.write d.entries bytes (parent ++ [name]) = .ok entries ∧ d' = { d with entries } := by
  unfold write at h
  dsimp only at h
  split at h
  · cases h
  next name hname =>
  obtain ⟨parent, hparent, hrest⟩ := bind_eq_ok_iff.1 h
  split at hrest
  · cases hrest
  next hdots =>
  split at hrest
  · cases hrest
  next hlength =>
  obtain ⟨entries, hwrite, hdisk⟩ := bind_eq_ok_iff.1 hrest
  cases hdisk
  have hempty : name ≠ "" := ne_empty_of_getLast? hname
  rw [eq_of_not_lt_named hlength] at hname hparent
  obtain ⟨before, hpieces⟩ := List.getLast?_eq_some_iff.1 hname
  rw [hpieces, List.dropLast_concat] at hparent
  exact ⟨before, name, parent, entries, hpieces, ⟨hempty, by simpa using hdots⟩, hparent, hwrite,
    rfl⟩

/-- **Files that are written.** The path of a file that was written leads to a file, which has the
text that was written. -/
theorem readText_write (h : d.write text bytes = .ok d') :
    d'.has text = true ∧ d'.readText text = Entry.decode bytes := by
  obtain ⟨before, name, parent, entries, hpieces, ⟨hname, hdot, hdots⟩, hparent, hwrite, rfl⟩ :=
    exists_write h
  have hstays : Entry.Stays d.entries (Disk.entries { d with entries }) := Entry.stays_write hwrite
  obtain ⟨inner, hlist, hfile⟩ := Entry.list_write hwrite
  have hempty : text ≠ "" := by
    rintro rfl
    exact hname (List.append_singleton_inj.1 (hpieces.symm.trans pieces_empty)).2
  have hstep : step { d with entries } parent name = .ok (parent ++ [name]) := by
    rw [step, hlist]
    simp [hname, hdot, hdots, hfile]
  have hlocate : locate { d with entries } text = .ok (parent ++ [name]) := by
    rw [locate, if_neg hempty, hpieces, follow_append,
      show start { d with entries } text = d.start text from rfl, follow_of_stays hstays hparent]
    show follow { d with entries } parent [name] = _
    rw [follow_cons, hstep]
    rfl
  refine ⟨?_, ?_⟩
  · rw [has, hlocate]
    rfl
  · rw [readText, hlocate]
    show Entry.readText entries (parent ++ [name]) = _
    rw [Entry.readText, Entry.read_of_list hlist hfile]
    rfl

end Disk

end CodeAtlas
