import CodeAtlas.Command.Run
import CodeAtlas.Proofs.Toml.Documents
import CodeAtlas.Proofs.Writing

/-!
# Settings that are saved are loaded again

A configuration file has one line for each thing that is set. A `Key` says how a value is written
under a name and how it is read, and that the one undoes the other; what is not set has no line, and
is read as what it was.

## Lines

The text of settings is that of the lines of five keys (`toText_eq`), with different names
(`nodup_map_name_fields`), each of which is read back (`readable_fields`). So the members of the
document are those that were written, and the settings are read from them (`ofText?_toText`),
whatever texts they have: quotes, line breaks and control characters are escaped where they must be.

## Saving and loading

Settings are saved if the file can be written, and is not there or may be overwritten
(`save_eq_ok_iff`). A file that was written is there and has the text that was written, so what was
saved is loaded (`settings_saved_and_loaded`).
-/

namespace CodeAtlas

namespace Settings

open Toml (Field Members)

/-! ### Keys -/

/-- A key of a configuration file: how a value is written under it, and how it is read. -/
structure Key (α : Type) where
  name : String
  write : α → List Char
  toValue : α → Toml.Value
  ofValue? : Toml.Value → Option α
  bare : Toml.Reader.Bare name
  stands : ∀ a, Toml.Reader.Stands (write a) (toValue a)
  ofValue?_toValue : ∀ a, ofValue? (toValue a) = some a

/-- An array of texts is read as these. -/
theorem asTexts?_texts (texts : List String) :
    asTexts? (.array (texts.map .text)) = some texts := by
  rw [asTexts?]
  induction texts with
  | nil => rfl
  | cons text texts ih =>
    rw [List.map_cons, List.mapM_cons, ih]
    rfl

namespace Key

/-- A key for a text. -/
def ofText (name : String) (bare : Toml.Reader.Bare name) : Key String where
  name := name
  write := Toml.writeText
  toValue := .text
  ofValue? := asText?
  bare := bare
  stands := Toml.Reader.stands_text
  ofValue?_toValue _ := rfl

/-- A key for some texts. -/
def ofTexts (name : String) (bare : Toml.Reader.Bare name) : Key (List String) where
  name := name
  write := Toml.writeTexts
  toValue texts := .array (texts.map .text)
  ofValue? := asTexts?
  bare := bare
  stands := Toml.Reader.stands_texts
  ofValue?_toValue := asTexts?_texts

/-- A key for a truth value. -/
def ofBoolean (name : String) (bare : Toml.Reader.Bare name) : Key Bool where
  name := name
  write := Toml.writeBoolean
  toValue := .boolean
  ofValue? := asBoolean?
  bare := bare
  stands := Toml.Reader.stands_boolean
  ofValue?_toValue _ := rfl

variable {α : Type} (k : Key α) (a : Option α) {name : String}

/-- The line of a key, if there is a value for it. -/
def fields : List Field :=
  (a.map fun a ↦ ⟨k.name, k.write a, k.toValue a⟩).toList

/-- The line of a key can be read. -/
theorem readable_fields : ∀ f ∈ k.fields a, f.Readable := by
  intro f hf
  rw [fields, Option.mem_toList, Option.map_eq_some_iff] at hf
  obtain ⟨a, -, rfl⟩ := hf
  exact ⟨k.bare, k.stands a⟩

theorem map_name_fields_sublist : ((k.fields a).map Field.name).Sublist [k.name] := by
  cases a with
  | none => exact List.nil_sublist _
  | some a => exact List.Sublist.refl _

/-- The value of a key is found under its name. -/
@[simp] theorem find?_fields_self :
    Members.find? ((k.fields a).map Field.member) k.name = a.map k.toValue := by
  cases a with
  | none => rfl
  | some a =>
    rw [Members.find?]
    simp [fields, Field.member]

@[simp] theorem find?_fields_other (h : k.name ≠ name) :
    Members.find? ((k.fields a).map Field.member) name = none := by
  rw [Toml.Members.find?_eq_none_iff, List.map_map]
  exact fun hmem ↦ h (List.mem_singleton.1 ((k.map_name_fields_sublist a).subset hmem)).symm

end Key

/-- A key that has a value, or none, is read as that. -/
theorem optional?_of_find? {α : Type} (k : Key α) {a : Option α} {members : Members}
    (h : members.find? k.name = a.map k.toValue) :
    optional? k.ofValue? members k.name = some a := by
  rw [optional?, h]
  cases a with
  | none => rfl
  | some a =>
    show (k.ofValue? (k.toValue a)).map some = _
    rw [k.ofValue?_toValue]
    rfl

/-! ### The lines of a configuration file -/

/-- The key for the name of the project. -/
def projectKey : Key String :=
  .ofText "project" (by decide)

/-- The key for where the project is. -/
def pathKey : Key String :=
  .ofText "path" (by decide)

/-- The key for where documents are written. -/
def outDirKey : Key String :=
  .ofText "out_dir" (by decide)

/-- The key for what is excluded. -/
def excludeKey : Key (List String) :=
  .ofTexts "exclude" (by decide)

/-- The key for whether documents are pretty. -/
def prettyKey : Key Bool :=
  .ofBoolean "pretty" (by decide)

variable (s : Settings)

/-- What is excluded, if anything is. -/
def exclude? : Option (List String) :=
  if s.exclude.isEmpty then none else some s.exclude

/-- Excluding nothing is not setting what is excluded. -/
theorem getD_exclude? : s.exclude?.getD [] = s.exclude := by
  rw [exclude?]
  split
  · next hempty => exact (List.isEmpty_iff.1 hempty).symm
  · rfl

/-- The lines of a configuration file. -/
def fields : List Field :=
  projectKey.fields s.project ++ (pathKey.fields s.path ++ (outDirKey.fields s.outDir ++
    (excludeKey.fields s.exclude? ++ prettyKey.fields s.pretty)))

/-- The line for a text, if it is set, is that of its key. -/
theorem textLine_eq (name : String) (bare : Toml.Reader.Bare name) (value : Option String) :
    textLine name value = ((Key.ofText name bare).fields value).flatMap Field.line := by
  cases value with
  | none => rfl
  | some text => exact (List.append_nil _).symm

/-- The text of settings is that of their lines. -/
theorem toText_eq : s.toText = String.ofList (s.fields.flatMap Field.line) := by
  have hexclude : (if s.exclude.isEmpty then [] else
      Toml.writeLine "exclude" (Toml.writeTexts s.exclude)) =
      (excludeKey.fields s.exclude?).flatMap Field.line := by
    rw [exclude?]
    split
    · rfl
    · exact (List.append_nil _).symm
  rw [toText, hexclude, textLine_eq "project" projectKey.bare, textLine_eq "path" pathKey.bare,
    textLine_eq "out_dir" outDirKey.bare]
  simp only [fields, List.flatMap_append, List.append_assoc]
  cases s.pretty with
  | none => rfl
  | some b =>
    have hpretty : (prettyKey.fields (some b)).flatMap Field.line =
        Toml.writeLine "pretty" (Toml.writeBoolean b) := List.append_nil _
    rw [hpretty]
    rfl

/-- The lines of settings can be read. -/
theorem readable_fields : ∀ f ∈ s.fields, f.Readable := by
  simp only [fields, List.forall_mem_append]
  exact ⟨projectKey.readable_fields _, pathKey.readable_fields _, outDirKey.readable_fields _,
    excludeKey.readable_fields _, prettyKey.readable_fields _⟩

/-- No two lines have the same key. -/
theorem nodup_map_name_fields : (s.fields.map Field.name).Nodup := by
  have hsublist : (s.fields.map Field.name).Sublist
      ["project", "path", "out_dir", "exclude", "pretty"] := by
    simp only [fields, List.map_append]
    exact (projectKey.map_name_fields_sublist _).append ((pathKey.map_name_fields_sublist _).append
      ((outDirKey.map_name_fields_sublist _).append ((excludeKey.map_name_fields_sublist _).append
        (prettyKey.map_name_fields_sublist _))))
  exact hsublist.nodup (by decide)

/-- What is set, and what is not, is read from the lines of a configuration file. -/
theorem ofMembers?_fields : ofMembers? (s.fields.map Field.member) = some s := by
  -- No two keys have the same name, so each is found where its own line stands.
  have hproject : optional? asText? (s.fields.map Field.member) "project" = some s.project :=
    optional?_of_find? projectKey (by simp (disch := decide) [fields])
  have hpath : optional? asText? (s.fields.map Field.member) "path" = some s.path :=
    optional?_of_find? pathKey (by simp (disch := decide) [fields])
  have houtDir : optional? asText? (s.fields.map Field.member) "out_dir" = some s.outDir :=
    optional?_of_find? outDirKey (by simp (disch := decide) [fields])
  have hexclude : optional? asTexts? (s.fields.map Field.member) "exclude" = some s.exclude? :=
    optional?_of_find? excludeKey (by simp (disch := decide) [fields])
  have hpretty : optional? asBoolean? (s.fields.map Field.member) "pretty" = some s.pretty :=
    optional?_of_find? prettyKey (by simp (disch := decide) [fields])
  rw [ofMembers?, hproject, hpath, houtDir, hexclude, hpretty]
  show some { s with exclude := s.exclude?.getD [] } = some s
  rw [s.getD_exclude?]

/-- **The text of settings.** The settings are read back from the text of a configuration file. -/
theorem ofText?_toText : ofText? s.toText = some s := by
  rw [ofText?, toText_eq, Toml.ofText?_fields s.readable_fields s.nodup_map_name_fields]
  exact s.ofMembers?_fields

/-! ### Saving and loading -/

variable {s} {disk disk' : Disk} {file : String} {force : Bool}

/-- When settings are saved: the file can be written, and it is not there or may be overwritten. -/
theorem save_eq_ok_iff :
    s.save disk file force = .ok disk' ↔
      (disk.has file = true → force = true) ∧ disk.write file s.toText.toUTF8 = .ok disk' := by
  rw [save]
  cases disk.has file <;> cases force <;> cases disk.write file s.toText.toUTF8 <;> simp

/-- Settings are loaded from a file that was written with their text. -/
theorem load_of_write (h : disk.write file s.toText.toUTF8 = .ok disk') :
    load disk' file = .ok (some s) := by
  obtain ⟨hhas, hread⟩ := Disk.readText_write h
  rw [load, if_pos hhas, hread, Entry.decode_toUTF8]
  simp only [ofText?_toText]

/-- **Saving and loading.** Settings that were saved are loaded as they were, whatever texts they
have. A file that is there is not overwritten unless that is asked for: saving fails, and the
command that writes the settings to start with leaves the disk as it was. -/
theorem settings_saved_and_loaded (s : Settings) (disk : Disk) (file : String) :
    (∀ force disk', s.save disk file force = .ok disk' →
      load disk' file = .ok (some s)) ∧
    (disk.has file = true → s.save disk file false = .error (.alreadyThere file) ∧
      ∀ config : Option String, config.getD defaultFile = file →
        (Command.runInit disk { config }).disk = disk ∧
        (Command.runInit disk { config }).exitCode = 1) := by
  refine ⟨fun force disk' hsave ↦ load_of_write (save_eq_ok_iff.1 hsave).2, fun hhas ↦ ?_⟩
  have hsave : ∀ s' : Settings, s'.save disk file false = .error (.alreadyThere file) := by
    intro s'
    rw [save, hhas]
    rfl
  refine ⟨hsave s, ?_⟩
  rintro config rfl
  rw [Command.runInit]
  simp only [hsave]
  exact ⟨trivial, trivial⟩

/-- Settings whose texts need every kind of quotes, and escapes. -/
def quoted : Settings where
  project := some "\"quotes\" and 'quotes'"
  path := some "C:\\\n'''"
  outDir := some "\"\"\"\r\x00'''"
  exclude := ["", "\t\\"]
  pretty := some false

/-- The disk after the quoted settings were saved. -/
def quotedDisk : Disk where
  entries := [.file "s" quoted.toText.toUTF8]

theorem pieces_s : Path.pieces "s" = ["s"] := by
  rw [Path.pieces, String.splitOn, if_neg (by decide), String.splitOnAux, if_neg (by decide),
    if_neg (by decide), String.splitOnAux, if_pos (by decide)]
  rfl

/-- The quoted settings are saved, loaded again, and not overwritten. -/
theorem settings_saved_and_loaded_quoted :
    quoted.save { entries := [] } "s" false = .ok quotedDisk ∧
    load quotedDisk "s" = .ok (some quoted) ∧
    quotedDisk.has "s" = true ∧
    quoted.save quotedDisk "s" false = .error (.alreadyThere "s") ∧
    (Command.runInit quotedDisk { config := some "s" }).disk = quotedDisk := by
  have hstart : ∀ entries, Disk.start { entries } "s" = [] := fun entries ↦ ite_self []
  have hsave : quoted.save { entries := [] } "s" false = .ok quotedDisk := by
    rw [save, Disk.has, Disk.locate, Disk.write, pieces_s, hstart]
    rfl
  have hhas : quotedDisk.has "s" = true := by
    rw [Disk.has, Disk.locate, pieces_s, quotedDisk, hstart]
    rfl
  obtain ⟨hload, -⟩ := settings_saved_and_loaded quoted { entries := [] } "s"
  obtain ⟨-, hthere⟩ := settings_saved_and_loaded quoted quotedDisk "s"
  exact ⟨hsave, hload _ _ hsave, hhas, (hthere hhas).1, ((hthere hhas).2 (some "s") rfl).1⟩

end Settings

end CodeAtlas
