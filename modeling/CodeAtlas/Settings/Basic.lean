import CodeAtlas.Toml.Reader
import CodeAtlas.Toml.Writer

/-!
# Settings

What a configuration file can say: the name of the project, where it is, where the documents
go, what is excluded, and whether the documents are pretty. Keys of other names are left out of
account.
-/

namespace CodeAtlas

/-- The settings of a configuration file. -/
structure Settings where
  project : Option String := none
  path : Option String := none
  outDir : Option String := none
  exclude : List String := []
  pretty : Option Bool := none
deriving DecidableEq, Repr

namespace Settings

/-- Where documents go if nothing else is said. -/
def defaultOutDir : String := "archscope-out"

/-- The configuration file if no other is named. -/
def defaultFile : String := "archscope.toml"

/-- The settings to start with. -/
def starter : Settings where
  path := some "."
  outDir := some defaultOutDir
  exclude := ["tests/", "docs/"]
  pretty := some true

/-! ### Reading -/

/-- The text of a value. -/
def asText? : Toml.Value → Option String
  | .text s => some s
  | _ => none

/-- The truth value of a value. -/
def asBoolean? : Toml.Value → Option Bool
  | .boolean b => some b
  | _ => none

/-- The texts of an array. -/
def asTexts? : Toml.Value → Option (List String)
  | .array items => items.mapM asText?
  | _ => none

/-- The value of a key that may be absent, but is of a given kind if it is there. -/
def optional? {α : Type} (kind : Toml.Value → Option α) (members : Toml.Members)
    (key : String) : Option (Option α) :=
  match members.find? key with
  | none => some none
  | some value => (kind value).map some

/-- The settings in a document. -/
def ofMembers? (members : Toml.Members) : Option Settings := do
  return {
    project := ← optional? asText? members "project"
    path := ← optional? asText? members "path"
    outDir := ← optional? asText? members "out_dir"
    exclude := (← optional? asTexts? members "exclude").getD []
    pretty := ← optional? asBoolean? members "pretty" }

/-- The settings in the text of a configuration file, if it is well-formed. -/
def ofText? (text : String) : Option Settings := do
  ofMembers? (← Toml.Members.ofText? text)

/-! ### Writing -/

/-- The line of a text, if there is one. -/
def textLine (key : String) (value : Option String) : List Char :=
  match value with
  | some s => Toml.writeLine key (Toml.writeText s)
  | none => []

/-- The text of a configuration file. What is not set is left out. -/
def toText (s : Settings) : String :=
  String.ofList <|
    textLine "project" s.project ++ textLine "path" s.path ++ textLine "out_dir" s.outDir ++
    (if s.exclude.isEmpty then [] else Toml.writeLine "exclude" (Toml.writeTexts s.exclude)) ++
    (match s.pretty with
      | some b => Toml.writeLine "pretty" (Toml.writeBoolean b)
      | none => [])

end Settings

end CodeAtlas
