import CodeAtlas.Command.Switch

/-!
# Help on commands

The help on a command says what it is for, how it is called, and what its commands and switches
are. A command with a detailed description has help in two forms: in the detailed one, each
switch has its description on a line below it.
-/

namespace CodeAtlas

/-- What help says about a command. -/
structure Manual where
  about : String
  details : Option String := none
  usage : String
  commands : List (String × String) := []
  arguments : List (String × String) := []
  switches : List Switch := []

namespace Manual

/-- Fills up a text with spaces. -/
def fill (width : Nat) (s : String) : String :=
  s ++ String.ofList (List.replicate (width - s.length) ' ')

/-- Two columns, the first as wide as its widest entry. -/
def columns (entries : List (String × String)) : List String :=
  let width := (entries.map (·.1.length)).foldl max 0
  entries.map fun (name, about) ↦ "  " ++ fill width name ++ "  " ++ about

/-- A section of entries in two columns; nothing if there are none. -/
def listing (title : String) (entries : List (String × String)) : List String :=
  if entries.isEmpty then [] else ["", title ++ ":"] ++ columns entries

/-- How a switch is written. -/
def form (s : Switch) : String :=
  let short := match s.short with
    | some c => "-" ++ c.toString ++ ", "
    | none => "    "
  let value := match s.value with
    | some _ => " <" ++ s.long.toUpper ++ ">"
    | none => ""
  short ++ "--" ++ s.long ++ value

/-- What a switch is for. The switch for help says how to get help in the other form. -/
def purpose (m : Manual) (detailed : Bool) (s : Switch) : String :=
  if s = Switch.help && m.details.isSome then
    s.about ++ if detailed then " (see a summary with '-h')" else " (see more with '--help')"
  else s.about

/-- The lines on switches with their descriptions below them. -/
def spread (entries : List (String × String)) : List String :=
  let parts := entries.map fun (name, about) ↦ ["  " ++ name, "          " ++ about]
  ["", "Options:"] ++ (parts.intersperse [""]).flatten

/-- The lines of the help on a command. -/
def lines (m : Manual) (detailed : Bool) : List String :=
  let entries := m.switches.map fun s ↦ (form s, m.purpose detailed s)
  let (top, switches) := match detailed, m.details with
    | true, some details => (details, spread entries)
    | _, _ => (m.about, listing "Options" entries)
  [top, "", "Usage: " ++ m.usage] ++ listing "Commands" m.commands ++
    listing "Arguments" m.arguments ++ switches

/-- The help on a command. -/
def text (m : Manual) (detailed : Bool) : String :=
  "\n".intercalate (m.lines detailed)

end Manual

end CodeAtlas
