/-!
# Values of a TOML document

Tables remember how they came about, since that decides what may be added to them: a table
with a header of its own is closed to dotted keys, a table that only a header below it or a
dotted key implies is open to its own kind, and an inline table is complete.
-/

namespace CodeAtlas

namespace Toml

/-- How a table came about. -/
inductive Origin where
  /-- The document itself, or a table with a header. -/
  | header
  /-- Implied by the header of a table below. -/
  | implied
  /-- Implied by a dotted key. -/
  | dotted
  /-- Written in braces. -/
  | inline
deriving DecidableEq, Repr

/-- A value. Numbers and dates are kept as they are written. -/
inductive Value where
  | text (s : String)
  | boolean (b : Bool)
  | number (written : String)
  | date (written : String)
  | array (items : List Value)
  | table (origin : Origin) (members : List (String × Value))
  | tables (elements : List Value)

/-- The members of a table. -/
abbrev Members := List (String × Value)

namespace Members

/-- The value of a key. -/
def find? (members : Members) (key : String) : Option Value :=
  (List.find? (·.1 == key) members).map Prod.snd

/-- Gives a key another value, or adds the key at the end. -/
def put (members : Members) (key : String) (value : Value) : Members :=
  if members.any (·.1 == key) then
    members.map fun m ↦ if m.1 == key then (key, value) else m
  else members ++ [(key, value)]

end Members

namespace Value

/-- Changes the table that a path of keys leads to. Tables on the way that are not there are
made. An array of tables stands for its last table. A dotted key does not lead through a table
with a header, and nothing leads through other values. -/
def changeAt (dotted : Bool) (change : Origin → Members → Option Value) :
    List String → Origin → Members → Option Value
  | [], origin, members => change origin members
  | key :: rest, origin, members =>
    match Members.find? members key with
    | none => do
      let made ← changeAt dotted change rest (if dotted then .dotted else .implied) []
      return table origin (members.put key made)
    | some (table inner innerMembers) =>
      if inner = .inline || dotted && inner = .header then none
      else do
        let changed ← changeAt dotted change rest inner innerMembers
        return table origin (members.put key changed)
    | some (tables elements) =>
      match elements.getLast? with
      | some (table inner innerMembers) => do
        let changed ← changeAt dotted change rest inner innerMembers
        return table origin (members.put key (tables (elements.dropLast ++ [changed])))
      | _ => none
    | some _ => none

/-- Gives a new key of a table a value. -/
def addKey (key : String) (value : Value) (origin : Origin) (members : Members) :
    Option Value :=
  if (Members.find? members key).isSome then none
  else some (table origin (members.put key value))

/-- Adds what a line `key = value` says. A dotted key ends in a table that dotted keys made. -/
def addDotted (path : List String) (key : String) (value : Value) :
    Origin → Members → Option Value :=
  changeAt true
    (fun origin members ↦
      if !path.isEmpty && origin ≠ .dotted then none else addKey key value origin members)
    path

/-- Opens the table that a header names. It must not be there, unless it is only implied by
headers of tables below it. -/
def openTable (path : List String) (key : String) : Origin → Members → Option Value :=
  changeAt false
    (fun origin members ↦
      match Members.find? members key with
      | none => some (table origin (members.put key (table .header [])))
      | some (table .implied inner) => some (table origin (members.put key (table .header inner)))
      | some _ => none)
    path

/-- Adds a table to the array of tables that a header names. -/
def openElement (path : List String) (key : String) : Origin → Members → Option Value :=
  changeAt false
    (fun origin members ↦
      match Members.find? members key with
      | none => some (table origin (members.put key (tables [table .header []])))
      | some (tables elements) =>
        some (table origin (members.put key (tables (elements ++ [table .header []]))))
      | some _ => none)
    path

end Value

end Toml

end CodeAtlas
