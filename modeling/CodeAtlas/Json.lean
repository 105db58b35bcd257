import CodeAtlas.Hexadecimal

/-!
# JSON documents

Values and their text. The compact text has no white space; the pretty one has a line for each
element and each member, indented by two spaces a level. Characters outside ASCII are written
as they are.
-/

namespace CodeAtlas

/-- A JSON value. Numbers are natural, and the members of an object keep their order. -/
inductive Json where
  | null
  | number (n : Nat)
  | text (s : String)
  | array (items : List Json)
  | object (members : List (String × Json))

namespace Json

/-! ### Strings -/

/-- A character inside a string. -/
def escape (c : Char) : List Char :=
  match c with
  | '"' => ['\\', '"']
  | '\\' => ['\\', '\\']
  | '\x08' => ['\\', 'b']
  | '\t' => ['\\', 't']
  | '\n' => ['\\', 'n']
  | '\x0c' => ['\\', 'f']
  | '\r' => ['\\', 'r']
  | c =>
    if c.toNat < 0x20 then
      ['\\', 'u', '0', '0', Hex.lower (c.toNat / 16), Hex.lower (c.toNat % 16)]
    else [c]

/-- A string in quotes. -/
def quote (s : String) : String :=
  String.ofList ('"' :: s.toList.flatMap escape ++ ['"'])

/-! ### Compact text -/

mutual

/-- The compact text of a value. -/
def compact : Json → String
  | null => "null"
  | number n => toString n
  | text s => quote s
  | array items => "[" ++ ",".intercalate (compactItems items) ++ "]"
  | object members => "\x7b" ++ ",".intercalate (compactMembers members) ++ "\x7d"

/-- The compact texts of the elements of an array. -/
def compactItems : List Json → List String
  | [] => []
  | item :: rest => compact item :: compactItems rest

/-- The compact texts of the members of an object. -/
def compactMembers : List (String × Json) → List String
  | [] => []
  | (key, value) :: rest => (quote key ++ ":" ++ compact value) :: compactMembers rest

end

/-! ### Pretty text -/

/-- A line break and the indentation of a level. -/
def lineBreak (level : Nat) : String :=
  "\n" ++ String.ofList (List.replicate (2 * level) ' ')

/-- Parts in brackets, each on a line of its own; nothing between the brackets if there are no
parts. -/
def bracket (left right : String) (level : Nat) (parts : List String) : String :=
  if parts.isEmpty then left ++ right
  else
    left ++ ",".intercalate (parts.map (lineBreak (level + 1) ++ ·)) ++ lineBreak level ++ right

mutual

/-- The pretty text of a value inside a number of levels. -/
def prettyAt (level : Nat) : Json → String
  | null => "null"
  | number n => toString n
  | text s => quote s
  | array items => bracket "[" "]" level (prettyItems (level + 1) items)
  | object members => bracket "\x7b" "\x7d" level (prettyMembers (level + 1) members)

/-- The pretty texts of the elements of an array. -/
def prettyItems (level : Nat) : List Json → List String
  | [] => []
  | item :: rest => prettyAt level item :: prettyItems level rest

/-- The pretty texts of the members of an object. -/
def prettyMembers (level : Nat) : List (String × Json) → List String
  | [] => []
  | (key, value) :: rest =>
    (quote key ++ ": " ++ prettyAt level value) :: prettyMembers level rest

end

/-- The text of a value. -/
def render (pretty : Bool) (value : Json) : String :=
  if pretty then prettyAt 0 value else compact value

end Json

end CodeAtlas
