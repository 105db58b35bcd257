import CodeAtlas.Toml.Scalar
import CodeAtlas.Toml.Text

/-!
# Reading TOML documents

A document is a sequence of lines: keys with their values, and headers that say to which table
the keys after them belong. Brackets and braces nest less than eighty deep, and a dotted key has
less than eighty parts.
-/

namespace CodeAtlas

namespace Toml

/-- Reads from a text; there is no result if the text is malformed. -/
abbrev Reader := StateT (List Char) Option

namespace Reader

/-- Takes a character that has to come next. -/
def expect (c : Char) : Reader Unit := fun
  | d :: rest => if c = d then some ((), rest) else none
  | [] => none

/-- Takes a character if it comes next. -/
def accept (c : Char) : Reader Bool := fun
  | d :: rest => some (if c = d then (true, rest) else (false, d :: rest))
  | [] => some (false, [])

/-- Takes spaces and tabs. -/
def blanks : Reader Unit := fun cs ↦ some ((), cs.dropWhile isBlank)

/-- What follows the end of a line, which may have blanks and a comment before it. -/
def afterLine (cs : List Char) : Option (List Char) :=
  let rest := match cs.dropWhile isBlank with
    | '#' :: comment => comment.dropWhile isPlain
    | rest => rest
  match rest with
  | [] => some []
  | '\n' :: rest | '\r' :: '\n' :: rest => some rest
  | _ => none

/-- Takes the end of a line. -/
def endLine : Reader Unit := fun cs ↦ (afterLine cs).map ((), ·)

/-- What follows blanks, line breaks and comments. -/
def afterGap (inComment : Bool) : List Char → Option (List Char)
  | [] => if inComment then none else some []
  | '\n' :: rest => afterGap false rest
  | '\r' :: '\n' :: rest => afterGap false rest
  | c :: rest =>
    if inComment then
      if isPlain c then afterGap true rest else none
    else if c = '#' then afterGap true rest
    else if isBlank c then afterGap false rest
    else some (c :: rest)

/-- Takes blanks, line breaks and comments. -/
def gap : Reader Unit := fun cs ↦ (afterGap false cs).map ((), ·)

/-! ### Keys -/

/-- Characters of a key without quotes. -/
def isKeyChar (c : Char) : Bool :=
  isDigit c || ('a' ≤ c && c ≤ 'z') || ('A' ≤ c && c ≤ 'Z') || c = '_' || c = '-'

/-- Takes a part of a key. -/
def keyPart : Reader String := fun cs ↦
  match cs with
  | '"' :: rest => (basic rest).map fun (s, rest) ↦ (String.ofList s, rest)
  | '\'' :: rest => (literal rest).map fun (s, rest) ↦ (String.ofList s, rest)
  | cs =>
    let part := cs.takeWhile isKeyChar
    if part.isEmpty then none else some (String.ofList part, cs.drop part.length)

/-- The bound on nesting and on the parts of a key. -/
def depthLimit : Nat := 80

/-- Takes the parts of a key, at most `limit` of them. -/
def keyParts : (limit : Nat) → Reader (List String)
  | 0 => failure
  | limit + 1 => do
    blanks
    let part ← keyPart
    blanks
    if ← accept '.' then return part :: (← keyParts limit) else return [part]

/-- Takes a key: the parts before the last, and the last. -/
def key : Reader (List String × String) := do
  let parts ← keyParts (depthLimit - 1)
  match parts.getLast? with
  | some last => return (parts.dropLast, last)
  | none => failure

/-! ### Values -/

/-- Takes the elements of an array after its bracket, at most `limit` of them. -/
def items (item : Reader Value) : (limit : Nat) → Reader (List Value)
  | 0 => failure
  | limit + 1 => do
    gap
    if ← accept ']' then return []
    let first ← item
    gap
    if ← accept ',' then return first :: (← items item limit)
    expect ']'
    return [first]

/-- Takes the members of an inline table after its brace, at most `limit` of them. -/
def inlineMembers (item : Reader Value) : (limit : Nat) → Value → Reader Value
  | limit + 1, .table origin members => do
    let (path, last) ← key
    expect '='
    blanks
    let value ← item
    blanks
    let table ← (Value.addDotted path last value origin members : Option Value)
    if ← accept ',' then inlineMembers item limit table
    else
      expect '\x7d'
      return table
  | _, _ => failure

/-- Closes a table to additions. -/
def complete : Value → Value
  | .table _ members => .table .inline members
  | value => value

/-- Takes an inline table after its brace. -/
def inlineTable (item : Reader Value) : Reader Value := do
  blanks
  if ← accept '\x7d' then return .table .inline []
  let size := (← get).length
  return complete (← inlineMembers item size (.table .header []))

/-- Takes a value that nests at most `levels` deep. -/
def value : (levels : Nat) → Reader Value
  | 0 => do
    match ← get with
    | '[' :: _ | '\x7b' :: _ => failure
    | _ => simple
  | levels + 1 => do
    match ← get with
    | '[' :: rest =>
      set rest
      return .array (← items (value levels) (rest.length + 1))
    | '\x7b' :: rest =>
      set rest
      inlineTable (value levels)
    | _ => simple
where
  /-- Takes a value that does not nest. -/
  simple : Reader Value := fun cs ↦
    match cs with
    | '"' :: _ | '\'' :: _ => (string cs).map fun (s, rest) ↦ (.text (String.ofList s), rest)
    | cs =>
      let (w, rest) := word cs
      (scalar? w).map (·, rest)

/-! ### Documents -/

/-- A document as far as it has been read: its tables, and the table that keys belong to. -/
structure Document where
  origin : Origin := .header
  members : Members := []
  current : List String := []

/-- Changes the table at the top. -/
def Document.change (d : Document) (f : Origin → Members → Option Value)
    (current : List String) : Option Document :=
  match f d.origin d.members with
  | some (.table origin members) => some ⟨origin, members, current⟩
  | _ => none

/-- Takes a line with a key and its value. -/
def keyLine (d : Document) : Reader Document := do
  let (path, last) ← key
  expect '='
  blanks
  let value ← value (depthLimit - 1)
  endLine
  d.change (Value.changeAt false (Value.addDotted path last value) d.current) d.current

/-- Takes a header after its first bracket. -/
def header (d : Document) : Reader Document := do
  let isElement ← accept '['
  let (path, last) ← key
  expect ']'
  if isElement then expect ']'
  endLine
  d.change (if isElement then Value.openElement path last else Value.openTable path last)
    (path ++ [last])

/-- Takes the lines of a document, at most `limit` of them. -/
def lines : (limit : Nat) → Document → Reader Document
  | 0, _ => failure
  | limit + 1, d => do
    blanks
    match ← get with
    | [] => return d
    | '\n' :: _ | '\r' :: _ | '#' :: _ =>
      endLine
      lines limit d
    | '[' :: rest =>
      set rest
      lines limit (← header d)
    | _ => lines limit (← keyLine d)

end Reader

/-- The members of a document, if it is well-formed. A byte order mark may stand before it. -/
def Members.ofText? (text : String) : Option Members := do
  let cs := text.toList
  let cs := if cs.head? = some '\ufeff' then cs.tail else cs
  let (d, _) ← (Reader.lines (cs.length + 1) {}).run cs
  return d.members

end Toml

end CodeAtlas
