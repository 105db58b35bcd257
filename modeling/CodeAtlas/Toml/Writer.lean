import CodeAtlas.Hexadecimal

/-!
# Writing TOML documents

A string is written on one line in double quotes if it needs no escapes there, else in single
quotes, else in three double or single quotes, whichever comes first of those that need no
escapes; if all do, it is written with escapes. Lists of two or more strings have a line for
each.
-/

namespace CodeAtlas

namespace Toml

/-- The longest run of a character. -/
def longestRun (c : Char) (cs : List Char) : Nat :=
  (cs.foldl (fun (longest, current) d ↦
    let current := if d = c then current + 1 else 0
    (max longest current, current)) (0, 0)).1

/-- Whether a character is a control character other than the tab and the line feed. -/
def isControl (c : Char) : Bool :=
  (c.toNat < 0x20 && c ≠ '\t' && c ≠ '\n') || c.toNat = 0x7F

/-- The ways to write a string. -/
inductive Style where
  | basic
  | literal
  | multiBasic
  | multiLiteral
deriving DecidableEq, Repr

namespace Style

/-- The way in which a string is written. -/
def ofText (cs : List Char) : Style :=
  let controls := cs.any isControl
  let backslash := cs.contains '\\'
  let newline := cs.contains '\n'
  let double := longestRun '"' cs
  let single := longestRun '\'' cs
  if !controls && !backslash && double = 0 && !newline then basic
  else if !controls && single = 0 && !newline then literal
  else if !controls && !backslash && double ≤ 2 then multiBasic
  else if !controls && single ≤ 2 then multiLiteral
  else if newline then multiBasic
  else basic

/-- The quotes around a string. -/
def quotes : Style → List Char
  | basic => ['"']
  | literal => ['\'']
  | multiBasic => ['"', '"', '"']
  | multiLiteral => ['\'', '\'', '\'']

end Style

/-- A character in double quotes that needs an escape; `none` if it needs none. The line feed
needs one on a single line only. -/
def escaped? (isMulti : Bool) (c : Char) : Option (List Char) :=
  match c with
  | '\x08' => some ['\\', 'b']
  | '\t' => some ['\\', 't']
  | '\n' => if isMulti then none else some ['\\', 'n']
  | '\x0c' => some ['\\', 'f']
  | '\r' => some ['\\', 'r']
  | '\\' => some ['\\', '\\']
  | c =>
    if c.toNat < 0x20 || c.toNat = 0x7F then
      some ['\\', 'u', '0', '0', Hex.upper (c.toNat / 16), Hex.upper (c.toNat % 16)]
    else none

/-- The characters of a string in double quotes. A quote needs an escape after as many quotes as
may stand together, which are none on a single line and two on several; `run` counts those. -/
def escape (isMulti : Bool) (run : Nat) : List Char → List Char
  | [] => []
  | '"' :: rest =>
    if run < (if isMulti then 2 else 0) then '"' :: escape isMulti (run + 1) rest
    else '\\' :: '"' :: escape isMulti 0 rest
  | c :: rest => (escaped? isMulti c).getD [c] ++ escape isMulti 0 rest

/-- A string as it is written. One on several lines starts on a line of its own if it has a
line break. -/
def writeText (s : String) : List Char :=
  let cs := s.toList
  let style := Style.ofText cs
  let quotes := style.quotes
  let lineBreak := if cs.contains '\n' then ['\n'] else []
  match style with
  | .basic => quotes ++ escape false 0 cs ++ quotes
  | .literal => quotes ++ cs ++ quotes
  | .multiBasic => quotes ++ lineBreak ++ escape true 0 cs ++ quotes
  | .multiLiteral => quotes ++ lineBreak ++ cs ++ quotes

/-- A truth value as it is written. -/
def writeBoolean (b : Bool) : List Char :=
  if b then "true".toList else "false".toList

/-- A list of strings as it is written. -/
def writeTexts : List String → List Char
  | [] => ['[', ']']
  | [s] => '[' :: writeText s ++ [']']
  | texts =>
    '[' :: texts.flatMap (fun s ↦ "\n    ".toList ++ writeText s ++ [',']) ++ ['\n', ']']

/-- The line of a key. -/
def writeLine (key : String) (value : List Char) : List Char :=
  key.toList ++ " = ".toList ++ value ++ ['\n']

end Toml

end CodeAtlas
