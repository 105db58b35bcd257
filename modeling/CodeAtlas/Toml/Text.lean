import CodeAtlas.Hexadecimal

/-!
# Strings of a TOML document

A string is written in one of four ways: in double quotes with escapes or in single quotes
without, on one line or, in three quotes, on several. Readers start after the opening quotes
and give the string together with what follows the closing quotes.
-/

namespace CodeAtlas

namespace Toml

/-- Whether a character may stand in a comment or a string as it is. Control characters other
than the tab may not. -/
def isPlain (c : Char) : Bool :=
  c = '\t' || (0x20 ≤ c.toNat && c.toNat ≠ 0x7F)

/-- Spaces and tabs. -/
def isBlank (c : Char) : Bool :=
  c = ' ' || c = '\t'

/-- Whether nothing but blanks stands before the next line break. -/
def endsLine (cs : List Char) : Bool :=
  match cs.dropWhile isBlank with
  | '\n' :: _ | '\r' :: '\n' :: _ => true
  | _ => false

/-! ### Escapes -/

/-- The character of a code point in hexadecimal digits. -/
def codePoint? (digits : List Char) : Option Char := do
  let values ← digits.mapM Hex.value?
  let n := values.foldl (fun n d ↦ 16 * n + d) 0
  if n.isValidChar then some (Char.ofNat n) else none

/-- The character of an escape of one letter. -/
def escape? : Char → Option Char
  | 'b' => some '\x08'
  | 't' => some '\t'
  | 'n' => some '\n'
  | 'f' => some '\x0c'
  | 'r' => some '\r'
  | '"' => some '"'
  | '\\' => some '\\'
  | _ => none

/-! ### Readers -/

/-- A string and what follows it. -/
abbrev Found := Option (List Char × List Char)

/-- Puts a character before a string that was read. -/
def before (c : Char) (found : Found) : Found :=
  found.map fun (s, rest) ↦ (c :: s, rest)

/-- Reads a string in double quotes. -/
def basic : List Char → Found
  | [] => none
  | '"' :: rest => some ([], rest)
  | '\\' :: 'u' :: a :: b :: c :: d :: rest => do before (← codePoint? [a, b, c, d]) (basic rest)
  | '\\' :: 'U' :: a :: b :: c :: d :: e :: f :: g :: h :: rest => do
    before (← codePoint? [a, b, c, d, e, f, g, h]) (basic rest)
  | '\\' :: c :: rest => do before (← escape? c) (basic rest)
  | c :: rest => if isPlain c && c ≠ '\\' then before c (basic rest) else none

/-- Reads a string in single quotes. -/
def literal : List Char → Found
  | [] => none
  | '\'' :: rest => some ([], rest)
  | c :: rest => if isPlain c then before c (literal rest) else none

/-- Reads a string in three double quotes. Up to two more may stand before the closing ones.
While `skipping`, after a backslash at the end of a line, blanks and line breaks are left
out. -/
def multiBasic (skipping : Bool) : List Char → Found
  | [] => none
  | '"' :: '"' :: '"' :: '"' :: '"' :: rest => some (['"', '"'], rest)
  | '"' :: '"' :: '"' :: '"' :: rest => some (['"'], rest)
  | '"' :: '"' :: '"' :: rest => some ([], rest)
  | '\r' :: '\n' :: rest =>
    if skipping then multiBasic true rest else before '\n' (multiBasic false rest)
  | '\\' :: 'u' :: a :: b :: c :: d :: rest => do
    before (← codePoint? [a, b, c, d]) (multiBasic false rest)
  | '\\' :: 'U' :: a :: b :: c :: d :: e :: f :: g :: h :: rest => do
    before (← codePoint? [a, b, c, d, e, f, g, h]) (multiBasic false rest)
  | '\\' :: c :: rest =>
    if endsLine (c :: rest) then
      match c, rest with
      | '\r', '\n' :: rest => multiBasic true rest
      | _, rest => multiBasic true rest
    else do before (← escape? c) (multiBasic false rest)
  | c :: rest =>
    if skipping && (isBlank c || c = '\n') then multiBasic true rest
    else if c = '\n' || isPlain c && c ≠ '\\' then before c (multiBasic false rest)
    else none

/-- Reads a string in three single quotes. Up to two more may stand before the closing ones. -/
def multiLiteral : List Char → Found
  | [] => none
  | '\'' :: '\'' :: '\'' :: '\'' :: '\'' :: rest => some (['\'', '\''], rest)
  | '\'' :: '\'' :: '\'' :: '\'' :: rest => some (['\''], rest)
  | '\'' :: '\'' :: '\'' :: rest => some ([], rest)
  | '\r' :: '\n' :: rest => before '\n' (multiLiteral rest)
  | c :: rest => if c = '\n' || isPlain c then before c (multiLiteral rest) else none

/-- Drops the line break that may follow opening quotes. -/
def dropLineBreak : List Char → List Char
  | '\n' :: rest | '\r' :: '\n' :: rest => rest
  | cs => cs

/-- Reads a string from its opening quotes. -/
def string : List Char → Found
  | '"' :: '"' :: '"' :: rest => multiBasic false (dropLineBreak rest)
  | '\'' :: '\'' :: '\'' :: rest => multiLiteral (dropLineBreak rest)
  | '"' :: rest => basic rest
  | '\'' :: rest => literal rest
  | _ => none

end Toml

end CodeAtlas
