import CodeAtlas.Source.Token

/-!
# Reading tokens

`Token.ofText?` reads the tokens of a source text and fails where a character begins none.
The reader keeps a stack of what is open: brackets, string literals, fields of formatted
strings and their formats. The top of the stack decides how the next characters are read, and
a line ends only where the stack is empty.

Indentation is counted as follows: a blank is one column, a tab is eight, and a carriage
return or form feed starts over. Lines that are empty or hold only a comment do not count.

## Where it may differ from the grammar

Which texts are Python is settled by the tree-sitter grammar of the language: a file with an
error in its tree is rejected. That a text has the same tokens here was tested on many texts and
is not proved. These are the places where the two may part:

* Here a line never ends between brackets. The scanner of that grammar has no stack of brackets
  but asks which closing bracket may come next. Where none may, as right after the parenthesis
  of `from a import (`, a line that is indented less than its block can end the block, with or
  without a backslash that joins it to the line before.
* Here a backslash before the end of a line joins two lines wherever code is read, also right
  after an opening bracket and at the start of a line, and its column does not count.
* A character that begins no token ends the reading here. That grammar skips it, goes on, and
  marks an error, which comes to the same unless the error is mended on the way.
-/

namespace CodeAtlas

namespace Lexer

/-- How a string literal was opened. -/
structure Quote where
  mark : Char
  triple : Bool
  format : Bool
  raw : Bool

/-- What is open at a place in the text. -/
inductive Frame where
  | bracket
  | text (quote : Quote)
  | field
  | format

/-- The state of reading: what is left of the text and where it starts, what is open, the
indentation counted so far at the start of a line, the comments and the tokens read, both with
the last one first. -/
structure State where
  rest : List Char
  pos : Nat
  stack : List Frame
  column : Option Nat
  comments : List String
  tokens : List Token

namespace State

/-- Drops `n` characters. -/
def skip (s : State) (n : Nat) : State :=
  { s with rest := s.rest.drop n, pos := s.pos + n }

/-- Whether the last token ended a line, or there is none. -/
def atLineStart (s : State) : Bool :=
  match s.tokens with
  | [] => true
  | t :: _ => t.kind matches .newline _

/-- Ends the logical line, unless it is empty. -/
def endLine (s : State) (column : Nat) : State :=
  if s.atLineStart then { s with column := none }
  else
    { s with
      tokens := ⟨.newline column, s.pos, s.pos, []⟩ :: s.tokens
      column := none }

/-- Adds a token of `n` characters, after ending the line before it. -/
def emit (s : State) (kind : TokenKind) (n : Nat) : State :=
  let s := match s.column with
    | some column => s.endLine column
    | none => s
  { s with
    rest := s.rest.drop n
    pos := s.pos + n
    comments := []
    tokens := ⟨kind, s.pos, s.pos + n, s.comments.reverse⟩ :: s.tokens }

end State

/-! ### Numbers -/

/-- The length of a run of digits in which single underscores may follow digits. -/
def digitsLength (isDigit : Char → Bool) : List Char → Nat
  | [] => 0
  | [c] => if isDigit c then 1 else 0
  | c :: d :: rest =>
    if isDigit c then
      if d == '_' then 2 + digitsLength isDigit rest else 1 + digitsLength isDigit (d :: rest)
    else 0

/-- The length of a run of digits in which a single underscore may come before digits. -/
def spacedDigitsLength (isDigit : Char → Bool) : List Char → Nat
  | [] => 0
  | [c] => if isDigit c then 1 else 0
  | c :: d :: rest =>
    if isDigit c then 1 + spacedDigitsLength isDigit (d :: rest)
    else if c == '_' && isDigit d then 2 + spacedDigitsLength isDigit rest
    else 0

/-- Whether a character is a digit in a base up to sixteen. -/
def isDigitIn (base : Nat) (c : Char) : Bool :=
  if c.isDigit then c.toNat - 48 < base
  else base == 16 && ('a' ≤ c && c ≤ 'f' || 'A' ≤ c && c ≤ 'F')

/-- The base that a letter after a leading zero announces. -/
def baseOfLetter : Char → Option Nat
  | 'x' | 'X' => some 16
  | 'o' | 'O' => some 8
  | 'b' | 'B' => some 2
  | _ => none

/-- One if the text starts with one of the letters, else zero. -/
def suffixLength (letters : List Char) : List Char → Nat
  | c :: _ => if letters.contains c then 1 else 0
  | [] => 0

/-- The length of an exponent at the head of a text; zero if there is none. -/
def exponentLength : List Char → Nat
  | e :: rest =>
    if e == 'e' || e == 'E' then
      let sign := suffixLength ['+', '-'] rest
      let digits := digitsLength Char.isDigit (rest.drop sign)
      if digits == 0 then 0 else 1 + sign + digits
    else 0
  | [] => 0

/-- The length of a number with a base letter after its zero. -/
def basedLength? : List Char → Option Nat
  | '0' :: letter :: rest => do
    let base ← baseOfLetter letter
    let digits := spacedDigitsLength (isDigitIn base) rest
    if digits == 0 then failure
    else return 2 + digits + suffixLength ['l', 'L'] (rest.drop digits)
  | _ => none

/-- The length of the number at the head of a text and whether it is an integer. -/
def numberLength? (cs : List Char) : Option (Nat × Bool) :=
  match basedLength? cs with
  | some n => some (n, true)
  | none =>
    let whole := digitsLength Char.isDigit cs
    let afterWhole := cs.drop whole
    let fraction :=
      match afterWhole with
      | '.' :: rest =>
        let digits := digitsLength Char.isDigit rest
        if whole == 0 && digits == 0 then 0 else 1 + digits
      | _ => 0
    if whole + fraction == 0 then none
    else
      let exponent := exponentLength (afterWhole.drop fraction)
      let n := whole + fraction + exponent
      if fraction + exponent == 0 then
        some (n + suffixLength ['l', 'L', 'j', 'J'] (cs.drop n), true)
      else some (n + suffixLength ['j', 'J'] (cs.drop n), false)

/-! ### Marks -/

/-- The marks of three, two and one characters. -/
def marks : List (List String) :=
  [["**=", "//=", ">>=", "<<=", "..."],
   ["**", "//", ">>", "<<", "<=", ">=", "==", "!=", "<>", "->", "+=", "-=", "*=", "/=", "%=",
    "&=", "|=", "^=", "@=", ":="],
   ["+", "-", "*", "/", "%", "@", "&", "|", "^", "~", "<", ">", "(", ")", "[", "]", "\x7b",
    "\x7d", ",", ":", ".", ";", "="]]

/-- The longest mark at the head of a text. -/
def mark? (cs : List Char) : Option String :=
  let candidates := [3, 2, 1].map fun n ↦ String.ofList (cs.take n)
  (marks.zip candidates).findSome? fun (table, candidate) ↦
    if table.contains candidate then some candidate else none

/-! ### Strings -/

/-- The string that opens at the head of a text, and the length of its opening. -/
def quote? (cs : List Char) : Option (Quote × Nat) :=
  let flags := cs.takeWhile fun c ↦ "fFrRbBuU".toList.contains c
  let has (a b : Char) := flags.contains a || flags.contains b
  let quote (mark : Char) (triple : Bool) : Quote :=
    ⟨mark, triple, has 'f' 'F', has 'r' 'R'⟩
  match cs.drop flags.length with
  | '"' :: '"' :: '"' :: _ => some (quote '"' true, flags.length + 3)
  | '\'' :: '\'' :: '\'' :: _ => some (quote '\'' true, flags.length + 3)
  | '"' :: _ => some (quote '"' false, flags.length + 1)
  | '\'' :: _ => some (quote '\'' false, flags.length + 1)
  | '`' :: _ => some (quote '`' false, flags.length + 1)
  | _ => none

/-- Whether a closing quote stands at the head of a text. -/
def Quote.closes (q : Quote) (cs : List Char) : Bool :=
  if q.triple then cs.take 3 == [q.mark, q.mark, q.mark] else cs.take 1 == [q.mark]

/-- The length of an opening or closing quote. -/
def Quote.width (q : Quote) : Nat :=
  if q.triple then 3 else 1

/-- The length of the literal text at the head of a text inside a string. It ends at the
closing quote, at a brace that opens or closes a field, and at the end of a line that the
string may not cross. `named` holds inside the braces of a named character. -/
def textLength (q : Quote) (named : Bool) : List Char → Nat
  | [] => 0
  | '\\' :: '\r' :: '\n' :: rest => 3 + textLength q false rest
  | '\\' :: c :: rest =>
    if c == 'N' && q.format && !q.raw && rest.head? == some '\x7b' then
      2 + textLength q true rest
    else if c == '\\' || c == '\n' || (if q.raw then c == q.mark else c == '"' || c == '\'') then
      2 + textLength q false rest
    else 1 + textLength q false (c :: rest)
  | '\x7b' :: '\x7b' :: rest => 2 + textLength q named rest
  | '\x7d' :: '\x7d' :: rest =>
    if named then 1 + textLength q false ('\x7d' :: rest) else 2 + textLength q false rest
  | c :: rest =>
    if named then 1 + textLength q (c != '\x7d') rest
    else if q.closes (c :: rest) then 0
    else if q.format && (c == '\x7b' || c == '\x7d') then 0
    else if c == '\n' && !q.triple then 0
    else 1 + textLength q false rest

/-! ### Steps -/

/-- Characters that separate tokens, besides the end of a line. -/
def isBlank (c : Char) : Bool :=
  c == ' ' || ('\t' ≤ c && c ≤ '\r') || c == '\u200b' || c == '\u2060' || c == '\ufeff'

/-- The column after a blank at the start of a line. -/
def columnAfter (column : Nat) (c : Char) : Nat :=
  if c == ' ' then column + 1
  else if c == '\t' then column + 8
  else if c == '\n' || c == '\r' || c == '\x0c' then 0
  else column

/-- One step inside a string literal. -/
def stepText (s : State) (q : Quote) (outer : List Frame) : Option State :=
  match textLength q false s.rest with
  | 0 =>
    if q.closes s.rest then some { s.emit .stringEnd q.width with stack := outer }
    else if q.format && s.rest.head? == some '\x7b' then
      some { s.emit .fieldStart 1 with stack := .field :: s.stack }
    else none
  | n => some (s.emit .stringText n)

/-- One step inside the format of a field. -/
def stepFormat (s : State) (c : Char) : Option State :=
  if c == '\x7b' then some { s.emit .fieldStart 1 with stack := .field :: s.stack }
  else if c == '\x7d' then some { s.emit .fieldEnd 1 with stack := s.stack.drop 2 }
  else if c == '\n' then some (s.skip 1)
  else
    some (s.emit .formatText
      (s.rest.takeWhile fun c ↦ c != '\x7b' && c != '\x7d' && c != '\n').length)

/-- Whether the field read so far is a single word, so that `:=` after it binds that word. -/
def State.fieldIsWord (s : State) : Bool :=
  match s.tokens with
  | ⟨.word _, _, _, _⟩ :: ⟨.fieldStart, _, _, _⟩ :: _ => true
  | _ => false

/-- Reads a mark. Brackets change what is open; in a field, a colon begins the format and a
closing brace ends the field. -/
def stepMark (s : State) (mark : String) : Option State :=
  let inField := s.stack.head? matches some .field
  if ["(", "[", "\x7b"].contains mark then
    some { s.emit (.symbol mark) 1 with stack := .bracket :: s.stack }
  else if mark == "\x7d" && inField then
    some { s.emit .fieldEnd 1 with stack := s.stack.drop 1 }
  else if [")", "]", "\x7d"].contains mark then
    match s.stack with
    | .bracket :: outer => some { s.emit (.symbol mark) 1 with stack := outer }
    | _ => none
  else if inField && (mark == ":" || (mark == ":=" && !s.fieldIsWord)) then
    some { s.emit .formatStart 1 with stack := .format :: s.stack }
  else some (s.emit (.symbol mark) mark.length)

/-- Reads the token that begins with `c`. -/
def stepToken (s : State) (c : Char) : Option State :=
  match quote? s.rest with
  | some (q, n) => some { s.emit .stringStart n with stack := .text q :: s.stack }
  | none =>
    if isIdentStart c then
      let id := (Ident.span s.rest).1
      some (s.emit (.word id) id.text.length)
    else
      match numberLength? s.rest with
      | some (n, integral) => some (s.emit (.number integral) n)
      | none =>
        match mark? s.rest with
        | some mark => stepMark s mark
        | none =>
          match s.stack, s.rest with
          | .field :: _, '!' :: letter :: _ =>
            if letter.isLower then some (s.emit .conversion 2) else none
          | _, _ => none

/-- One step in code. -/
def stepCode (s : State) (c : Char) : Option State :=
  let joined :=
    match s.rest with
    | '\\' :: '\n' :: _ => 2
    | '\\' :: '\r' :: '\n' :: _ => 3
    | _ => 0
  if joined > 0 then some (s.skip joined)
  else if c == '\n' && s.stack.isEmpty && s.column.isNone then
    some { s.skip 1 with column := some 0 }
  else if isBlank c then
    some { s.skip 1 with column := s.column.map (columnAfter · c) }
  else if c == '#' then
    let comment := s.rest.takeWhile (· != '\n')
    let s' := s.skip comment.length
    some (if s.stack.isEmpty then s' else
      { s' with comments := String.ofList comment :: s.comments })
  else stepToken s c

/-- One step of reading; the text is not empty. -/
def step (s : State) (c : Char) : Option State :=
  match s.stack with
  | .text q :: outer => stepText s q outer
  | .format :: _ => stepFormat s c
  | _ => stepCode s c

/-- Reads to the end of the text. Every step reads at least one character, so the length of
the text bounds the number of steps. -/
def run : Nat → State → Option State
  | 0, _ => none
  | fuel + 1, s =>
    match s.rest with
    | [] => some (s.endLine 0)
    | c :: _ => (step s c).bind (run fuel)

end Lexer

/-- The tokens of a source text, in order; `none` where a character begins no token. -/
def Token.ofText? (text : List Char) : Option (List Token) :=
  (Lexer.run (text.length + 1) ⟨text, 0, [], none, [], []⟩).map fun s ↦ s.tokens.reverse

end CodeAtlas
