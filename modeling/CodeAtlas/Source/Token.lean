import CodeAtlas.Source.Ident

/-!
# Tokens of a source file

The text of a source file as the sequence of its tokens. Blanks, joined lines and, outside
brackets, comments leave no token. A comment between brackets is kept with the token after it,
because it counts as a part of what stands between the brackets.

A string literal is a run of tokens: its opening quote, its literal text and the fields of a
formatted string, and its closing quote. The code inside a field is tokens again.
-/

namespace CodeAtlas

/-- What a token is. -/
inductive TokenKind where
  /-- An identifier or keyword. -/
  | word (id : Ident)
  | number (integral : Bool)
  /-- An operator, bracket or other mark. -/
  | symbol (mark : String)
  /-- The end of a logical line; `column` is the indentation of the next one. -/
  | newline (column : Nat)
  | stringStart
  | stringText
  | stringEnd
  /-- The brace that opens a field of a formatted string. -/
  | fieldStart
  /-- A conversion such as `!r` in a field. -/
  | conversion
  /-- The colon before the format of a field. -/
  | formatStart
  | formatText
  /-- The brace that closes a field of a formatted string. -/
  | fieldEnd
deriving DecidableEq

/-- The words that are never identifiers. -/
def reservedWords : List String :=
  ["False", "None", "True", "and", "as", "assert", "break", "class", "continue", "def", "del",
   "elif", "else", "except", "finally", "for", "from", "global", "if", "import", "in", "is",
   "lambda", "nonlocal", "not", "or", "pass", "raise", "return", "try", "while", "with", "yield"]

/-- Whether a word is a keyword everywhere, and so never an identifier. -/
def Ident.isReserved (id : Ident) : Bool :=
  reservedWords.contains id.text

/-- Whether a token can begin an operand that is neither an operator nor a parenthesis. -/
def TokenKind.startsOperand : TokenKind → Bool
  | .word id => !id.isReserved || ["None", "True", "False"].contains id.text
  | .number _ | .stringStart => true
  | .symbol mark => mark == "\x7b" || mark == "..."
  | _ => false

/-- Whether a token can begin an expression. -/
def TokenKind.startsExpr : TokenKind → Bool
  | .word id => !id.isReserved ||
      ["None", "True", "False", "not", "lambda", "yield"].contains id.text
  | .number _ | .stringStart => true
  | .symbol mark => ["(", "[", "\x7b", "+", "-", "~", "*", "..."].contains mark
  | _ => false

/-- A token, where it starts and stops in the text, and the comments that come before it
between the same brackets. -/
structure Token where
  kind : TokenKind
  start : Nat
  stop : Nat
  comments : List String

end CodeAtlas
