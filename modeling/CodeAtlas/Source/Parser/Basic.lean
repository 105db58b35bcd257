import CodeAtlas.Source.Token
import CodeAtlas.Source.Expr

/-!
# Parsers over tokens

A parser takes tokens from the front of what is left and fails without a reason: a file with
any error is rejected as a whole. A failed parser takes nothing, so that an alternative starts
from the same place.

Loops and recursion are bounded by a number that is at least the number of tokens left, and
every round takes a token, so the bound is never what ends them.

## Where they may differ from the grammar

The parsers follow the rules of the tree-sitter grammar of Python, which says what is an error.
That grammar pursues several readings of a text at once and settles conflicts by precedences.
Here alternatives are tried in order, and the next token or the one after it decides between
them. So where two readings have a long beginning in common, a text may be accepted here and be
an error there, or the other way round. This concerns words that are keywords only in places
(`match`, `case`, `type`, `print`, `exec`), targets of assignments, which are read as expressions
first, and stars before expressions.
-/

namespace CodeAtlas

/-- A place in the sequence of tokens: what is left, where the last token taken stops in the
text, and the indentation of the current line. -/
structure Cursor where
  tokens : List Token
  stop : Nat
  column : Nat

/-- A parser reads the source text and moves a cursor over its tokens. -/
abbrev Parser (α : Type) := ReaderT (Array Char) (StateT Cursor Option) α

namespace Parser

/-- The kind of the next token. -/
def peek : Parser (Option TokenKind) := do
  return ((← get).tokens.head?).map Token.kind

/-- The kind of the token after the next one. -/
def peekSecond : Parser (Option TokenKind) := do
  return ((← get).tokens.tail.head?).map Token.kind

/-- Takes the next token. -/
def take : Parser Token := do
  let cursor ← get
  match cursor.tokens with
  | [] => failure
  | token :: rest =>
    let column := match token.kind with
      | .newline column => column
      | _ => cursor.column
    set ({ tokens := rest, stop := token.stop, column } : Cursor)
    return token

/-- Where the next token starts in the text. -/
def start : Parser Nat := do
  let cursor ← get
  return (cursor.tokens.head?.map Token.start).getD cursor.stop

/-- The source text from a place up to the end of the last token taken. -/
def textFrom (start : Nat) : Parser String := do
  let source ← read
  return String.ofList (source.extract start (← get).stop).toList

/-- The comments before the next token, as expressions. -/
def comments : Parser (List Expr) := do
  match (← get).tokens with
  | token :: _ => return token.comments.map Expr.comment
  | [] => return []

/-- Whether the next token is the mark. -/
def atSymbol (mark : String) : Parser Bool := do
  return (← peek) == some (.symbol mark)

/-- Whether the next token is one of the marks. -/
def symbolOf (marks : List String) : Parser (Option String) := do
  match ← peek with
  | some (.symbol mark) => return if marks.contains mark then some mark else none
  | _ => return none

/-- Whether the next token is the word. -/
def atWord (word : String) : Parser Bool := do
  match ← peek with
  | some (.word id) => return id.is word
  | _ => return false

/-- Takes the next token if it is the mark. -/
def accept (mark : String) : Parser Bool := do
  if ← atSymbol mark then
    let _ ← take
    return true
  else return false

/-- Takes the next token if it is the word. -/
def acceptWord (word : String) : Parser Bool := do
  if ← atWord word then
    let _ ← take
    return true
  else return false

/-- Takes the mark, or fails. -/
def symbol (mark : String) : Parser Unit := do
  guard (← accept mark)

/-- Takes the word, or fails. -/
def word (word : String) : Parser Unit := do
  guard (← acceptWord word)

/-- Takes any word, keywords included. -/
def anyWord : Parser Ident := do
  match (← take).kind with
  | .word id => return id
  | _ => failure

/-- Takes an identifier. -/
def ident : Parser Ident := do
  let id ← anyWord
  guard (!id.isReserved)
  return id

/-- Whether the next token can begin an expression. -/
def atExpr : Parser Bool := do
  return ((← peek).map TokenKind.startsExpr).getD false

/-- Repeats a parser until it gives nothing. -/
def many {α : Type} (p : Parser (Option α)) : Nat → Parser (List α)
  | 0 => return []
  | bound + 1 => do
    match ← p with
    | none => return []
    | some a => return a :: (← many p bound)

/-- Takes an item if the next token is the mark before it. -/
def after {α : Type} (mark : String) (item : Parser α) : Parser (Option α) := do
  if ← accept mark then return some (← item) else return none

/-- Items separated by commas, at least one. -/
def separated {α : Type} (bound : Nat) (item : Parser α) : Parser (List α) := do
  let first ← item
  return first :: (← many (after "," item) bound)

/-- The parts up to a closing bracket, which is taken: items separated by commas, and the
comments around them. The last item may have a comma after it. -/
def closedBy (close : String) (item : Parser Expr) : Nat → Parser (List Expr)
  | 0 => failure
  | bound + 1 => do
    let before ← comments
    if ← accept close then return before
    let first ← item
    let behind ← comments
    if ← accept "," then return before ++ first :: behind ++ (← closedBy close item bound)
    symbol close
    return before ++ first :: behind

end Parser

end CodeAtlas
