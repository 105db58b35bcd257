import CodeAtlas.Source.Lexer
import CodeAtlas.Source.Parser.Pattern

/-!
# Parsing statements

A block is the statements of the lines that are indented at least as far as its first line,
which is indented further than the block around it. A block may also be empty, or stand on
the line of the statement that governs it.
-/

namespace CodeAtlas

namespace Parser

/-! ### Imports -/

/-- A dotted name, as it is written. -/
def dottedName (bound : Nat) : Parser String := do
  let s ← start
  let _ ← ident
  let _ ← many (after "." ident) bound
  textFrom s

/-- One clause of an import. -/
def importClause (bound : Nat) : Parser ImportClause := do
  let name ← dottedName bound
  if ← acceptWord "as" then return ⟨name, some (← ident).text⟩ else return ⟨name, none⟩

/-- The clauses of an import between parentheses. -/
def importClauses (bound : Nat) : Nat → Parser (List ImportClause)
  | 0 => failure
  | n + 1 => do
    let first ← importClause bound
    if ← accept "," then
      if ← accept ")" then return [first] else return first :: (← importClauses bound n)
    symbol ")"
    return [first]

/-- The clauses of an import without parentheses. The last one may have a comma after it. -/
def bareImportClauses (bound : Nat) : Parser (List ImportClause) := do
  let first ← importClause bound
  let rest ← many (do
    if ← accept "," then
      match ← peek with
      | some (.word _) => return some (← importClause bound)
      | _ => return none
    else return none) bound
  return first :: rest

/-- The dots before the path of an import. -/
def importLevel (bound : Nat) : Parser Nat := do
  let dots ← many (do
    match ← symbolOf [".", "..."] with
    | some mark =>
      let _ ← take
      return some mark.length
    | none => return none) bound
  return dots.foldl Nat.add 0

/-- `import a, b.c as d` -/
def importStmt (bound : Nat) : Parser Stmt := do
  word "import"
  return .importModules (← bareImportClauses bound)

/-- `from path import names`. Imports from `__future__` switch features and import nothing. -/
def fromStmt (bound : Nat) : Parser Stmt := do
  word "from"
  let level ← importLevel bound
  let path ←
    if level > 0 && (← atWord "import") then pure none else pure (some (← dottedName bound))
  word "import"
  let clauses : Parser (List ImportClause) := do
    if ← accept "(" then importClauses bound bound
    else bareImportClauses bound
  if level == 0 && path == some "__future__" then
    let _ ← clauses
    return .simple []
  else if ← accept "*" then return .importFrom ⟨path, level, true, []⟩
  else return .importFrom ⟨path, level, false, ← clauses⟩

/-! ### Simple statements -/

/-- The marks of assignments that combine. -/
def augmentMarks : List String :=
  ["+=", "-=", "*=", "/=", "//=", "%=", "@=", "&=", "|=", "^=", ">>=", "<<=", "**="]

/-- What may stand on the right of an assignment: expressions, or an assignment again. -/
def rightSide (r : Inner) : Nat → Parser Expr
  | 0 => failure
  | bound + 1 => do
    let s ← start
    let e ← yieldOrList r
    if ← atSymbol "=" then
      guard (isTarget e)
      let _ ← take
      let right ← rightSide r bound
      return .assign (← textFrom s) e none (some right)
    else
      match ← symbolOf augmentMarks with
      | some mark =>
        guard (isTarget e)
        let _ ← take
        let right ← rightSide r bound
        return .augment (← textFrom s) e mark right
      | none => return e

/-- An expression or an assignment as a statement. -/
def exprStmt (r : Inner) : Parser Stmt := do
  let s ← start
  let e ← rightSide r r.bound
  if ← atSymbol ":" then
    guard (isTarget e)
    let _ ← take
    let note ← typeHint r
    let right ← if ← accept "=" then pure (some (← rightSide r r.bound)) else pure none
    return .simple [.assign (← textFrom s) e (some note) right]
  else return .simple [e]

/-- Type parameters between brackets, if there are any. -/
def typeParams (r : Inner) : Parser (List Expr) := do
  if ← accept "[" then
    closedBy "]" (do
      let s ← start
      let e ← if (← symbolOf ["*", "**"]).isSome then splat r else r.expr
      if ← accept ":" then
        let limit ← r.expr
        return .other (← textFrom s) [e, limit]
      else return e) r.bound
  else return []

/-- Whether the statement that begins with `print` prints the expressions after it instead of
calling or naming `print`. -/
def atPrint : Parser Bool := do
  if ← atWord "print" then
    match ← peekSecond with
    | some (.symbol ">>") | some (.symbol "~") => return true
    | some (.word id) => return !id.isReserved ||
        ["None", "True", "False", "lambda", "not"].contains id.text
    | some k => return k.startsOperand
    | none => return false
  else return false

/-- Whether the next token is the word and the one after it can begin an operand. -/
def atWordBefore (word : String) (second : TokenKind → Bool) : Parser Bool := do
  return (← atWord word) && ((← peekSecond).map second).getD false

/-- A statement that prints expressions. -/
def printStmt (r : Inner) : Parser Stmt := do
  word "print"
  let _ ← accept ">>"
  return .simple [← bareList r.bound r.expr]

/-- A statement that executes code given as a string or a name. -/
def execStmt (r : Inner) : Parser Stmt := do
  word "exec"
  let code ←
    if (← peek) == some .stringStart then strings (yieldOrList r) r.bound
    else pure (.name (← ident))
  let scopes ← if ← acceptWord "in" then separated r.bound r.expr else pure []
  return .simple (code :: scopes)

/-- Takes the end of a line. -/
def endOfLine : Parser Unit := do
  match (← take).kind with
  | .newline _ => pure ()
  | _ => failure

/-- Whether the end of a line comes next. -/
def atEndOfLine : Parser Bool := do
  match ← peek with
  | some (.newline _) => return true
  | _ => return false

/-- A type alias, `type left = right`. What is on the left may be any type, so that an
assignment to a member of `type(x)` is one, too. -/
def typeStmt (r : Inner) : Parser Stmt := do
  word "type"
  let left ←
    if (← peekSecond) == some (.symbol "[") then
      match (← peek) with
      | some (.word _) =>
        let _ ← ident
        typeParams r
      | _ => pure [← typeHint r]
    else pure [← typeHint r]
  let limit ← if ← accept ":" then pure [← typeHint r] else pure []
  symbol "="
  let right ← typeHint r
  guard ((← atEndOfLine) || (← atSymbol ";"))
  return .simple (left ++ limit ++ [right])

/-- A statement that starts with a keyword and holds a list of expressions, if any. -/
def keywordStmt (r : Inner) (keyword : String) (needed : Bool) : Parser Stmt := do
  word keyword
  if needed || (← atExpr) then return .simple [← bareList r.bound (bareItem r)]
  else return .simple []

/-- A simple statement. -/
def simpleStmt (r : Inner) : Parser Stmt := do
  let isWord : TokenKind → Bool
    | .word id => !id.isReserved
    | _ => false
  match ← peek with
  | some (.word id) =>
    match id.text with
    | "import" => importStmt r.bound
    | "from" => fromStmt r.bound
    | "pass" | "break" | "continue" =>
      let _ ← take
      return .simple []
    | "return" => keywordStmt r "return" false
    | "del" => keywordStmt r "del" true
    | "assert" =>
      let _ ← take
      return .simple (← separated r.bound r.expr)
    | "raise" =>
      let .simple parts ← keywordStmt r "raise" false | failure
      let cause ← if ← acceptWord "from" then pure [← r.expr] else pure []
      return .simple (parts ++ cause)
    | "global" | "nonlocal" =>
      let _ ← take
      let _ ← separated r.bound ident
      return .simple []
    | _ =>
      if ← atPrint then printStmt r <|> exprStmt r
      else if ← atWordBefore "exec" (fun k ↦ k == .stringStart || isWord k) then execStmt r
      else if ← atWordBefore "type" TokenKind.startsExpr then typeStmt r <|> exprStmt r
      else exprStmt r
  | _ => exprStmt r

/-- The simple statements of one line. -/
def simpleLine (r : Inner) : Parser (List Stmt) := do
  let first ← simpleStmt r
  let rest ← many (do
    if ← accept ";" then
      if ← atEndOfLine then return some none else return some (some (← simpleStmt r))
    else return none) r.bound
  endOfLine
  return first :: rest.filterMap id

/-! ### Compound statements -/

/-- How to parse what lies inside a statement: its expressions, the statements of a block that
is indented by at least a column, and the column of the block around it. -/
structure Outer where
  inner : Inner
  block : Nat → Parser (List Stmt)
  column : Nat

/-- The body after a colon: the rest of the line, or the lines that are indented further than
the statement's block, if there are any. -/
def suite (o : Outer) : Parser (List Stmt) := do
  symbol ":"
  match ← peek with
  | some (.newline column) =>
    let _ ← take
    if column > o.column then o.block column else return []
  | _ => simpleLine o.inner

/-- Takes a keyword that continues the current statement. -/
def acceptClause (o : Outer) (keyword : String) : Parser Bool := do
  if (← get).column ≥ o.column then acceptWord keyword else return false

/-- An `else` or `finally` branch, if there is one. -/
def branch (o : Outer) (keyword : String) : Parser (List Stmt) := do
  if ← acceptClause o keyword then return [.compound [] (← suite o)] else return []

/-- An `if` statement. -/
def ifStmt (o : Outer) : Parser Stmt := do
  word "if"
  let condition ← o.inner.expr
  let body ← suite o
  let others ← many (do
    if ← acceptClause o "elif" then
      let condition ← o.inner.expr
      return some (Stmt.compound [condition] (← suite o))
    else return none) o.inner.bound
  return .compound [condition] (body ++ others ++ (← branch o "else"))

/-- A `for` loop. -/
def forStmt (o : Outer) : Parser Stmt := do
  word "for"
  let left ← targets o.inner
  word "in"
  let right ← bareList o.inner.bound (bareItem o.inner)
  let body ← suite o
  return .compound [left, right] (body ++ (← branch o "else"))

/-- A `while` loop. -/
def whileStmt (o : Outer) : Parser Stmt := do
  word "while"
  let condition ← o.inner.expr
  let body ← suite o
  return .compound [condition] (body ++ (← branch o "else"))

/-- An `except` clause, for groups of exceptions if `group`. -/
def exceptClause (o : Outer) (group : Bool) : Parser (Option Stmt) := do
  if (← get).column < o.column || !(← atWord "except") then return none
  let keyword ← take
  let star := match (← get).tokens with
    | ⟨.symbol "*", s, _, _⟩ :: _ => s == keyword.stop
    | _ => false
  guard (star == group)
  if group then
    let _ ← take
  let head ←
    if group || !(← atSymbol ":") then
      let e ← bareItem o.inner
      if ← accept "," then pure [e, ← o.inner.expr] else pure [e]
    else pure []
  return some (.compound head (← suite o))

/-- A `try` statement. It needs a clause that handles or ends it. -/
def tryStmt (o : Outer) : Parser Stmt := do
  word "try"
  let body ← suite o
  let handlersOf (group : Bool) := many (exceptClause o group) o.inner.bound
  let handlers ← handlersOf false <|> handlersOf true
  let otherwise ← if handlers.isEmpty then pure [] else branch o "else"
  let ending ← branch o "finally"
  guard !(handlers ++ ending).isEmpty
  return .compound [] (body ++ handlers ++ otherwise ++ ending)

/-- A `with` statement. -/
def withStmt (o : Outer) : Parser Stmt := do
  word "with"
  let items ← separated o.inner.bound o.inner.expr
  return .compound items (← suite o)

/-- A class definition. -/
def classDef (o : Outer) (decorators : List Expr) : Parser Stmt := do
  word "class"
  let name ← ident
  let typeParams ← typeParams o.inner
  let bases ← if ← accept "(" then arguments o.inner else pure []
  return .classDef ⟨name, decorators, typeParams, bases⟩ (← suite o)

/-- A function definition. -/
def funcDef (o : Outer) (decorators : List Expr) : Parser Stmt := do
  let _ ← acceptWord "async"
  word "def"
  let name ← ident
  let typeParams ← typeParams o.inner
  symbol "("
  let params ← params o.inner true ")" o.inner.bound
  let returns ← if ← accept "->" then pure [← typeHint o.inner] else pure []
  return .funcDef ⟨name, decorators, typeParams, params, returns⟩ (← suite o)

/-- A class or function definition after its decorators. -/
def decorated (o : Outer) : Parser Stmt := do
  let decorators ← many (do
    if ← accept "@" then
      let e ← o.inner.expr
      endOfLine
      return some e
    else return none) o.inner.bound
  if ← atWord "class" then classDef o decorators else funcDef o decorators

/-- A `case` clause. -/
def caseClause (o : Outer) : Parser (Option Stmt) := do
  if ← acceptClause o "case" then
    let patterns ← casePatterns o.inner
    let guards ← if ← acceptWord "if" then pure [← o.inner.expr] else pure []
    return some (.compound (patterns ++ guards) (← suite o))
  else return none

/-- A `match` statement. -/
def matchStmt (o : Outer) : Parser Stmt := do
  word "match"
  let subject ← bareList o.inner.bound (bareItem o.inner)
  symbol ":"
  match (← take).kind with
  | .newline column =>
    if column > o.column then
      let clauses ← many (caseClause { o with column }) o.inner.bound
      guard !clauses.isEmpty
      return .compound [subject] clauses
    else return .compound [subject] []
  | _ => failure

/-- The statements that begin at the current line: one compound statement, or the simple
statements of the line. -/
def statements (o : Outer) : Parser (List Stmt) := do
  let one (p : Parser Stmt) : Parser (List Stmt) := do return [← p]
  match ← peek with
  | some (.symbol "@") => one (decorated o)
  | some (.word id) =>
    match id.text with
    | "if" => one (ifStmt o)
    | "for" => one (forStmt o)
    | "while" => one (whileStmt o)
    | "try" => one (tryStmt o)
    | "with" => one (withStmt o)
    | "class" => one (classDef o [])
    | "def" => one (funcDef o [])
    | "match" => one (matchStmt o) <|> simpleLine o.inner
    | "async" =>
      match ← peekSecond with
      | some (.word second) =>
        match second.text with
        | "def" => one (funcDef o [])
        | "for" => do
          let _ ← take
          one (forStmt o)
        | "with" => do
          let _ ← take
          one (withStmt o)
        | _ => simpleLine o.inner
      | _ => simpleLine o.inner
    | _ => simpleLine o.inner
  | _ => simpleLine o.inner

/-- The statements of a block indented by at least `column`, with blocks nested at most `depth`
levels deep. -/
def block (r : Inner) : (depth : Nat) → (column : Nat) → Parser (List Stmt)
  | 0, _ => failure
  | depth + 1, column => do
    let lines ← many (do
      let cursor ← get
      if cursor.tokens.isEmpty || cursor.column < column then return none
      else return some (← statements ⟨r, block r depth, column⟩)) r.bound
    return lines.flatten

end Parser

/-- The statements of a source text; `none` if the text is not well formed. -/
def Stmt.ofText? (text : String) : Option (List Stmt) := do
  let source := text.toList
  let tokens ← Token.ofText? source
  let bound := tokens.length + 1
  let file : Parser (List Stmt) := Parser.block (Parser.grammar bound bound) bound 0
  let (statements, rest) ← file source.toArray ⟨tokens, 0, 0⟩
  guard rest.tokens.isEmpty
  return statements

end CodeAtlas
