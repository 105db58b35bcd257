import CodeAtlas.Source.Parser.Basic
import CodeAtlas.Source.Stmt

/-!
# Parsing expressions

The grammar of expressions as parsers that take the parsers for what lies inside as an
argument (`Inner`); `grammar` ties the knot, one level of nesting at a time.

Two readings of `*` are told apart. Between brackets (arguments and displays) the star applies
to the whole expression after it. In a list of expressions without brackets it binds tighter
than a call: in `*f(), x` the called expression is `*f`.
-/

namespace CodeAtlas

namespace Parser

/-- The parsers for expressions one level further inside, and the bound on loops. -/
structure Inner where
  bound : Nat
  expr : Parser Expr
  disjunction : Parser Expr
  factor : Parser Expr
  primary : Parser Expr

/-! ### Targets -/

mutual

/-- Whether an expression can be assigned to. -/
def isTarget : Expr → Bool
  | .name _ | .member .. | .subscript .. => true
  | .starred _ value => isTarget value
  | .parens _ items | .sequence _ items | .display _ .tuple items | .display _ .list items =>
    areTargets items
  | _ => false

/-- Whether all of the expressions can be assigned to; comments do not matter. -/
def areTargets : List Expr → Bool
  | [] => true
  | .comment _ :: rest => areTargets rest
  | e :: rest => isTarget e && areTargets rest

end

/-! ### Strings -/

/-- The fields and texts of a string up to its closing quote, given a parser for a field. -/
def stringParts (field : Parser Expr) (bound : Nat) : Parser (List Expr) :=
  many (do
    match ← peek with
    | some .stringText =>
      let s ← start
      let _ ← take
      return some (.literal (← textFrom s))
    | some .fieldStart => return some (← field)
    | _ => return none) bound

/-- Takes a token of the given kind, or fails. -/
def takeKind (kind : TokenKind) : Parser Unit := do
  guard ((← take).kind == kind)

/-- Takes a token if it is of the given kind. -/
def acceptKind (kind : TokenKind) : Parser Bool := do
  if (← peek) == some kind then
    let _ ← take
    return true
  else return false

/-- A field of a formatted string; its format may hold fields again. -/
def field (content : Parser Expr) (bound : Nat) : Nat → Parser Expr
  | 0 => failure
  | depth + 1 => do
    let s ← start
    takeKind .fieldStart
    let e ← content
    let _ ← accept "="
    let _ ← acceptKind .conversion
    let inner ←
      if ← acceptKind .formatStart then
        many (do
          match ← peek with
          | some .formatText =>
            let s ← start
            let _ ← take
            return some (.literal (← textFrom s))
          | some .fieldStart => return some (← field content bound depth)
          | _ => return none) bound
      else pure []
    takeKind .fieldEnd
    return .other (← textFrom s) (e :: inner)

/-- One string literal. -/
def stringLiteral (content : Parser Expr) (bound : Nat) : Parser Expr := do
  let s ← start
  takeKind .stringStart
  let parts ← stringParts (field content bound bound) bound
  takeKind .stringEnd
  return .string (← textFrom s) parts

/-- One or more adjacent string literals. -/
def strings (content : Parser Expr) (bound : Nat) : Parser Expr := do
  let s ← start
  let first ← stringLiteral content bound
  let rest ← many (do
    if (← peek) == some .stringStart then return some (← stringLiteral content bound)
    else return none) bound
  if rest.isEmpty then return first
  else return .concat (← textFrom s) (first :: rest)

/-! ### Calls, subscripts and members -/

/-- `*value` or `**value` where the star applies to the whole expression. -/
def splat (r : Inner) : Parser Expr := do
  let s ← start
  if ← accept "*" then
    let e ← r.expr
    return .starred (← textFrom s) e
  else
    symbol "**"
    let e ← r.expr
    return .other (← textFrom s) [e]

/-- An argument of a call. -/
def argument (r : Inner) : Parser Expr := do
  if (← symbolOf ["*", "**"]).isSome then splat r
  else if (← peekSecond) == some (.symbol "=") then
    let s ← start
    let id ← anyWord
    symbol "="
    let e ← r.expr
    return .keyword (← textFrom s) id e
  else r.expr

/-- What follows the first of some expressions separated by commas; a comma may end them. -/
def bareRest (item : Parser Expr) : (bound : Nat) → Parser (List Expr)
  | 0 => return []
  | bound + 1 => do
    if ← accept "," then
      if ← atExpr then return (← item) :: (← bareRest item bound)
    return []

/-- Expressions separated by commas; a single one without a comma stands for itself. -/
def bareList (bound : Nat) (item : Parser Expr) : Parser Expr := do
  let s ← start
  let first ← item
  if ← atSymbol "," then
    let rest ← bareRest item bound
    return .sequence (← textFrom s) (first :: rest)
  else return first

/-- Whether a comprehension clause comes next. -/
def atComprehension : Parser Bool := do
  if ← atWord "async" then
    match ← peekSecond with
    | some (.word id) => return id.is "for"
    | _ => return false
  else atWord "for"

/-- The targets of a loop. -/
def targets (r : Inner) : Parser Expr := do
  let item : Parser Expr := do
    let s ← start
    if ← accept "*" then
      let e ← r.primary
      return .starred (← textFrom s) e
    else r.primary
  let e ← bareList r.bound item
  guard (isTarget e)
  return e

/-- The clauses of a comprehension. -/
def clauses (r : Inner) : Parser (List Expr) := do
  let parts ← many (do
    if ← atComprehension then
      let _ ← acceptWord "async"
      word "for"
      let left ← targets r
      word "in"
      let right ← r.disjunction
      return some [left, right]
    else if ← acceptWord "if" then return some [← r.disjunction]
    else return none) r.bound
  return parts.flatten

/-- The first part of a bracketed list and what follows it up to the closing bracket: either
comprehension clauses, or further items. Tells whether it was a comprehension and whether
there was a comma. -/
structure Contents where
  parts : List Expr
  comprehension : Bool
  comma : Bool

/-- The contents of brackets after the first item and the comments before it. -/
def contents (r : Inner) (close : String) (item : Parser Expr) (before : List Expr)
    (first : Expr) : Parser Contents := do
  if ← atComprehension then
    let inner ← clauses r
    symbol close
    return ⟨before ++ first :: inner, true, false⟩
  else
    let behind ← comments
    if ← accept "," then
      let rest ← closedBy close item r.bound
      return ⟨before ++ first :: behind ++ rest, false, true⟩
    symbol close
    return ⟨before ++ first :: behind, false, false⟩

/-- The arguments of a call after its opening parenthesis. -/
def arguments (r : Inner) : Parser (List Expr) := do
  let before ← comments
  if ← accept ")" then return before
  let first ← argument r
  return (← contents r ")" (argument r) before first).parts

/-- An expression if the next token can begin one. -/
def optionalExpr (p : Parser Expr) : Parser (List Expr) := do
  if ← atExpr then return [← p] else return []

/-- The rest of a slice after its lower bound. -/
def slice (r : Inner) (s : Nat) (lower : List Expr) : Parser Expr := do
  symbol ":"
  let upper ← optionalExpr r.expr
  let step ← if ← accept ":" then optionalExpr r.expr else pure []
  return .other (← textFrom s) (lower ++ upper ++ step)

/-- Moves a star below the calls that were made of the expression after it. -/
def starBelowCalls (star : String) : Expr → Expr
  | .call text callee arguments =>
    .call (star ++ text) (starBelowCalls star callee) arguments
  | e => .starred (star ++ e.text) e

/-- The marks of binary operators. -/
def binaryMarks : List String :=
  ["|", "^", "&", "<<", ">>", "+", "-", "*", "/", "//", "%", "@", "**"]

/-- Operators applied from left to right to an operand that starts at `s`. -/
def leftToRight (s : Nat) (marks : List String) (next : Parser Expr) : Nat → Expr → Parser Expr
  | 0, e => return e
  | bound + 1, e => do
    match ← symbolOf marks with
    | none => return e
    | some mark =>
      let _ ← take
      let right ← next
      leftToRight s marks next bound (.binary (← textFrom s) e mark right)

/-- A starred expression outside brackets. -/
def bareStar (r : Inner) : Parser Expr := do
  let s ← start
  symbol "*"
  let inner ← start
  let operand ← r.primary
  let star := String.ofList ((← read).extract s inner).toList
  leftToRight s binaryMarks r.factor r.bound (starBelowCalls star operand)

/-- An item of a list of expressions outside brackets. -/
def bareItem (r : Inner) : Parser Expr := do
  if ← atSymbol "*" then bareStar r else r.expr

/-- An index or slice. -/
def index (r : Inner) : Parser Expr := do
  let s ← start
  if ← atSymbol ":" then slice r s []
  else
    let e ← bareItem r
    if ← atSymbol ":" then slice r s [e] else return e

/-- A `yield` expression. -/
def yieldExpr (r : Inner) : Parser Expr := do
  let s ← start
  word "yield"
  let parts ←
    if ← acceptWord "from" then pure [← r.expr]
    else optionalExpr (bareList r.bound (bareItem r))
  return .other (← textFrom s) parts

/-- A `yield` expression or a list of expressions. -/
def yieldOrList (r : Inner) : Parser Expr := do
  if ← atWord "yield" then yieldExpr r
  else bareList r.bound (bareItem r)

/-! ### Displays -/

/-- An element of a list, set or tuple. -/
def element (r : Inner) : Parser Expr := do
  if ← atSymbol "*" then splat r
  else if ← atWord "yield" then yieldExpr r
  else r.expr

/-- An item of a dictionary. -/
def dictItem (r : Inner) : Parser Expr := do
  if ← atSymbol "**" then splat r
  else
    let s ← start
    let key ← r.expr
    symbol ":"
    let value ← r.expr
    return .other (← textFrom s) [key, value]

/-- A parenthesis: a tuple, a generator, or an expression in parentheses. -/
def parenthesis (r : Inner) :
    Parser Expr := do
  let s ← start
  symbol "("
  let before ← comments
  if ← accept ")" then return .display (← textFrom s) .tuple before
  let first ← element r
  let c ← contents r ")" (element r) before first
  let text ← textFrom s
  if c.comprehension then return .other text c.parts
  else if c.comma then return .display text .tuple c.parts
  else return .parens text c.parts

/-- A list or list comprehension. -/
def listDisplay (r : Inner) :
    Parser Expr := do
  let s ← start
  symbol "["
  let before ← comments
  if ← accept "]" then return .display (← textFrom s) .list before
  let first ← element r
  let c ← contents r "]" (element r) before first
  let text ← textFrom s
  if c.comprehension then return .comprehension text .list c.parts
  else return .display text .list c.parts

/-- A dictionary, a set, or a comprehension of either. -/
def braceDisplay (r : Inner) :
    Parser Expr := do
  let s ← start
  symbol "\x7b"
  let before ← comments
  if ← accept "\x7d" then return .display (← textFrom s) .dict before
  let finish (shape : Shape) (item : Parser Expr) (first : Expr) : Parser Expr := do
    let c ← contents r "\x7d" item before first
    let text ← textFrom s
    if c.comprehension then return .comprehension text shape c.parts
    else return .display text shape c.parts
  if ← atSymbol "**" then finish .dict (dictItem r) (← dictItem r)
  else
    let first ← element r
    if ← accept ":" then
      let value ← r.expr
      finish .dict (dictItem r) (.other first.text [first, value])
    else finish .set (element r) first

/-! ### Operands -/

/-- A name, literal or bracketed expression. -/
def atom (r : Inner) : Parser Expr := do
  match ← peek with
  | some (.word id) =>
    if id.is "None" then
      let _ ← take
      return .null
    else if id.is "True" || id.is "False" then
      let _ ← take
      return .truth (id.is "True")
    else return .name (← ident)
  | some (.number integral) =>
    let s ← start
    let _ ← take
    return .number (← textFrom s) integral
  | some .stringStart => strings (yieldOrList r) r.bound
  | some (.symbol "(") => parenthesis r
  | some (.symbol "[") => listDisplay r
  | some (.symbol "\x7b") => braceDisplay r
  | some (.symbol "...") =>
    let _ ← take
    return .other "..." []
  | _ => failure

/-- Members, calls and subscripts of an expression that starts at `s`. -/
def trailers (r : Inner) (s : Nat) :
    Nat → Expr → Parser Expr
  | 0, e => return e
  | bound + 1, e => do
    match ← symbolOf [".", "(", "["] with
    | some "." =>
      let _ ← take
      let id ← anyWord
      trailers r s bound (.member (← textFrom s) e id)
    | some "(" =>
      let _ ← take
      let arguments ← arguments r
      trailers r s bound (.call (← textFrom s) e arguments)
    | some _ =>
      let _ ← take
      guard (!(← atSymbol "]"))
      let indices ← closedBy "]" (index r) r.bound
      trailers r s bound (.subscript (← textFrom s) e indices)
    | none => return e

/-- An atom with its members, calls and subscripts. -/
def primary (r : Inner) : Parser Expr := do
  let s ← start
  let e ← atom r
  trailers r s r.bound e

/-- A power, which may be awaited. `await` is a plain name unless an operand follows. -/
def power (r : Inner) : Parser Expr := do
  let s ← start
  let awaits := (← atWord "await") &&
    (((← peekSecond).map fun k ↦
      k.startsOperand || k == .symbol "(" || k == .symbol "[").getD false)
  let base ←
    if awaits then
      let _ ← take
      let e ← primary r
      pure (.other (← textFrom s) [e])
    else primary r
  if ← accept "**" then
    let exponent ← r.factor
    return .binary (← textFrom s) base "**" exponent
  else return base

/-- An operand of a product: a power, or a sign and what it applies to. -/
def factor (r : Inner) : Parser Expr := do
  if (← symbolOf ["+", "-", "~"]).isSome then
    let s ← start
    let _ ← take
    let e ← r.factor
    return .other (← textFrom s) [e]
  else power r

/-- Operands joined by operators of one precedence. -/
def joined (r : Inner) (marks : List String) (next : Parser Expr) : Parser Expr := do
  let s ← start
  let e ← next
  leftToRight s marks next r.bound e

/-- Operands joined by arithmetic and bitwise operators. -/
def arithmetic (r : Inner) : Parser Expr :=
  joined r ["|"] <| joined r ["^"] <| joined r ["&"] <| joined r ["<<", ">>"] <|
    joined r ["+", "-"] <| joined r ["*", "/", "//", "%", "@"] <| factor r

/-- Takes a comparison operator if one comes next. -/
def comparisonOperator : Parser Bool := do
  if (← symbolOf ["<", ">", "==", ">=", "<=", "!=", "<>"]).isSome then
    let _ ← take
    return true
  else if ← acceptWord "in" then return true
  else if ← acceptWord "is" then
    let _ ← acceptWord "not"
    return true
  else if ← atWord "not" then
    match ← peekSecond with
    | some (.word id) =>
      if id.is "in" then
        let _ ← take
        let _ ← take
        return true
      else return false
    | _ => return false
  else return false

/-- Operands with something between each two of them; a single one stands for itself. -/
def joinedBy (r : Inner) (between : Parser Bool) (operand : Parser Expr) : Parser Expr := do
  let s ← start
  let first ← operand
  let rest ← many (do
    if ← between then return some (← operand) else return none) r.bound
  if rest.isEmpty then return first else return .other (← textFrom s) (first :: rest)

/-- A comparison, which may be negated. -/
def inversion (r : Inner) : Parser Expr := do
  let s ← start
  let nots ← many (do
    if ← acceptWord "not" then return some () else return none) r.bound
  let e ← joinedBy r comparisonOperator (arithmetic r)
  if nots.isEmpty then return e else return .other (← textFrom s) [e]

/-- Conditions joined by `and` and `or`. -/
def disjunction (r : Inner) : Parser Expr :=
  joinedBy r (acceptWord "or") <| joinedBy r (acceptWord "and") <| inversion r

/-- An annotation; it may be starred. -/
def typeHint (r : Inner) : Parser Expr := do
  if ← atSymbol "*" then splat r else r.expr

/-! ### Parameters -/

/-- The type of a parameter, if types are allowed and one is given. -/
def paramType (r : Inner) (typed : Bool) : Parser (List Expr) := do
  if typed then
    if ← accept ":" then return [← typeHint r]
  return []

/-- The parameter after a star, which may have a name. A comment before the name hides it. -/
def starParam (r : Inner) (typed : Bool) : Parser Param := do
  let hidden := !(← comments).isEmpty
  let id ← ident
  return ⟨if hidden then none else some id, ← paramType r typed⟩

/-- A parameter of a function, with an annotation if `typed`, or of a lambda expression. -/
def param (r : Inner) (typed : Bool) : Parser Param := do
  if ← accept "**" then starParam r typed
  else if ← accept "*" then
    if (← symbolOf [",", ")", ":"]).isSome then return ⟨none, []⟩ else starParam r typed
  else if ← accept "/" then return ⟨none, []⟩
  else
    let name ←
      if ← atSymbol "(" then
        guard (isTarget (← r.primary))
        pure none
      else pure (some (← ident))
    let hint ← paramType r typed
    let value ← if ← accept "=" then pure [← r.expr] else pure []
    return ⟨name, hint ++ value⟩

/-- Parameters up to a closing mark, which is taken. -/
def params (r : Inner) (typed : Bool) (close : String) : Nat → Parser (List Param)
  | 0 => failure
  | bound + 1 => do
    if ← accept close then return []
    let first ← param r typed
    if ← accept "," then return first :: (← params r typed close bound)
    symbol close
    return [first]

/-! ### Whole expressions -/

/-- A lambda expression. -/
def lambda (r : Inner) : Parser Expr := do
  let s ← start
  word "lambda"
  let parameters ← params r false ":" r.bound
  let body ← r.expr
  return .other (← textFrom s) (parameters.flatMap Param.parts ++ [body])

/-- A disjunction, or a choice between two expressions. -/
def conditional (r : Inner) : Parser Expr := do
  let s ← start
  let e ← disjunction r
  if ← acceptWord "if" then
    let condition ← r.disjunction
    word "else"
    let alternative ← r.expr
    return .other (← textFrom s) [e, condition, alternative]
  else return e

/-- An expression: a binding `name := value`, a lambda, or a conditional, with a target after
`as` if there is one. -/
def expression (r : Inner) : Parser Expr := do
  let s ← start
  let e ←
    if (← peekSecond) == some (.symbol ":=") then
      let id ← ident
      symbol ":="
      let value ← r.expr
      pure (.other (← textFrom s) [.name id, value])
    else if ← atWord "lambda" then lambda r
    else conditional r
  if ← acceptWord "as" then
    let target ← r.expr
    return .other (← textFrom s) [e, target]
  else return e

/-- The grammar of expressions nested at most `depth` levels deep. -/
def grammar (bound : Nat) : (depth : Nat) → Inner
  | 0 => ⟨bound, failure, failure, failure, failure⟩
  | depth + 1 =>
    let r := grammar bound depth
    ⟨bound, expression r, disjunction r, factor r, primary r⟩

end Parser

end CodeAtlas
