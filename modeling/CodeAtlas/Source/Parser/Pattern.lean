import CodeAtlas.Source.Parser.Expr

/-!
# Parsing the patterns of `case` clauses

A pattern is no expression. All that a pass could look at in it are the fields of formatted
strings, so the parsers decide whether there is a pattern and give the string literals in it.
`pattern` ties the knot over the nesting of patterns.
-/

namespace CodeAtlas

namespace Parser

/-- Takes a number and what may be added to it to make it complex. -/
def numberPattern : Parser Unit := do
  let _ ← accept "-"
  match (← take).kind with
  | .number _ => pure ()
  | _ => failure
  if (← symbolOf ["+", "-"]).isSome then
    let _ ← take
    match (← take).kind with
    | .number _ => pure ()
    | _ => failure

/-- Patterns separated by commas up to a closing bracket, which is taken. -/
def patternsUntil (close : String) (item : Parser (List Expr)) : Nat → Parser (List Expr)
  | 0 => failure
  | bound + 1 => do
    if ← accept close then return []
    let first ← item
    if ← accept "," then return first ++ (← patternsUntil close item bound)
    symbol close
    return first

/-- A name with its members; with arguments if it is a class pattern. -/
def namePattern (item : Parser (List Expr)) (bound : Nat) : Parser (List Expr) := do
  let _ ← ident
  let _ ← many (after "." ident) bound
  if ← accept "(" then patternsUntil ")" item bound else return []

/-- A pattern without alternatives, given a parser for the patterns inside it. -/
def closedPattern (r : Inner) (inner : Parser (List Expr)) : Parser (List Expr) := do
  match ← peek with
  | some (.symbol "*") | some (.symbol "**") =>
    let _ ← take
    let _ ← ident
    return []
  | some (.symbol "(") =>
    let _ ← take
    patternsUntil ")" inner r.bound
  | some (.symbol "[") =>
    let _ ← take
    patternsUntil "]" inner r.bound
  | some (.symbol "\x7b") =>
    let _ ← take
    patternsUntil "\x7d" (do
      let key ← inner
      if ← accept ":" then return key ++ (← inner) else return key) r.bound
  | some .stringStart => return [← strings (yieldOrList r) r.bound]
  | some (.number _) | some (.symbol "-") =>
    numberPattern
    return []
  | some (.word id) =>
    if ["None", "True", "False"].contains id.text then
      let _ ← take
      return []
    else if (← peekSecond) == some (.symbol "=") then
      let _ ← ident
      symbol "="
      inner
    else namePattern inner r.bound
  | _ => failure

/-- A pattern nested at most `depth` levels deep. -/
def pattern (r : Inner) : (depth : Nat) → Parser (List Expr)
  | 0 => failure
  | depth + 1 => do
    let inner := closedPattern r (pattern r depth)
    let first ← inner
    let rest ← many (after "|" inner) r.bound
    if ← acceptWord "as" then
      let _ ← ident
    return first ++ rest.flatten

/-- The patterns of a `case` clause. -/
def casePatterns (r : Inner) : Parser (List Expr) := do
  let first ← pattern r r.bound
  let rest ← many (do
    if ← accept "," then
      if (← atSymbol ":") || (← atWord "if") then return some []
      else return some (← pattern r r.bound)
    else return none) r.bound
  return first ++ rest.flatten

end Parser

end CodeAtlas
