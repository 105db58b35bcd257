import CodeAtlas.Source.Ident

/-!
# Expressions of a source file

An expression keeps its source text, from its first token to its last, together with what the
analysis reads off it: names and attribute chains, calls, literals and displays, sums, and
assignments. An assignment is an expression here because one may stand on the right of
another (`a = b = c`). Everything else is an `other` node that only holds its parts.

Comments between brackets are kept as parts of the bracketed expression; they count as parts
when the first part of a parenthesis or the bases of a class are asked for.
-/

namespace CodeAtlas

/-- The kinds of collection that a display or a comprehension builds. -/
inductive Shape where
  | list
  | tuple
  | set
  | dict
deriving DecidableEq, Repr

/-- An expression, with its parts in source order. -/
inductive Expr where
  /-- A plain name. -/
  | name (id : Ident)
  /-- `object.id` -/
  | member (text : String) (object : Expr) (id : Ident)
  /-- `callee(arguments)` -/
  | call (text : String) (callee : Expr) (arguments : List Expr)
  /-- `value[indices]` -/
  | subscript (text : String) (value : Expr) (indices : List Expr)
  /-- One string literal; its parts are `literal` texts and the fields of a formatted string. -/
  | string (text : String) (parts : List Expr)
  /-- Literal text between the quotes of a string. -/
  | literal (text : String)
  /-- Adjacent string literals. -/
  | concat (text : String) (strings : List Expr)
  | number (text : String) (integral : Bool)
  | truth (value : Bool)
  | null
  /-- A collection written out element by element. -/
  | display (text : String) (shape : Shape) (items : List Expr)
  | comprehension (text : String) (shape : Shape) (parts : List Expr)
  /-- An expression between parentheses, comments included. -/
  | parens (text : String) (inner : List Expr)
  | binary (text : String) (left : Expr) (operator : String) (right : Expr)
  /-- `id=value` between the parentheses of a call. -/
  | keyword (text : String) (id : Ident) (value : Expr)
  /-- `left: hint = right`, where either of the last two may be absent. -/
  | assign (text : String) (left : Expr) (hint right : Option Expr)
  /-- `left += right` and its like. -/
  | augment (text : String) (left : Expr) (operator : String) (right : Expr)
  | comment (text : String)
  /-- `*value` -/
  | starred (text : String) (value : Expr)
  /-- Expressions separated by commas, without brackets. -/
  | sequence (text : String) (items : List Expr)
  | other (text : String) (parts : List Expr)

namespace Expr

instance : Inhabited Expr := ⟨null⟩

/-- The source text of an expression. -/
def text : Expr → String
  | name id => id.text
  | truth true => "True"
  | truth false => "False"
  | null => "None"
  | member t .. | call t .. | subscript t .. | string t _ | literal t | concat t _ | number t _
  | display t .. | comprehension t .. | parens t _ | binary t .. | keyword t .. | assign t ..
  | augment t .. | comment t | starred t _ | sequence t _ | other t _ => t

mutual

/-- The nodes of an expression from the outside in and from left to right, leaving out what
lies below a node that is not entered. -/
def nodes (enter : Expr → Bool) : Expr → List Expr
  | e@(name _) | e@(literal _) | e@(number ..) | e@(truth _) | e@null | e@(comment _) => [e]
  | e@(member _ object _) => e :: if enter e then nodes enter object else []
  | e@(call _ first rest) | e@(subscript _ first rest) =>
    e :: if enter e then nodes enter first ++ nodesOfList enter rest else []
  | e@(string _ parts) | e@(concat _ parts) | e@(display _ _ parts) | e@(comprehension _ _ parts)
  | e@(parens _ parts) | e@(sequence _ parts) | e@(other _ parts) =>
    e :: if enter e then nodesOfList enter parts else []
  | e@(binary _ left _ right) | e@(augment _ left _ right) =>
    e :: if enter e then nodes enter left ++ nodes enter right else []
  | e@(keyword _ _ value) | e@(starred _ value) => e :: if enter e then nodes enter value else []
  | e@(assign _ left hint right) =>
    e :: if enter e then
      nodes enter left ++ nodesOfOption enter hint ++ nodesOfOption enter right
    else []

/-- The nodes of a sequence of expressions. -/
def nodesOfList (enter : Expr → Bool) : List Expr → List Expr
  | [] => []
  | e :: es => nodes enter e ++ nodesOfList enter es

/-- The nodes of an expression that may be absent. -/
def nodesOfOption (enter : Expr → Bool) : Option Expr → List Expr
  | none => []
  | some e => nodes enter e

end

/-- The name written by a chain of plain names and members (`a`, `a.b.c`). -/
def dotted : Expr → Option String
  | name id => some id.text
  | member _ object id => (dotted object).map fun o ↦ o ++ "." ++ id.text
  | _ => none

/-- The expression inside redundant parentheses: the first part of each, which is a comment
where one comes first. -/
def bare : Expr → Expr
  | parens _ (inner :: _) => bare inner
  | e => e

/-- The text of a plain string literal, escapes as written. Formatted strings with fields
have none. -/
def stringValue : Expr → Option String
  | string _ parts =>
    (parts.mapM fun
      | literal t => some t
      | _ => none).map String.join
  | _ => none

/-- The plain strings among the elements of a list or tuple. -/
def strings (e : Expr) : Option (List String) :=
  match e.bare with
  | display _ .list items | display _ .tuple items => some (items.filterMap stringValue)
  | _ => none

/-- Whether the text of a string literal marks it as bytes: a `b` before the first quote. -/
def isBytesText (text : String) : Bool :=
  (text.toList.takeWhile fun c ↦ c != '"' && c != '\'').any fun c ↦ c == 'b' || c == 'B'

/-- The category of a string literal. -/
def stringCategory (text : String) : String :=
  if isBytesText text then "bytes" else "str"

/-- The category of a literal, display or comprehension; other expressions have none. -/
def category (e : Expr) : Option String :=
  match e.bare with
  | string t _ => some (stringCategory t)
  | concat _ (first :: _) => some (stringCategory first.text)
  | concat _ [] => some "str"
  | number t integral =>
    if t.toList.getLast? == some 'j' || t.toList.getLast? == some 'J' then some "complex"
    else some (if integral then "int" else "float")
  | truth _ => some "bool"
  | null => some "null"
  | display _ .list _ | comprehension _ .list _ => some "list"
  | display _ .tuple _ => some "tuple"
  | display _ .set _ | comprehension _ .set _ => some "set"
  | display _ .dict _ | comprehension _ .dict _ => some "dict"
  | _ => none

/-- The dotted name of what is called or named: the callee of a call, or the expression. -/
def calleeName : Expr → Option String
  | call _ callee _ => callee.dotted
  | e => e.dotted

end Expr

/-- The last segment of a dotted name. -/
def lastSegment (dotted : String) : String :=
  String.ofList (dotted.toList.reverse.takeWhile (· != '.')).reverse

end CodeAtlas
