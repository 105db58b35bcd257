import CodeAtlas.Ignore.Pattern

/-!
# Globs

The notation for sets of paths in ignore files:

* `?` is a byte and `*` any number of bytes, but no slash;
* `**` as a whole component is any number of components;
* `[…]` is one of the characters listed, and `[!…]` or `[^…]` one that is not listed;
* `{…,…}` is one of the alternatives, of which empty ones do not count;
* after a backslash, a character stands for itself.

A glob is read in two steps. The first makes out characters, classes and operators; the second
finds the components `**` and the groups.
-/

namespace CodeAtlas

namespace Glob

/-- What a glob is made of. -/
inductive Lexeme where
  | char (c : Char)
  | escaped (c : Char)
  | any
  | star
  | cls (s : ByteSet)
  | openGroup
  | comma
  | closeGroup
deriving DecidableEq, Repr

/-! ### Classes of characters -/

/-- The bytes of a character. -/
def charBytes (c : Char) : List UInt8 :=
  c.toString.toUTF8.toList

/-- The bytes of a range of characters: each byte of its ends, and the range from the last
byte of the first end to the first byte of the other. -/
def rangeBytes (low high : Char) : List (UInt8 × UInt8) :=
  let single (b : UInt8) := (b, b)
  if low = high then (charBytes low).map single
  else
    let lows := charBytes low
    let highs := charBytes high
    lows.dropLast.map single ++
      [(lows.getLast?.getD 0, highs.head?.getD 0)] ++ highs.tail.map single

/-- A class as far as it has been read: its ranges, last first, whether nothing has been read,
and whether a dash has been read that a range may end after. -/
structure OpenClass where
  negated : Bool
  ranges : List (Char × Char) := []
  first : Bool := true
  inRange : Bool := false

/-- Adds a character to a class. There is none if it ends a range before its start. -/
def OpenClass.add (o : OpenClass) (c : Char) : Option OpenClass :=
  match o.inRange, o.ranges with
  | true, (low, _) :: rest =>
    if c < low then none
    else some { o with ranges := (low, c) :: rest, first := false, inRange := false }
  | _, ranges => some { o with ranges := (c, c) :: ranges, first := false, inRange := false }

/-- A dash adds itself if it comes first or ends a range, and else starts a range. -/
def OpenClass.dash (o : OpenClass) : Option OpenClass :=
  if o.first || o.inRange then o.add '-' else some { o with inRange := true }

/-- The class that has been read. A dash at its end stands for itself. -/
def OpenClass.close (o : OpenClass) : ByteSet :=
  let ranges := if o.inRange then ('-', '-') :: o.ranges else o.ranges
  ⟨o.negated, ranges.reverse.flatMap fun (low, high) ↦ rangeBytes low high⟩

/-! ### Characters, classes and operators -/

/-- Where reading stands: between lexemes, after a backslash, after the bracket that opens a
class, or inside a class. -/
inductive Mode where
  | between
  | afterBackslash
  | afterBracket
  | inClass (o : OpenClass)

/-- Reads a character inside a class. -/
def readInClass (o : OpenClass) (c : Char) : Option (Mode × List Lexeme) :=
  if c = ']' && !o.first then some (.between, [.cls o.close])
  else if c = '-' then o.dash.map (.inClass ·, [])
  else (o.add c).map (.inClass ·, [])

/-- Reads a character: where reading stands then, and the lexeme that it completes. -/
def read (mode : Mode) (c : Char) : Option (Mode × List Lexeme) :=
  match mode with
  | .between =>
    match c with
    | '?' => some (.between, [.any])
    | '*' => some (.between, [.star])
    | '[' => some (.afterBracket, [])
    | '\x7b' => some (.between, [.openGroup])
    | '\x7d' => some (.between, [.closeGroup])
    | ',' => some (.between, [.comma])
    | '\\' => some (.afterBackslash, [])
    | c => some (.between, [.char c])
  | .afterBackslash => some (.between, [.escaped c])
  | .afterBracket =>
    if c = '!' || c = '^' then some (.inClass { negated := true }, [])
    else readInClass { negated := false } c
  | .inClass o => readInClass o c

/-- The lexemes of a glob; there are none if a class or an escape is not finished. -/
def lexemes (mode : Mode) : List Char → Option (List Lexeme)
  | [] =>
    match mode with
    | .between => some []
    | _ => none
  | c :: rest => do
    let (mode, found) ← read mode c
    return found ++ (← lexemes mode rest)

/-! ### Components and groups -/

/-- A part of a glob. The two special parts are those that another `**` after them adds
nothing to. -/
inductive Part where
  | leading
  | trailing
  | pattern (p : Pattern)
deriving DecidableEq

def slash : UInt8 := 47

/-- Any text. -/
def anything : Pattern :=
  .star (.byte .all)

/-- A slash. -/
def separator : Pattern :=
  .byte (.only slash)

/-- What a part matches: leading components or none, or a slash and components after it. -/
def Part.toPattern : Part → Pattern
  | leading => .choice [.empty, separator, .seq anything separator]
  | trailing => .seq separator anything
  | pattern p => p

/-- Components between two slashes, or just a slash. -/
def between : Part :=
  .pattern (.choice [separator, .sequence [separator, anything, separator]])

/-- Any text without a slash. -/
def anyName : Part :=
  .pattern (.star (.byte (.allBut slash)))

/-- The parts read of a group or of the glob itself: finished alternatives, and the parts of
the one that is being read, last first. -/
structure Level where
  finished : List (List Part) := []
  parts : List Part := []

/-- Ends an alternative. -/
def Level.next (l : Level) : Level :=
  ⟨l.finished ++ [l.parts.reverse], []⟩

/-- What a sequence of parts matches. -/
def sequence (parts : List Part) : Pattern :=
  .sequence (parts.map Part.toPattern)

/-- What a group matches. A group without alternatives that count matches the empty text. -/
def Level.group (l : Level) : Pattern :=
  match (l.next.finished.map sequence).filter (· != .empty) with
  | [] => .empty
  | alternatives => .choice alternatives

/-- Adds a part. -/
def Level.push (l : Level) (part : Part) : Level :=
  { l with parts := part :: l.parts }

/-- Puts a `**` that ends a text or stands between slashes instead of the slash before it. -/
def Level.pushComponents (l : Level) (part : Part) : Level :=
  match l.parts with
  | .leading :: _ | .trailing :: _ => l
  | _ :: before => { l with parts := part :: before }
  | [] => l.push part

/-- What a single lexeme matches by itself. -/
def Lexeme.part : Lexeme → Part
  | char c | escaped c => .pattern (.sequence ((charBytes c).map fun b ↦ .byte (.only b)))
  | any => .pattern (.byte (.allBut slash))
  | star => anyName
  | cls s => .pattern (.byte s)
  | comma => .pattern (.byte (.only 44))
  | openGroup | closeGroup => .pattern .empty

/-- Whether a `**` after this lexeme starts a component. -/
def startsComponent (inGroup : Bool) : Option Lexeme → Bool
  | some (.char c) | some (.escaped c) => c = '/' || inGroup && (c = ',' || c = '\x7b')
  | some .comma | some .openGroup => inGroup
  | _ => false

/-- Reads lexemes, given the one before them, the level they are on, and the levels around
it. There is no result if a group is not closed or not opened. -/
def parse (previous : Option Lexeme) (level : Level) (outer : List Level) :
    List Lexeme → Option (List Part)
  | [] => if outer.isEmpty then some level.parts.reverse else none
  | .star :: .star :: rest =>
    let slashAhead := rest.head? == some (.char '/')
    let twoStars := (level.push anyName).push anyName
    let afterSlash (level : Level) : Option (List Part) :=
      match rest with
      | .char '/' :: rest => parse (some (.char '/')) level outer rest
      | rest => parse (some .star) level outer rest
    if level.parts.isEmpty then
      if rest.isEmpty || slashAhead then afterSlash (level.push .leading)
      else parse (some .star) twoStars outer rest
    else if !startsComponent (!outer.isEmpty) previous then
      parse (some .star) twoStars outer rest
    else if slashAhead then afterSlash (level.pushComponents between)
    else
      let ends := match rest.head? with
        | none => true
        | some .comma | some .closeGroup => !outer.isEmpty
        | _ => false
      if ends then parse (some .star) (level.pushComponents .trailing) outer rest
      else parse (some .star) twoStars outer rest
  | .openGroup :: rest => parse (some .openGroup) {} (level :: outer) rest
  | .closeGroup :: rest =>
    match outer with
    | [] => none
    | around :: outer =>
      parse (some .closeGroup) (around.push (.pattern level.group)) outer rest
  | .comma :: rest =>
    if outer.isEmpty then parse (some .comma) (level.push Lexeme.comma.part) outer rest
    else parse (some .comma) level.next outer rest
  | lexeme :: rest => parse (some lexeme) (level.push lexeme.part) outer rest

/-- The pattern of a glob; there is none if the glob is malformed. -/
def toPattern? (glob : List Char) : Option Pattern := do
  match ← parse none {} [] (← lexemes .between glob) with
  | [.leading] => return anything
  | parts => return sequence parts

end Glob

end CodeAtlas
