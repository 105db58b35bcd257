/-!
# Patterns of bytes

Regular expressions over bytes, matched by derivatives: the derivative of a pattern by a byte
matches what may follow that byte. The constructors `Pattern.then` and `Pattern.or` leave out
parts that cannot matter, so that derivatives stay small.
-/

namespace CodeAtlas

/-- A set of bytes: those in one of the ranges, or those in none of them. -/
structure ByteSet where
  negated : Bool
  ranges : List (UInt8 × UInt8)
deriving DecidableEq, Repr

namespace ByteSet

/-- Whether a byte is in the set. -/
def contains (s : ByteSet) (b : UInt8) : Bool :=
  s.ranges.any (fun (low, high) ↦ low ≤ b && b ≤ high) != s.negated

/-- All bytes. -/
def all : ByteSet := ⟨true, []⟩

/-- One byte. -/
def only (b : UInt8) : ByteSet := ⟨false, [(b, b)]⟩

/-- All bytes but one. -/
def allBut (b : UInt8) : ByteSet := ⟨true, [(b, b)]⟩

end ByteSet

/-- A pattern of bytes. -/
inductive Pattern where
  /-- Matches nothing. -/
  | never
  /-- Matches the empty text. -/
  | empty
  /-- Matches one byte of a set. -/
  | byte (s : ByteSet)
  /-- Matches one pattern and then the other. -/
  | seq (p q : Pattern)
  /-- Matches either pattern. -/
  | alt (p q : Pattern)
  /-- Matches any number of times. -/
  | star (p : Pattern)
deriving DecidableEq, Repr

namespace Pattern

/-- One pattern and then the other. -/
def «then» (p q : Pattern) : Pattern :=
  match p, q with
  | never, _ | _, never => never
  | empty, q => q
  | p, empty => p
  | p, q => seq p q

/-- Either of two patterns. -/
def or (p q : Pattern) : Pattern :=
  match p, q with
  | never, q => q
  | p, never => p
  | p, q => if p = q then p else alt p q

/-- The patterns one after the other. -/
def sequence (ps : List Pattern) : Pattern :=
  ps.foldr «then» empty

/-- Any of the patterns. -/
def choice (ps : List Pattern) : Pattern :=
  ps.foldr or never

/-- Whether the pattern matches the empty text. -/
def nullable : Pattern → Bool
  | never | byte _ => false
  | empty | star _ => true
  | seq p q => p.nullable && q.nullable
  | alt p q => p.nullable || q.nullable

/-- What the pattern matches after a byte. -/
def derivative (b : UInt8) : Pattern → Pattern
  | never | empty => never
  | byte s => if s.contains b then empty else never
  | seq p q =>
    let first := (p.derivative b).then q
    if p.nullable then first.or (q.derivative b) else first
  | alt p q => (p.derivative b).or (q.derivative b)
  | star p => (p.derivative b).then (star p)

/-- Whether the pattern matches a text. -/
def accepts (p : Pattern) (bytes : List UInt8) : Bool :=
  (bytes.foldl (fun p b ↦ p.derivative b) p).nullable

end Pattern

end CodeAtlas
