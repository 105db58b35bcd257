import CodeAtlas.Source.IdentTable

/-!
# Identifiers

An identifier is a word of the source text. The type carries the one fact that naming relies
on: an identifier holds no dot, so that a qualified name can be taken apart at its dots.
-/

namespace CodeAtlas

/-- Whether a character may begin an identifier. -/
def isIdentStart (c : Char) : Bool :=
  if c.toNat < 128 then c.isAlpha || c == '_'
  else IdentTable.covers IdentTable.startRanges c.toNat

/-- Whether a character may stand in an identifier after its first character. -/
def isIdentRest (c : Char) : Bool :=
  if c.toNat < 128 then c.isAlphanum || c == '_'
  else
    IdentTable.covers IdentTable.startRanges c.toNat ||
      IdentTable.covers IdentTable.extraRanges c.toNat

/-- A word of the source text, without dots. -/
structure Ident where
  text : String
  dotFree : '.' ∉ text.toList
deriving DecidableEq

namespace Ident

/-- The identifier characters at the head of a text, and what follows them. -/
def span (cs : List Char) : Ident × List Char :=
  (⟨String.ofList (cs.takeWhile isIdentRest), by
      intro h
      rw [String.toList_ofList] at h
      have := List.all_takeWhile (p := isIdentRest) (l := cs)
      rw [List.all_eq_true] at this
      exact absurd (this _ h) (by decide)⟩,
    cs.dropWhile isIdentRest)

/-- Whether the identifier is the given word. -/
def is (id : Ident) (word : String) : Bool :=
  id.text == word

instance : Inhabited Ident := ⟨⟨"", by simp⟩⟩

end Ident

end CodeAtlas
