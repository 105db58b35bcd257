import CodeAtlas.Table.WidthTable

/-!
# Widths of texts

The columns that a text takes are those of its characters, except that emoji which are joined
or modified are drawn as one.
-/

namespace CodeAtlas

namespace Width

/-- The columns that a character takes by itself. Control characters take none. -/
def char (c : Char) : Nat :=
  let n := c.toNat
  if n < 0x20 || (0x7F ≤ n && n < 0xA0) then 0
  else if n < 0x300 then if n = 0xAD then 0 else 1
  else if covered zeroRanges n then 0
  else if covered wideRanges n then 2
  else 1

/-- The variation selector for emoji. -/
def emojiSelector : Char := '\ufe0f'

/-- The character that joins emoji. -/
def joiner : Char := '\u200d'

/-- Whether a character changes the colour of the emoji before it. -/
def isModifier (c : Char) : Bool :=
  0x1F3FB ≤ c.toNat && c.toNat ≤ 0x1F3FF

/-- What stands before a character: an emoji, an emoji and a joiner, or something else. -/
inductive Before where
  | emoji
  | joined
  | other

/-- The columns that a text takes, given what stands before it. -/
def ofList (previous : Before) : List Char → Nat
  | [] => 0
  | c :: rest =>
    let selected := rest.head? = some emojiSelector && covered emojiRanges c.toNat
    let columns := if selected then 2 else char c
    match previous with
    | .emoji =>
      if c = joiner then ofList .joined rest
      else if c = emojiSelector || isModifier c then ofList .emoji rest
      else columns + ofList (if columns = 2 then .emoji else .other) rest
    | .joined =>
      if columns = 2 then ofList .emoji rest else columns + ofList .other rest
    | .other => columns + ofList (if columns = 2 then .emoji else .other) rest

/-- The columns that a text takes. -/
def ofText (s : String) : Nat :=
  ofList .other s.toList

end Width

end CodeAtlas
