/-!
# Hexadecimal digits

Control characters are written in the strings of documents by their code, in hexadecimal digits.
One format writes the letters among the digits small and the other writes them large; readers
take both. Each digit is read back as the number it was written for (`value?_lower`,
`value?_upper`).
-/

namespace CodeAtlas

namespace Hex

/-- The digit of a number below sixteen, with small letters. -/
def lower (n : Nat) : Char :=
  if n < 10 then Char.ofNat (48 + n) else Char.ofNat (87 + n)

/-- The digit of a number below sixteen, with large letters. -/
def upper (n : Nat) : Char :=
  if n < 10 then Char.ofNat (48 + n) else Char.ofNat (55 + n)

/-- The number of a digit. -/
def value? (c : Char) : Option Nat :=
  if '0' ≤ c && c ≤ '9' then some (c.toNat - 48)
  else if 'a' ≤ c && c ≤ 'f' then some (c.toNat - 87)
  else if 'A' ≤ c && c ≤ 'F' then some (c.toNat - 55)
  else none

theorem value?_lower : ∀ n < 16, value? (lower n) = some n := by
  decide

theorem value?_upper : ∀ n < 16, value? (upper n) = some n := by
  decide

end Hex

end CodeAtlas
