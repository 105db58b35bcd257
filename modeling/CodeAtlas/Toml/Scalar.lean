import CodeAtlas.Toml.Value

/-!
# Numbers, dates and truth values of a TOML document

Which words are well-formed: integers of 64 bits in four bases, decimal fractions and powers
of ten, infinities and the like, dates and times of the calendar, and the two truth values.
Underscores may stand between digits.
-/

namespace CodeAtlas

namespace Toml

/-! ### Digits -/

def isDigit (c : Char) : Bool := '0' ≤ c && c ≤ '9'

/-- Digits of a kind, with single underscores between them. -/
def groups (isDigit : Char → Bool) : List Char → Bool
  | [] => false
  | [c] => isDigit c
  | c :: '_' :: rest => isDigit c && groups isDigit rest
  | c :: rest => isDigit c && groups isDigit rest

/-- The value of digits in a base, underscores left out. -/
def digitsValue (base : Nat) (cs : List Char) : Nat :=
  (cs.filter (· ≠ '_')).foldl (fun n c ↦ base * n + digitValue c) 0
where
  digitValue (c : Char) : Nat :=
    if isDigit c then c.toNat - 48 else if c ≤ 'F' then c.toNat - 55 else c.toNat - 87

/-- Takes off a sign, and says whether it is a minus. -/
def dropSign : List Char → Bool × List Char
  | '-' :: rest => (true, rest)
  | '+' :: rest => (false, rest)
  | cs => (false, cs)

/-- Decimal digits without a leading zero. -/
def isDecimal : List Char → Bool
  | ['0'] => true
  | '0' :: _ => false
  | cs => groups isDigit cs

/-! ### Integers -/

/-- The number of positive integers of 64 bits, zero included. -/
def integerLimit : Nat := Nat.pow 2 63

/-- Whether digits in a base make a positive integer of 64 bits. -/
def isBased (base : Nat) (isDigit : Char → Bool) (cs : List Char) : Bool :=
  groups isDigit cs && digitsValue base cs < integerLimit

def isHexDigit (c : Char) : Bool :=
  isDigit c || ('a' ≤ c && c ≤ 'f') || ('A' ≤ c && c ≤ 'F')

/-- Whether a word is an integer of 64 bits. -/
def isInteger : List Char → Bool
  | '0' :: 'x' :: rest => isBased 16 isHexDigit rest
  | '0' :: 'o' :: rest => isBased 8 (fun c ↦ '0' ≤ c && c ≤ '7') rest
  | '0' :: 'b' :: rest => isBased 2 (fun c ↦ c = '0' || c = '1') rest
  | cs =>
    let (negative, digits) := dropSign cs
    isDecimal digits &&
      if negative then digitsValue 10 digits ≤ integerLimit
      else digitsValue 10 digits < integerLimit

/-! ### Fractions and powers of ten -/

/-- The least number that is nearer to `2 ^ 1024` than to what a double can hold, or as near. -/
def doubleLimit : Nat := Nat.pow 2 1024 - Nat.pow 2 970

/-- Whether `digits` times a power of ten is too large for a double. The number of digits
decides but for numbers near the limit. -/
def overflows (digits : Nat) (exponent : Int) : Bool :=
  let magnitude := (Nat.toDigits 10 digits).length + exponent
  if digits = 0 || magnitude < 308 then false
  else if 310 < magnitude then true
  else if 0 ≤ exponent then doubleLimit ≤ digits * Nat.pow 10 exponent.toNat
  else doubleLimit * Nat.pow 10 (-exponent).toNat ≤ digits

def isExponentMark (c : Char) : Bool := c = 'e' || c = 'E'

/-- Whether a word without its sign is a number with a fraction or an exponent, in the range of
doubles. Numbers below the range count as within it. -/
def isUnsignedFloat (negative : Bool) (cs : List Char) : Bool :=
  let whole := cs.takeWhile fun c ↦ c ≠ '.' && !isExponentMark c
  let rest := cs.drop whole.length
  let (fraction, power) := match rest with
    | '.' :: rest =>
      let fraction := rest.takeWhile fun c ↦ !isExponentMark c
      (some fraction, rest.drop fraction.length)
    | rest => (none, rest)
  let (negativePower, powerDigits) := dropSign (power.drop 1)
  let shift : Int := ((fraction.getD []).filter (· ≠ '_')).length
  let exponent : Int := digitsValue 10 powerDigits
  isDecimal whole && (fraction.isSome || !power.isEmpty) &&
    fraction.all (groups isDigit) && (power.isEmpty || groups isDigit powerDigits) &&
    (negative || !overflows (digitsValue 10 (whole ++ fraction.getD []))
      ((if negativePower then -exponent else exponent) - shift))

/-- Whether a word is a number with a fraction or an exponent, infinite, or no number. -/
def isFloat (cs : List Char) : Bool :=
  let (negative, digits) := dropSign cs
  digits = "inf".toList || digits = "nan".toList || isUnsignedFloat negative digits

/-! ### Dates and times -/

/-- The value of a field of digits of a fixed width, if it is within bounds. -/
def field? (digits : List Char) (low high : Nat) : Option Nat :=
  let n := digitsValue 10 digits
  if digits.all isDigit && low ≤ n && n ≤ high then some n else none

/-- The number of days of a month. -/
def daysIn (year month : Nat) : Nat :=
  match month with
  | 2 => if year % 4 = 0 && (year % 100 ≠ 0 || year % 400 = 0) then 29 else 28
  | 4 | 6 | 9 | 11 => 30
  | _ => 31

/-- What follows a date. -/
def date? : List Char → Option (List Char)
  | a :: b :: c :: d :: '-' :: e :: f :: '-' :: g :: h :: rest => do
    let year ← field? [a, b, c, d] 0 9999
    let month ← field? [e, f] 1 12
    let _ ← field? [g, h] 1 (daysIn year month)
    return rest
  | _ => none

/-- What follows a time of day, which may have a fraction of a second. -/
def time? : List Char → Option (List Char)
  | a :: b :: ':' :: c :: d :: ':' :: e :: f :: rest => do
    let _ ← field? [a, b] 0 23
    let _ ← field? [c, d] 0 59
    let _ ← field? [e, f] 0 60
    match rest with
    | '.' :: rest =>
      let fraction := rest.takeWhile isDigit
      if fraction.isEmpty then none else some (rest.drop fraction.length)
    | rest => some rest
  | _ => none

/-- Whether what follows a time is nothing or its distance from universal time. -/
def isOffset : List Char → Bool
  | [] | ['Z'] | ['z'] => true
  | [sign, a, b, ':', c, d] =>
    (sign = '+' || sign = '-') && (field? [a, b] 0 23).isSome && (field? [c, d] 0 59).isSome
  | _ => false

/-- Whether a word is a date, a time of day, or both. -/
def isDateTime (cs : List Char) : Bool :=
  match date? cs with
  | some [] => true
  | some (mark :: rest) =>
    (mark = 'T' || mark = 't' || mark = ' ') && (time? rest).any isOffset
  | none => time? cs = some []

/-! ### Words -/

/-- Characters of words. -/
def isWordChar (c : Char) : Bool :=
  isDigit c || ('a' ≤ c && c ≤ 'z') || ('A' ≤ c && c ≤ 'Z') ||
    c = '+' || c = '-' || c = '_' || c = '.' || c = ':'

/-- Takes a word. A date takes a time of day with it that follows after a space. -/
def word (cs : List Char) : List Char × List Char :=
  let first := cs.takeWhile isWordChar
  let rest := cs.drop first.length
  match date? first, rest with
  | some [], ' ' :: c :: more =>
    if isDigit c then
      let second := (c :: more).takeWhile isWordChar
      (first ++ ' ' :: second, (c :: more).drop second.length)
    else (first, rest)
  | _, _ => (first, rest)

/-- The value of a word, if it is well-formed. -/
def scalar? (cs : List Char) : Option Value :=
  if cs = "true".toList then some (.boolean true)
  else if cs = "false".toList then some (.boolean false)
  else if isDateTime cs then some (.date (String.ofList cs))
  else if isFloat cs || isInteger cs then some (.number (String.ofList cs))
  else none

end Toml

end CodeAtlas
