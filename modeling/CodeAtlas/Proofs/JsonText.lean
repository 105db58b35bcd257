import Mathlib.Data.List.Forall2
import CodeAtlas.Json

/-!
# Reading the text of JSON values

A reader of JSON texts, and what it makes of the two texts of a value.

## The reader

A text is split into tokens character by character (`lex`), with white space between them or not.
The tokens are read with a stack of the arrays and objects that are open (`parse`). The reader knows
the values that documents have, so it refuses truth values and numbers with a sign, a point or an
exponent. Strings may have every escape but those for halves of surrogate pairs.

## Tokens

The tokens of a value give the value back whatever the stack is (`readAs_tokens`), by induction on
the value. For arrays and objects the elements are read one after another onto what has been read
(`parse_items`, `parse_members`).

## Spellings

A text spells tokens if it is split into them, whatever may come after it (`Spells`). The end of a
number is seen at the character after it, so a text that comes after another must not begin with a
digit (`Delimited`). Both texts of a value spell its tokens (`spells_compact`, `spells_prettyAt`):
strings because escaping is undone character by character (`lex_escape`), and the pretty text
because line breaks and indentation are white space. So each text of a value gives it back
(`read?_render`).
-/

namespace CodeAtlas

namespace Json

/-! ### Characters -/

/-- A token of a text. -/
inductive Token where
  | openArray
  | closeArray
  | openObject
  | closeObject
  | comma
  | colon
  | null
  | number (n : Nat)
  | text (s : String)
deriving DecidableEq

/-- Where reading stands: between tokens, inside the word for the null value, inside a number,
inside a string, after a backslash in it, or inside a code with some digits left. -/
inductive Mode where
  | between
  | inWord (left : List Char)
  | inNumber (n : Nat)
  | inText (read : List Char)
  | afterBackslash (read : List Char)
  | inCode (read : List Char) (left n : Nat)
deriving DecidableEq

/-- The value of a decimal digit. -/
def digitValue (c : Char) : Nat :=
  c.toNat - '0'.toNat

/-- What a character after a backslash stands for. -/
def escaped? : Char → Option Char
  | '"' => some '"'
  | '\\' => some '\\'
  | '/' => some '/'
  | 'b' => some '\x08'
  | 'f' => some '\x0c'
  | 'n' => some '\n'
  | 'r' => some '\r'
  | 't' => some '\t'
  | _ => none

/-- Reads a character between tokens. -/
def readBetween (c : Char) : Option (Mode × List Token) :=
  match c with
  | ' ' | '\t' | '\n' | '\r' => some (.between, [])
  | '[' => some (.between, [.openArray])
  | ']' => some (.between, [.closeArray])
  | '\x7b' => some (.between, [.openObject])
  | '\x7d' => some (.between, [.closeObject])
  | ',' => some (.between, [.comma])
  | ':' => some (.between, [.colon])
  | '"' => some (.inText [], [])
  | 'n' => some (.inWord ['u', 'l', 'l'], [])
  | c => if c.isDigit then some (.inNumber (digitValue c), []) else none

/-- Reads a character inside a string. Control characters do not stand for themselves. -/
def readInText (read : List Char) (c : Char) : Option (Mode × List Token) :=
  if c = '"' then some (.between, [.text (String.ofList read)])
  else if c = '\\' then some (.afterBackslash read, [])
  else if c.toNat < 0x20 then none
  else some (.inText (read ++ [c]), [])

/-- Reads a character: where reading stands then, and the tokens that it completes. The end of a
number is seen at the character after it. -/
def readChar (mode : Mode) (c : Char) : Option (Mode × List Token) :=
  match mode with
  | .between => readBetween c
  | .inWord left =>
    if left.head? ≠ some c then none
    else if left.tail = [] then some (.between, [.null])
    else some (.inWord left.tail, [])
  | .inNumber n =>
    if c.isDigit then
      if n = 0 then none else some (.inNumber (10 * n + digitValue c), [])
    else (readBetween c).map fun next ↦ (next.1, .number n :: next.2)
  | .inText read => readInText read c
  | .afterBackslash read =>
    if c = 'u' then some (.inCode read 3 0, [])
    else (escaped? c).map fun c ↦ (.inText (read ++ [c]), [])
  | .inCode read left n =>
    (Hex.value? c).bind fun d ↦
      if left ≠ 0 then some (.inCode read (left - 1) (16 * n + d), [])
      else if (16 * n + d).isValidChar then
        some (.inText (read ++ [Char.ofNat (16 * n + d)]), [])
      else none

/-- The tokens of a text; there are none if a word or a string is not finished. -/
def lex (mode : Mode) : List Char → Option (List Token)
  | [] =>
    match mode with
    | .between => some []
    | .inNumber n => some [.number n]
    | _ => none
  | c :: rest => (readChar mode c).bind fun next ↦ (lex next.1 rest).map (next.2 ++ ·)

/-! ### Tokens -/

/-- An array or object that is open, with what has been read of it. In an object the value of a key
is being read. -/
inductive Frame where
  | array (items : List Json)
  | object (members : List (String × Json)) (key : String)

/-- What has been read: a value, a key or a colon is expected next, or a value is complete. -/
inductive Reading where
  | value (stack : List Frame)
  | key (members : List (String × Json)) (stack : List Frame)
  | colon (members : List (String × Json)) (key : String) (stack : List Frame)
  | done (v : Json) (stack : List Frame)

/-- Reads the first token of a value. -/
def begin? (stack : List Frame) : Token → Option Reading
  | .null => some (.done .null stack)
  | .number n => some (.done (.number n) stack)
  | .text s => some (.done (.text s) stack)
  | .openArray => some (.value (.array [] :: stack))
  | .openObject => some (.key [] stack)
  | _ => none

/-- Reads a token. Brackets are closed after a value, or at once if there is none between them. -/
def readToken : Reading → Token → Option Reading
  | .value (.array [] :: stack), .closeArray => some (.done (.array []) stack)
  | .value stack, t => begin? stack t
  | .key [] stack, .closeObject => some (.done (.object []) stack)
  | .key members stack, .text key => some (.colon members key stack)
  | .colon members key stack, .colon => some (.value (.object members key :: stack))
  | .done v (.array items :: stack), .comma => some (.value (.array (items ++ [v]) :: stack))
  | .done v (.array items :: stack), .closeArray => some (.done (.array (items ++ [v])) stack)
  | .done v (.object members key :: stack), .comma => some (.key (members ++ [(key, v)]) stack)
  | .done v (.object members key :: stack), .closeObject =>
    some (.done (.object (members ++ [(key, v)])) stack)
  | _, _ => none

/-- The value that tokens stand for, all of them. -/
def parse : Reading → List Token → Option Json
  | .done v [], [] => some v
  | _, [] => none
  | r, t :: rest => (readToken r t).bind (parse · rest)

/-- The value of a text. -/
def read? (text : String) : Option Json :=
  (lex .between text.toList).bind (parse (.value []))

/-! ### The tokens of a value -/

mutual

/-- The tokens of a value. -/
def tokens : Json → List Token
  | null => [.null]
  | number n => [.number n]
  | text s => [.text s]
  | array items => .openArray :: ([Token.comma].intercalate (tokensOfItems items) ++ [.closeArray])
  | object members =>
    .openObject :: ([Token.comma].intercalate (tokensOfMembers members) ++ [.closeObject])

/-- The tokens of the elements of an array. -/
def tokensOfItems : List Json → List (List Token)
  | [] => []
  | item :: rest => tokens item :: tokensOfItems rest

/-- The tokens of the members of an object. -/
def tokensOfMembers : List (String × Json) → List (List Token)
  | [] => []
  | (key, value) :: rest => (.text key :: .colon :: tokens value) :: tokensOfMembers rest

end

theorem tokensOfItems_eq_map (items : List Json) : tokensOfItems items = items.map tokens := by
  induction items with
  | nil => rfl
  | cons item items ih => rw [tokensOfItems, ih, List.map_cons]

theorem tokensOfMembers_eq_map (members : List (String × Json)) :
    tokensOfMembers members = members.map fun m ↦ .text m.1 :: .colon :: tokens m.2 := by
  induction members with
  | nil => rfl
  | cons member members ih => rw [tokensOfMembers, ih, List.map_cons]

section Induction

variable {motive : Json → Prop} (null : motive null) (number : ∀ n, motive (number n))
  (text : ∀ s, motive (text s))
  (array : ∀ items, (∀ item ∈ items, motive item) → motive (array items))
  (object : ∀ members, (∀ member ∈ members, motive member.2) → motive (object members))

include null number text array object in
/-- Induction on a value: elements and members are smaller. -/
theorem parts_induction (v : Json) : motive v :=
  @Json.rec motive (fun items ↦ ∀ item ∈ items, motive item)
    (fun members ↦ ∀ member ∈ members, motive member.2) (fun member ↦ motive member.2)
    null number text array object
    (List.forall_mem_nil _) (fun _ _ hitem hitems ↦ List.forall_mem_cons.2 ⟨hitem, hitems⟩)
    (List.forall_mem_nil _) (fun _ _ hmember hmembers ↦ List.forall_mem_cons.2 ⟨hmember, hmembers⟩)
    (fun _ _ hvalue ↦ hvalue) v

end Induction

/-- A token that does not close an array begins a value, where one is expected. -/
theorem readToken_value (stack : List Frame) {t : Token} (h : t ≠ .closeArray) :
    readToken (.value stack) t = begin? stack t := by
  unfold readToken
  split <;> simp_all

theorem readToken_key (members : List (String × Json)) (stack : List Frame) (key : String) :
    readToken (.key members stack) (.text key) = some (.colon members key stack) := by
  rcases members with _ | ⟨member, members⟩ <;> rfl

/-- Tokens are read as a value, whatever is open around it and comes after it. -/
def ReadAs (ts : List Token) (v : Json) : Prop :=
  ∀ stack rest, parse (.value stack) (ts ++ rest) = parse (.done v stack) rest

/-- The elements of an array are read one after another, up to the closing bracket. -/
theorem parse_items {items : List Json} (h : ∀ item ∈ items, ReadAs (tokens item) item)
    (hne : items ≠ []) (before : List Json) (stack : List Frame) (rest : List Token) :
    parse (.value (.array before :: stack))
        ([Token.comma].intercalate (items.map tokens) ++ .closeArray :: rest) =
      parse (.done (.array (before ++ items)) stack) rest := by
  -- elements that have been read go to `before`, so it has to be free in the induction
  induction items generalizing before with
  | nil => exact absurd rfl hne
  | cons item items ih =>
    obtain ⟨hitem, hitems⟩ := List.forall_mem_cons.1 h
    rcases items with _ | ⟨next, items⟩
    · rw [List.map_singleton, List.intercalate_singleton, hitem]
      rfl
    · rw [List.map_cons, List.map_cons, List.intercalate_cons_cons, List.append_assoc,
        List.append_assoc, hitem, List.append_cons before]
      exact ih hitems (by simp) (before ++ [item])

/-- The members of an object are read one after another, up to the closing bracket. -/
theorem parse_members {members : List (String × Json)}
    (h : ∀ member ∈ members, ReadAs (tokens member.2) member.2) (hne : members ≠ [])
    (before : List (String × Json)) (stack : List Frame) (rest : List Token) :
    parse (.key before stack)
        ([Token.comma].intercalate (members.map fun m ↦ .text m.1 :: .colon :: tokens m.2) ++
          .closeObject :: rest) =
      parse (.done (.object (before ++ members)) stack) rest := by
  induction members generalizing before with
  | nil => exact absurd rfl hne
  | cons member members ih =>
    obtain ⟨key, value⟩ := member
    obtain ⟨hvalue, hmembers⟩ := List.forall_mem_cons.1 h
    -- the key and the colon
    have hkey : ∀ ts, parse (.key before stack) (.text key :: .colon :: tokens value ++ ts) =
        parse (.done value (.object before key :: stack)) ts := by
      intro ts
      rw [List.cons_append, List.cons_append, parse, readToken_key]
      exact hvalue _ _
    rcases members with _ | ⟨next, members⟩
    · rw [List.map_singleton, List.intercalate_singleton, hkey]
      rfl
    · rw [List.map_cons, List.map_cons, List.intercalate_cons_cons, List.append_assoc,
        List.append_assoc, hkey, List.append_cons before]
      exact ih hmembers (by simp) (before ++ [(key, value)])

/-- The tokens of a value are read as the value. -/
theorem readAs_tokens (v : Json) : ReadAs (tokens v) v := by
  induction v using parts_induction with
  | null | number | text =>
    intro stack rest
    rw [tokens, List.singleton_append, parse, readToken_value _ (by simp)]
    rfl
  | array items ih =>
    intro stack rest
    rw [tokens, tokensOfItems_eq_map, List.cons_append, parse, readToken_value _ (by simp),
      List.append_assoc]
    rcases eq_or_ne items [] with rfl | hne
    · rfl
    · exact parse_items ih hne [] stack rest
  | object members ih =>
    intro stack rest
    rw [tokens, tokensOfMembers_eq_map, List.cons_append, parse, readToken_value _ (by simp),
      List.append_assoc]
    rcases eq_or_ne members [] with rfl | hne
    · rfl
    · exact parse_members ih hne [] stack rest

/-! ### Spellings -/

/-- A text does not begin with a digit, so that a number may stand before it. -/
def Delimited (cs : List Char) : Prop :=
  ∀ c ∈ cs.head?, c.isDigit = false

/-- A text is split into tokens, whatever may come after it. -/
def Spells (cs : List Char) (ts : List Token) : Prop :=
  ∀ rest, Delimited rest → lex .between (cs ++ rest) = (lex .between rest).map (ts ++ ·)

section Spelling

variable {c : Char} {cs cs' : List Char} {ts ts' found : List Token}

theorem delimited_nil : Delimited [] := by
  rintro _ ⟨⟩

theorem delimited_cons (h : c.isDigit = false) (cs : List Char) : Delimited (c :: cs) := by
  rintro _ ⟨⟩
  exact h

/-- A text does not begin with a digit if neither of its parts does. -/
theorem Delimited.append (h : Delimited cs) (h' : Delimited cs') : Delimited (cs ++ cs') := by
  rcases cs with _ | ⟨c, cs⟩
  · exact h'
  · exact h

theorem Spells.nil : Spells [] [] := by
  intro rest _
  exact Option.map_id'.symm

/-- Two texts spell the tokens of the first and then those of the second. -/
theorem Spells.append (h : Spells cs ts) (h' : Spells cs' ts') (hd : Delimited cs') :
    Spells (cs ++ cs') (ts ++ ts') := by
  intro rest hrest
  rw [List.append_assoc, h _ (hd.append hrest), h' rest hrest, Option.map_map]
  congr 1
  funext found
  exact (List.append_assoc ts ts' found).symm

/-- A character between tokens adds the tokens that it completes. -/
theorem Spells.cons (hc : readBetween c = some (.between, found)) (h : Spells cs ts) :
    Spells (c :: cs) (found ++ ts) := by
  intro rest hrest
  rw [List.cons_append, lex, readChar, hc, Option.bind_some, h rest hrest, Option.map_map]
  congr 1
  funext ts'
  exact (List.append_assoc found ts ts').symm

/-- White space adds no tokens. -/
theorem Spells.blank (hc : readBetween c = some (.between, [])) (h : Spells cs ts) :
    Spells (c :: cs) ts :=
  h.cons hc

/-- A character that is a token by itself. -/
theorem Spells.token {t : Token} (hc : readBetween c = some (.between, [t])) (h : Spells cs ts) :
    Spells (c :: cs) (t :: ts) :=
  h.cons hc

/-- A character that completes no token. -/
theorem lex_cons {mode mode' : Mode} (h : readChar mode c = some (mode', [])) (cs : List Char) :
    lex mode (c :: cs) = lex mode' cs := by
  rw [lex, h]
  exact Option.map_id'

theorem spells_null : Spells "null".toList [.null] := by
  intro rest _
  show lex .between ('n' :: 'u' :: 'l' :: 'l' :: rest) = _
  rw [lex_cons rfl, lex_cons rfl, lex_cons rfl]
  rfl

/-- The digits of a number are read as the number. -/
theorem lex_toDigits (n : Nat) (cs : List Char) :
    lex .between (Nat.toDigits 10 n ++ cs) = lex (.inNumber n) cs := by
  have hfirst : ∀ d < 10, readChar .between (Nat.digitChar d) = some (.inNumber d, []) := by decide
  have hdigit : ∀ d < 10, (Nat.digitChar d).isDigit ∧ digitValue (Nat.digitChar d) = d := by decide
  induction n using Nat.strongRecOn generalizing cs with
  | ind n ih =>
    by_cases hn : n < 10
    · rw [Nat.toDigits_of_lt_base hn, List.singleton_append, lex_cons (hfirst n hn)]
    · -- the digits before the last are those of a number that is not zero
      obtain ⟨hlast, hvalue⟩ := hdigit (n % 10) (by omega)
      have hstep : readChar (.inNumber (n / 10)) (Nat.digitChar (n % 10)) =
          some (.inNumber n, []) := by
        rw [readChar, if_pos hlast, if_neg (by omega), hvalue, Nat.div_add_mod]
      rw [Nat.toDigits_of_base_le (by omega) (by omega), List.append_assoc, ih _ (by omega),
        List.singleton_append, lex_cons hstep]

/-- The decimal digits of a number spell it. -/
theorem spells_number (n : Nat) : Spells (toString n).toList [.number n] := by
  intro rest hrest
  rw [Nat.toString_eq_repr, Nat.toList_repr, lex_toDigits]
  rcases rest with _ | ⟨c, rest⟩
  · rfl
  · -- the character after the number is read as if it came after a token
    rw [lex, lex, readChar, readChar, hrest c rfl]
    rcases readBetween c with _ | next
    · rfl
    · rw [if_neg Bool.false_ne_true, Option.map_some, Option.bind_some, Option.bind_some,
        Option.map_map]
      rfl

/-- A character in its place in a string is read as itself. -/
theorem lex_escape (read : List Char) (c : Char) (cs : List Char) :
    lex (.inText read) (escape c ++ cs) = lex (.inText (read ++ [c])) cs := by
  unfold escape
  split
  all_goals try exact (lex_cons rfl _).trans (lex_cons rfl _)
  next hquote hbackslash _ _ _ _ _ =>
    split
    · next hcontrol =>
      -- a code of four digits, the first two of them zero
      have htens : readChar (.inCode read 1 0) (Hex.lower (c.toNat / 16)) =
          some (.inCode read 0 (c.toNat / 16), []) := by
        rw [readChar, Hex.value?_lower _ (by omega), Option.bind_some, if_pos (by decide),
          Nat.mul_zero, Nat.zero_add]
      have hones : readChar (.inCode read 0 (c.toNat / 16)) (Hex.lower (c.toNat % 16)) =
          some (.inText (read ++ [c]), []) := by
        rw [readChar, Hex.value?_lower _ (by omega), Option.bind_some, if_neg (by decide),
          Nat.div_add_mod, if_pos (.inl (by omega)), Char.ofNat_toNat]
      have hzeros : ∀ cs, lex (.inText read) ('\\' :: 'u' :: '0' :: '0' :: cs) =
          lex (.inCode read 1 0) cs := fun cs ↦ by
        rw [lex_cons rfl, lex_cons rfl, lex_cons rfl, lex_cons rfl]
        rfl
      exact (hzeros _).trans ((lex_cons htens _).trans (lex_cons hones cs))
    · next hcontrol =>
      refine lex_cons ?_ cs
      rw [readChar, readInText, if_neg hquote, if_neg hbackslash, if_neg hcontrol]

/-- Characters in their places in a string are read as themselves. -/
theorem lex_flatMap_escape (read cs rest : List Char) :
    lex (.inText read) (cs.flatMap escape ++ rest) = lex (.inText (read ++ cs)) rest := by
  induction cs generalizing read with
  | nil => rw [List.flatMap_nil, List.nil_append, List.append_nil]
  | cons c cs ih =>
    rw [List.flatMap_cons, List.append_assoc, lex_escape, ih, List.append_assoc,
      List.singleton_append]

theorem spells_quote (s : String) : Spells (quote s).toList [.text s] := by
  intro rest _
  rw [quote, String.toList_ofList, List.append_assoc, List.cons_append, lex_cons rfl,
    lex_flatMap_escape, List.nil_append, List.singleton_append, lex, readChar, readInText,
    if_pos rfl, String.ofList_toList]
  rfl

/-! ### Texts -/

/-- Parts with commas between them. -/
theorem Spells.intercalate {parts : List (List Char)} {tokens : List (List Token)}
    (h : List.Forall₂ Spells parts tokens) :
    Spells ([','].intercalate parts) ([Token.comma].intercalate tokens) := by
  induction h with
  | nil => exact .nil
  | @cons part ts parts tokens hpart hparts ih =>
    rcases hparts with _ | ⟨hnext, hrest⟩
    · rwa [List.intercalate_singleton, List.intercalate_singleton]
    · rw [List.intercalate_cons_cons, List.intercalate_cons_cons, List.append_assoc,
        List.append_assoc]
      exact hpart.append (.token rfl ih) (delimited_cons rfl _)

/-- A line break and indentation add no tokens. -/
theorem Spells.lineBreak (level : Nat) (h : Spells cs ts) :
    Spells ((lineBreak level).toList ++ cs) ts := by
  have hspaces : ∀ n, Spells (List.replicate n ' ' ++ cs) ts := by
    intro n
    induction n with
    | zero => exact h
    | succ n ih => exact ih.blank rfl
  rw [Json.lineBreak, String.toList_append]
  refine Spells.blank rfl ?_
  show Spells ((String.ofList (List.replicate (2 * level) ' ')).toList ++ cs) ts
  rw [String.toList_ofList]
  exact hspaces (2 * level)

theorem delimited_lineBreak (level : Nat) (cs : List Char) :
    Delimited ((lineBreak level).toList ++ cs) := by
  rw [lineBreak, String.toList_append]
  exact delimited_cons rfl _

/-- Brackets and their tokens. -/
structure Brackets (left right : String) (opening closing : Token) : Prop where
  opens : ∀ {cs ts}, Spells cs ts → Spells (left.toList ++ cs) (opening :: ts)
  closes : Spells right.toList [closing]
  delimited : Delimited right.toList

theorem brackets_array : Brackets "[" "]" .openArray .closeArray :=
  ⟨.token rfl, .token rfl .nil, delimited_cons rfl []⟩

theorem brackets_object : Brackets "\x7b" "\x7d" .openObject .closeObject :=
  ⟨.token rfl, .token rfl .nil, delimited_cons rfl []⟩

section Bracketing

variable {left right : String} {opening closing : Token} {parts : List String}
  {tokens : List (List Token)}

/-- Parts between brackets in the compact text. -/
theorem Brackets.spells_compact (b : Brackets left right opening closing)
    (h : List.Forall₂ Spells (parts.map String.toList) tokens) :
    Spells (left ++ ",".intercalate parts ++ right).toList
      (opening :: ([Token.comma].intercalate tokens ++ [closing])) := by
  rw [String.toList_append, String.toList_append, String.toList_intercalate, List.append_assoc]
  exact b.opens ((Spells.intercalate h).append b.closes b.delimited)

/-- Parts between brackets in the pretty text. -/
theorem Brackets.spells_bracket (b : Brackets left right opening closing) (level : Nat)
    (h : List.Forall₂ Spells (parts.map String.toList) tokens) :
    Spells (bracket left right level parts).toList
      (opening :: ([Token.comma].intercalate tokens ++ [closing])) := by
  rw [bracket]
  split
  · next hempty =>
    rw [List.isEmpty_iff.1 hempty] at h
    rcases h with _ | _
    rw [String.toList_append]
    exact b.opens b.closes
  · have hlines : List.Forall₂ Spells
        ((parts.map (lineBreak (level + 1) ++ ·)).map String.toList) tokens := by
      rw [List.forall₂_map_left_iff, List.forall₂_map_left_iff]
      refine (List.forall₂_map_left_iff.1 h).imp fun part ts hpart ↦ ?_
      rw [String.toList_append]
      exact hpart.lineBreak (level + 1)
    rw [String.toList_append, String.toList_append, String.toList_append,
      String.toList_intercalate, List.append_assoc, List.append_assoc]
    exact b.opens ((Spells.intercalate hlines).append (b.closes.lineBreak level)
      (delimited_lineBreak level _))

/-- Texts of the elements of a list, one for each. -/
theorem forall₂_spells_map {α : Type} {l : List α} {write : α → String} {spelled : α → List Token}
    (h : ∀ a ∈ l, Spells (write a).toList (spelled a)) :
    List.Forall₂ Spells ((l.map write).map String.toList) (l.map spelled) := by
  rw [List.map_map, List.forall₂_map_left_iff, List.forall₂_map_right_iff, List.forall₂_same]
  exact h

end Bracketing

end Spelling

theorem compactItems_eq_map (items : List Json) : compactItems items = items.map compact := by
  induction items with
  | nil => rfl
  | cons item items ih => rw [compactItems, ih, List.map_cons]

theorem compactMembers_eq_map (members : List (String × Json)) :
    compactMembers members = members.map fun m ↦ quote m.1 ++ ":" ++ compact m.2 := by
  induction members with
  | nil => rfl
  | cons member members ih => rw [compactMembers, ih, List.map_cons]

/-- The compact text of a value spells its tokens. -/
theorem spells_compact (v : Json) : Spells v.compact.toList v.tokens := by
  induction v using parts_induction with
  | null => exact spells_null
  | number n => exact spells_number n
  | text s => exact spells_quote s
  | array items ih =>
    rw [compact, tokens, compactItems_eq_map, tokensOfItems_eq_map]
    exact brackets_array.spells_compact (forall₂_spells_map ih)
  | object members ih =>
    rw [compact, tokens, compactMembers_eq_map, tokensOfMembers_eq_map]
    refine brackets_object.spells_compact (forall₂_spells_map fun member hmember ↦ ?_)
    rw [String.toList_append, String.toList_append, List.append_assoc]
    exact (spells_quote _).append ((ih member hmember).token rfl) (delimited_cons rfl _)

theorem prettyItems_eq_map (level : Nat) (items : List Json) :
    prettyItems level items = items.map (prettyAt level) := by
  induction items with
  | nil => rfl
  | cons item items ih => rw [prettyItems, ih, List.map_cons]

theorem prettyMembers_eq_map (level : Nat) (members : List (String × Json)) :
    prettyMembers level members = members.map fun m ↦ quote m.1 ++ ": " ++ prettyAt level m.2 := by
  induction members with
  | nil => rfl
  | cons member members ih => rw [prettyMembers, ih, List.map_cons]

/-- The pretty text of a value spells its tokens. -/
theorem spells_prettyAt (v : Json) (level : Nat) : Spells (v.prettyAt level).toList v.tokens := by
  induction v using parts_induction generalizing level with
  | null => exact spells_null
  | number n => exact spells_number n
  | text s => exact spells_quote s
  | array items ih =>
    rw [prettyAt, tokens, prettyItems_eq_map, tokensOfItems_eq_map]
    refine brackets_array.spells_bracket level (forall₂_spells_map fun item hitem ↦ ?_)
    exact ih item hitem (level + 1)
  | object members ih =>
    rw [prettyAt, tokens, prettyMembers_eq_map, tokensOfMembers_eq_map]
    refine brackets_object.spells_bracket level (forall₂_spells_map fun member hmember ↦ ?_)
    rw [String.toList_append, String.toList_append, List.append_assoc]
    exact (spells_quote _).append (((ih member hmember (level + 1)).blank rfl).token rfl)
      (delimited_cons rfl _)

/-- A text that spells the tokens of a value is read as the value. -/
theorem read?_of_spells {s : String} {v : Json} (h : Spells s.toList v.tokens) :
    read? s = some v := by
  have hlex : lex .between s.toList = some v.tokens := by
    simpa [lex] using h [] delimited_nil
  have hparse := readAs_tokens v [] []
  rw [List.append_nil] at hparse
  rw [read?, hlex, Option.bind_some, hparse]
  rfl

/-- **Texts of values.** Each text of a value is read as the value. -/
theorem read?_render (pretty : Bool) (v : Json) : read? (v.render pretty) = some v := by
  rcases pretty with _ | _
  · exact read?_of_spells v.spells_compact
  · exact read?_of_spells (v.spells_prettyAt 0)

end Json

end CodeAtlas
