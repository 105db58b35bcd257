import CodeAtlas.Toml.Reader
import CodeAtlas.Proofs.Toml.Strings

/-!
# Documents of lines are read back

A line has a key, which here needs no quotes, and a value: a text, a truth value or an array of
texts.

## Values

Such a value stands on its line (`Reader.Stands`) if it begins at once and is read up to the end of
the line. An array has each of its texts on a line of its own, with a comma after it, and these are
read one after another (`items_texts`). The reader bounds how many there are by the characters that
are left, which is enough as each text has characters (`length_le_length_flatMap`).

## Keys and lines

A key without quotes is read up to the sign after it (`Bare.key`). A line with a key that is new
adds one member to the table at the top (`keyLine_of_stands`).

## Documents

A document of such lines, no two with the same key, is read one line after another (`lines_fields`),
so that its members are those that were written, in this order (`ofText?_fields`).
-/

namespace CodeAtlas

namespace Toml

namespace Reader

variable {c : Char} {cs rest : List Char} {levels limit : Nat} {v : Value}

/-! ### Readers, one after another -/

section Monad

variable {α β : Type}

theorem bind_apply (r : Reader α) (f : α → Reader β) (cs : List Char) :
    (r >>= f) cs = (r cs).bind fun found ↦ f found.1 found.2 :=
  rfl

theorem get_apply (cs : List Char) : (get : Reader (List Char)) cs = some (cs, cs) :=
  rfl

end Monad

/-! ### Values -/

/-- A value that is no array and no table is a simple one. -/
theorem value_simple (harray : cs.head? ≠ some '[') (htable : cs.head? ≠ some '\x7b')
    (levels : Nat) : value levels cs = value.simple cs := by
  cases levels with
  | zero =>
    rw [value, bind_apply, get_apply, Option.bind_some]
    dsimp only
    split
    · exact absurd rfl harray
    · exact absurd rfl htable
    · rfl
  | succ levels =>
    rw [value, bind_apply, get_apply, Option.bind_some]
    dsimp only
    split
    · exact absurd rfl harray
    · exact absurd rfl htable
    · rfl

/-- A string begins with a quote. -/
theorem exists_writeText_eq (s : String) :
    ∃ quote cs, writeText s = quote :: cs ∧ (quote = '"' ∨ quote = '\'') := by
  unfold writeText
  dsimp only
  cases Style.ofText s.toList with
  | basic | multiBasic => exact ⟨_, _, rfl, .inl rfl⟩
  | literal | multiLiteral => exact ⟨_, _, rfl, .inr rfl⟩

/-- A rest begins with none of the quotes. -/
def Unquoted (rest : List Char) : Prop :=
  rest.head? ≠ some '"' ∧ rest.head? ≠ some '\''

/-- A text is read back, before a rest that does not begin with a quote. -/
theorem value_text (s : String) (h : Unquoted rest) (levels : Nat) :
    value levels (writeText s ++ rest) = some (.text s, rest) := by
  have hstring := string_writeText s h.1 h.2
  obtain ⟨quote, cs, hcs, hquote⟩ := exists_writeText_eq s
  rw [hcs, List.cons_append] at hstring ⊢
  have hresult : (some (s.toList, rest)).map (fun found : List Char × List Char ↦
      (Value.text (String.ofList found.1), found.2)) = some (.text s, rest) := by
    rw [Option.map_some, String.ofList_toList]
  rcases hquote with rfl | rfl
  · rw [value_simple (by simp) (by simp), value.simple, hstring]
    exact hresult
  · rw [value_simple (by simp) (by simp), value.simple, hstring]
    exact hresult

/-- A truth value is read back at the end of a line. -/
theorem value_boolean (b : Bool) (levels : Nat) (rest : List Char) :
    value levels (writeBoolean b ++ '\n' :: rest) = some (.boolean b, '\n' :: rest) := by
  cases b with
  | false =>
    show value levels ('f' :: _) = _
    rw [value_simple (by simp) (by simp)]
    rfl
  | true =>
    show value levels ('t' :: _) = _
    rw [value_simple (by simp) (by simp)]
    rfl

/-! ### Arrays -/

/-- Where nothing is left out, there are at least as many characters as parts. -/
theorem length_le_length_flatMap {α : Type} {parts : List α} {text : α → List Char}
    (h : ∀ part ∈ parts, text part ≠ []) : parts.length ≤ (parts.flatMap text).length := by
  induction parts with
  | nil => exact Nat.le_refl 0
  | cons part parts ih =>
    have hpart := List.length_pos_iff.2 (h part List.mem_cons_self)
    have hparts := ih fun other hother ↦ h other (List.mem_cons_of_mem _ hother)
    rw [List.flatMap_cons, List.length_append, List.length_cons]
    omega

theorem accept_self (c : Char) (rest : List Char) : accept c (c :: rest) = some (true, rest) :=
  congrArg some (if_pos rfl)

/-- Another character is not accepted, and stays. -/
theorem accept_of_ne (h : cs.head? ≠ some c) : accept c cs = some (false, cs) := by
  cases cs with
  | nil => rfl
  | cons d cs => exact congrArg some (if_neg fun hd ↦ h (congrArg some hd.symm))

theorem expect_self (c : Char) (rest : List Char) : expect c (c :: rest) = some ((), rest) :=
  if_pos rfl

theorem gap_apply (cs : List Char) : gap cs = (afterGap false cs).map ((), ·) :=
  rfl

/-- Before a character that is seen there is nothing to leave out. -/
theorem afterGap_of_visible (hblank : isBlank c = false) (hcomment : c ≠ '#') (hfeed : c ≠ '\n')
    (hreturn : c ≠ '\r') (rest : List Char) : afterGap false (c :: rest) = some (c :: rest) := by
  rw [afterGap, if_neg Bool.false_ne_true, if_neg hcomment, if_neg (by rw [hblank]; decide)]
  · exact hfeed
  · exact fun _ hc _ ↦ hreturn hc

theorem items_close (item : Reader Value) (h : afterGap false cs = some (']' :: rest)) :
    items item (limit + 1) cs = some ([], rest) := by
  rw [items, bind_apply, gap_apply, h]
  rfl

section Items

variable {item : Reader Value} {first : List Char} (hstart : afterGap false cs = some first)
  (hopen : first.head? ≠ some ']')

include hstart hopen

/-- After a comma an array goes on. -/
theorem items_comma (hitem : item first = some (v, ',' :: rest)) :
    items item (limit + 1) cs =
      (items item limit rest).map fun found ↦ (v :: found.1, found.2) := by
  have hcomma : afterGap false (',' :: rest) = some (',' :: rest) := rfl
  simp only [items, bind_apply, gap_apply, hstart, accept_of_ne hopen, hitem, hcomma, accept_self,
    Option.map_some, Option.bind_some, Bool.false_eq_true, if_false, if_true]
  rw [Option.map_eq_bind]
  rfl

/-- After the last element an array may end without a comma. -/
theorem items_last (hitem : item first = some (v, ']' :: rest)) :
    items item (limit + 1) cs = some ([v], rest) := by
  have hclose : afterGap false (']' :: rest) = some (']' :: rest) := rfl
  have hcomma : accept ',' (']' :: rest) = some (false, ']' :: rest) := rfl
  simp only [items, bind_apply, gap_apply, hstart, accept_of_ne hopen, hitem, hclose, hcomma,
    expect_self, Option.map_some, Option.bind_some, Bool.false_eq_true, if_false]
  rfl

end Items

/-- Before a string there is nothing to leave out, and no end. -/
theorem afterGap_writeText (s : String) (rest : List Char) :
    afterGap false (writeText s ++ rest) = some (writeText s ++ rest) ∧
      (writeText s ++ rest).head? ≠ some ']' := by
  obtain ⟨quote, cs, hcs, rfl | rfl⟩ := exists_writeText_eq s
  · rw [hcs]
    exact ⟨afterGap_of_visible (by decide) (by decide) (by decide) (by decide) _, by simp⟩
  · rw [hcs]
    exact ⟨afterGap_of_visible (by decide) (by decide) (by decide) (by decide) _, by simp⟩

/-- The strings of an array, each on a line of its own, are read back. -/
theorem items_texts (texts : List String) (hlimit : texts.length < limit) (levels : Nat)
    (rest : List Char) :
    items (value levels) limit
        (texts.flatMap (fun s ↦ "\n    ".toList ++ writeText s ++ [',']) ++ '\n' :: ']' :: rest) =
      some (texts.map .text, rest) := by
  induction texts generalizing limit with
  | nil =>
    obtain ⟨limit, rfl⟩ := Nat.exists_eq_succ_of_ne_zero (Nat.ne_of_gt hlimit)
    exact items_close _ rfl
  | cons s texts ih =>
    obtain ⟨limit, rfl⟩ := Nat.exists_eq_succ_of_ne_zero (Nat.ne_of_gt (Nat.zero_lt_of_lt hlimit))
    rw [List.flatMap_cons, List.append_assoc, List.append_assoc, List.append_assoc,
      List.singleton_append]
    obtain ⟨hgap, hopen⟩ := afterGap_writeText s (',' :: (texts.flatMap (fun s ↦
      "\n    ".toList ++ writeText s ++ [',']) ++ '\n' :: ']' :: rest))
    have hindent : ∀ cs, afterGap false ("\n    ".toList ++ cs) = afterGap false cs := fun _ ↦ rfl
    rw [items_comma ((hindent _).trans hgap) hopen (value_text s ⟨by simp, by simp⟩ levels),
      ih (Nat.lt_of_succ_lt_succ hlimit)]
    rfl

/-- An opening bracket begins an array, with as many elements as there are characters at most. -/
theorem value_array (levels : Nat) (cs : List Char) :
    value (levels + 1) ('[' :: cs) =
      (items (value levels) (cs.length + 1) cs).map fun found ↦ (.array found.1, found.2) := by
  rw [value, Option.map_eq_bind]
  rfl

/-- The array of some strings is read back. -/
theorem value_texts (texts : List String) (levels : Nat) (rest : List Char) :
    value (levels + 1) (writeTexts texts ++ rest) = some (.array (texts.map .text), rest) := by
  rcases texts with - | ⟨s, - | ⟨s', texts⟩⟩
  · have hwritten : writeTexts [] ++ rest = '[' :: ']' :: rest := rfl
    rw [hwritten, value_array, items_close _ rfl]
    rfl
  · have hwritten : writeTexts [s] ++ rest = '[' :: (writeText s ++ ']' :: rest) := by
      simp [writeTexts]
    obtain ⟨hgap, hopen⟩ := afterGap_writeText s (']' :: rest)
    rw [hwritten, value_array,
      items_last hgap hopen (value_text s ⟨by simp, by simp⟩ levels)]
    rfl
  · have hwritten : writeTexts (s :: s' :: texts) ++ rest =
        '[' :: ((s :: s' :: texts).flatMap (fun s ↦ "\n    ".toList ++ writeText s ++ [',']) ++
          '\n' :: ']' :: rest) := by
      simp [writeTexts]
    have hlength : (s :: s' :: texts).length ≤
        ((s :: s' :: texts).flatMap (fun s ↦ "\n    ".toList ++ writeText s ++ [','])).length :=
      length_le_length_flatMap fun _ _ ↦ by simp
    rw [hwritten, value_array, items_texts]
    · rfl
    · rw [List.length_append]
      omega

/-! ### Keys -/

/-- A text that is a key without quotes. -/
def Bare (name : String) : Prop :=
  name.toList ≠ [] ∧ ∀ c ∈ name.toList, isKeyChar c = true

instance (name : String) : Decidable (Bare name) :=
  decidable_of_iff ((!name.toList.isEmpty && name.toList.all isKeyChar) = true) (by simp [Bare])

variable {name : String}

/-- A key without quotes begins with one of its characters. -/
theorem Bare.exists_cons (h : Bare name) (rest : List Char) :
    ∃ c cs, name.toList ++ rest = c :: cs ∧ isKeyChar c = true := by
  obtain ⟨c, cs, hcs⟩ := List.exists_cons_of_ne_nil h.1
  exact ⟨c, cs ++ rest, by rw [hcs, List.cons_append], h.2 c (hcs ▸ List.mem_cons_self)⟩

/-- A key without quotes does not begin with a character of another kind. -/
theorem Bare.ne_cons (h : Bare name) (hc : isKeyChar c = false) (rest tail : List Char) :
    name.toList ++ rest ≠ c :: tail := by
  obtain ⟨d, ds, hds, hd⟩ := h.exists_cons rest
  intro heq
  rw [hds] at heq
  rw [(List.cons.inj heq).1, hc] at hd
  cases hd

theorem isBlank_of_isKeyChar (h : isKeyChar c = true) : isBlank c = false := by
  cases hblank : isBlank c with
  | false => rfl
  | true =>
    simp only [isBlank, Bool.or_eq_true, decide_eq_true_eq] at hblank
    rcases hblank with rfl | rfl <;> cases h

theorem blanks_of_visible (h : isBlank c = false) (rest : List Char) :
    blanks (c :: rest) = some ((), c :: rest) := by
  rw [blanks, List.dropWhile_cons_of_neg (by rw [h]; decide)]

/-- Before a key without quotes there are no blanks. -/
theorem Bare.blanks (h : Bare name) (rest : List Char) :
    Reader.blanks (name.toList ++ rest) = some ((), name.toList ++ rest) := by
  obtain ⟨c, cs, hcs, hc⟩ := h.exists_cons rest
  rw [hcs]
  exact blanks_of_visible (isBlank_of_isKeyChar hc) cs

/-- A key without quotes is read up to the blank after it. -/
theorem Bare.keyPart (h : Bare name) (rest : List Char) :
    Reader.keyPart (name.toList ++ ' ' :: rest) = some (name, ' ' :: rest) := by
  have htake : (name.toList ++ ' ' :: rest).takeWhile isKeyChar = name.toList := by
    rw [List.takeWhile_append_of_pos h.2, List.takeWhile_cons_of_neg (by decide), List.append_nil]
  rw [Reader.keyPart]
  · simp [htake, h.1]
  · exact h.ne_cons (by decide) _
  · exact h.ne_cons (by decide) _

/-- A key without quotes is read up to the sign after it. -/
theorem Bare.key (h : Bare name) (rest : List Char) :
    Reader.key (name.toList ++ ' ' :: '=' :: rest) = some (([], name), '=' :: rest) := by
  have hend : Reader.blanks (' ' :: '=' :: rest) = some ((), '=' :: rest) := rfl
  have hdot : accept '.' ('=' :: rest) = some (false, '=' :: rest) := rfl
  have hparts : ∀ limit, keyParts (limit + 1) (name.toList ++ ' ' :: '=' :: rest) =
      some ([name], '=' :: rest) := by
    intro limit
    simp only [keyParts, bind_apply, h.blanks, h.keyPart, hend, hdot, Option.bind_some,
      Bool.false_eq_true, if_false]
    rfl
  rw [Reader.key, bind_apply, show depthLimit - 1 = 78 + 1 from rfl, hparts]
  rfl

/-! ### Lines -/

theorem endLine_apply (rest : List Char) : endLine ('\n' :: rest) = some ((), rest) :=
  rfl

/-- What is written is read back as a value at the end of a line, and does not begin with a
blank. -/
structure Stands (written : List Char) (v : Value) : Prop where
  visible : ∃ c cs, written = c :: cs ∧ isBlank c = false
  read : ∀ rest, value (depthLimit - 1) (written ++ '\n' :: rest) = some (v, '\n' :: rest)

/-- A text stands on its line. -/
theorem stands_text (s : String) : Stands (writeText s) (.text s) where
  visible := by
    obtain ⟨quote, cs, hcs, rfl | rfl⟩ := exists_writeText_eq s
    · exact ⟨_, cs, hcs, by decide⟩
    · exact ⟨_, cs, hcs, by decide⟩
  read rest := value_text s ⟨by simp, by simp⟩ _

/-- A truth value stands on its line. -/
theorem stands_boolean (b : Bool) : Stands (writeBoolean b) (.boolean b) where
  visible := by
    cases b with
    | false => exact ⟨'f', _, rfl, by decide⟩
    | true => exact ⟨'t', _, rfl, by decide⟩
  read rest := value_boolean b _ rest

/-- An array of texts stands on its line, though it has further lines. -/
theorem stands_texts (texts : List String) :
    Stands (writeTexts texts) (.array (texts.map .text)) where
  visible := by
    rcases texts with - | ⟨s, - | ⟨s', texts⟩⟩
    · exact ⟨'[', _, rfl, by decide⟩
    · exact ⟨'[', _, rfl, by decide⟩
    · exact ⟨'[', _, rfl, by decide⟩
  read rest := value_texts texts 78 ('\n' :: rest)

theorem writeLine_append (name : String) (written rest : List Char) :
    writeLine name written ++ rest =
      name.toList ++ ' ' :: '=' :: ' ' :: (written ++ '\n' :: rest) := by
  have hsign : " = ".toList = [' ', '=', ' '] := rfl
  simp only [writeLine, hsign, List.append_assoc, List.cons_append, List.nil_append]

variable {written : List Char} {members : Members}

/-- A key that is new is added to the table at the top. -/
theorem change_addDotted (hnew : members.find? name = none) :
    Document.change ⟨.header, members, []⟩
        (Value.changeAt false (Value.addDotted [] name v) []) [] =
      some ⟨.header, members.put name v, []⟩ := by
  simp [Document.change, Value.changeAt, Value.addDotted, Value.addKey, hnew]

/-- A line with a new key adds its value under the key. -/
theorem keyLine_of_stands (hname : Bare name) (hwritten : Stands written v)
    (hnew : members.find? name = none) (rest : List Char) :
    keyLine ⟨.header, members, []⟩ (writeLine name written ++ rest) =
      some (⟨.header, members.put name v, []⟩, rest) := by
  have hblank : blanks (' ' :: (written ++ '\n' :: rest)) = some ((), written ++ '\n' :: rest) := by
    obtain ⟨c, cs, rfl, hvisible⟩ := hwritten.visible
    exact blanks_of_visible hvisible _
  rw [writeLine_append]
  simp only [keyLine, bind_apply, hname.key, expect_self, hblank, hwritten.read, endLine_apply,
    Option.bind_some, change_addDotted hnew]
  rfl

/-- A line that begins with a key is read as one. -/
theorem lines_of_bare (h : Bare name) (d : Document) (rest : List Char) :
    lines (limit + 1) d (name.toList ++ rest) =
      (keyLine d (name.toList ++ rest)).bind fun found ↦ lines limit found.1 found.2 := by
  obtain ⟨first, tail, hcons, -⟩ := h.exists_cons rest
  have hother : ∀ c, isKeyChar c = false → ∀ tail, name.toList ++ rest ≠ c :: tail :=
    fun c hc ↦ h.ne_cons hc rest
  rw [lines, bind_apply, h.blanks, Option.bind_some, bind_apply, get_apply, Option.bind_some]
  dsimp only
  generalize name.toList ++ rest = text at hcons hother
  split
  · cases hcons
  · exact absurd rfl (hother '\n' (by decide) _)
  · exact absurd rfl (hother '\r' (by decide) _)
  · exact absurd rfl (hother '#' (by decide) _)
  · exact absurd rfl (hother '[' (by decide) _)
  · rfl

end Reader

/-! ### Documents -/

/-- A line of a document: a key, its value as it is written, and the value. -/
structure Field where
  name : String
  written : List Char
  value : Value

namespace Field

/-- The text of a line. -/
def line (f : Field) : List Char :=
  writeLine f.name f.written

/-- The member that a line gives. -/
def member (f : Field) : String × Value :=
  (f.name, f.value)

/-- The key needs no quotes, and the value is read back. -/
structure Readable (f : Field) : Prop where
  name : Reader.Bare f.name
  value : Reader.Stands f.written f.value

end Field

namespace Members

variable {members : Members} {name : String} {v : Value}

/-- A name is not found exactly if no member has it. -/
theorem find?_eq_none_iff : members.find? name = none ↔ name ∉ members.map Prod.fst := by
  rw [find?, Option.map_eq_none_iff, List.find?_eq_none]
  simp only [beq_iff_eq, List.mem_map, not_exists, not_and]

@[simp] theorem find?_append (members members' : Members) (name : String) :
    find? (members ++ members') name = (members.find? name).or (members'.find? name) := by
  rw [find?, List.find?_append, Option.map_or]
  rfl

/-- A member with a new name is put at the end. -/
theorem put_of_new (h : name ∉ members.map Prod.fst) :
    members.put name v = members ++ [(name, v)] := by
  rw [put, if_neg]
  simpa using h

end Members

/-- The lines of some fields are read one by one. -/
theorem lines_fields {fields : List Field} (hfields : ∀ f ∈ fields, f.Readable) {members : Members}
    (hkeys : (members.map Prod.fst ++ fields.map Field.name).Nodup) {limit : Nat}
    (hlimit : fields.length < limit) :
    Reader.lines limit ⟨.header, members, []⟩ (fields.flatMap Field.line) =
      some (⟨.header, members ++ fields.map Field.member, []⟩, []) := by
  induction fields generalizing members limit with
  | nil =>
    obtain ⟨limit, rfl⟩ := Nat.exists_eq_succ_of_ne_zero (Nat.ne_of_gt hlimit)
    rw [List.map_nil, List.append_nil]
    rfl
  | cons f fields ih =>
    obtain ⟨limit, rfl⟩ := Nat.exists_eq_succ_of_ne_zero (Nat.ne_of_gt (Nat.zero_lt_of_lt hlimit))
    obtain ⟨hname, hvalue⟩ := hfields f List.mem_cons_self
    have hnew : f.name ∉ members.map Prod.fst := fun hmem ↦
      (List.nodup_append.1 hkeys).2.2 _ hmem _ List.mem_cons_self rfl
    have hline : ∀ d rest, Reader.lines (limit + 1) d (f.line ++ rest) =
        (Reader.keyLine d (f.line ++ rest)).bind fun found ↦
          Reader.lines limit found.1 found.2 := by
      intro d rest
      rw [Field.line, Reader.writeLine_append]
      exact Reader.lines_of_bare hname d _
    rw [List.flatMap_cons, hline, Field.line,
      Reader.keyLine_of_stands hname hvalue (Members.find?_eq_none_iff.2 hnew), Option.bind_some,
      Members.put_of_new hnew, ih]
    · rw [List.append_assoc]
      rfl
    · exact fun g hg ↦ hfields g (List.mem_cons_of_mem _ hg)
    · rw [List.map_append, List.append_assoc]
      exact hkeys
    · exact Nat.lt_of_succ_lt_succ hlimit

/-- **Documents.** A document of lines with different keys gives the members back. -/
theorem ofText?_fields {fields : List Field} (hfields : ∀ f ∈ fields, f.Readable)
    (hkeys : (fields.map Field.name).Nodup) :
    Members.ofText? (String.ofList (fields.flatMap Field.line)) =
      some (fields.map Field.member) := by
  have hmark : (fields.flatMap Field.line).head? ≠ some '\ufeff' := by
    rcases fields with - | ⟨f, fields⟩
    · simp
    · intro hhead
      obtain ⟨tail, htail⟩ := List.head?_eq_some_iff.1 hhead
      rw [List.flatMap_cons, Field.line, Reader.writeLine_append] at htail
      exact (hfields f List.mem_cons_self).name.ne_cons (by decide) _ _ htail
  have hlength : fields.length ≤ (fields.flatMap Field.line).length :=
    Reader.length_le_length_flatMap fun f _ ↦ by simp [Field.line, writeLine]
  have hlines := @lines_fields fields hfields [] hkeys _ (Nat.lt_succ_of_le hlength)
  simp only [Members.ofText?, String.toList_ofList, if_neg hmark]
  rw [StateT.run, hlines]
  rfl

end Toml

end CodeAtlas
