import Mathlib.Tactic.IntervalCases
import CodeAtlas.Toml.Text
import CodeAtlas.Toml.Writer

/-!
# Strings of a TOML document are read back

A string is written in one of four ways, and read back from each of them before any rest that does
not begin with a quote (`string_writeText`).

## Double quotes

In double quotes a string is read back character by character: what a character is written as gives
it back, with or without an escape (`basic_character`, `multiBasic_character`). There is an escape
of one letter for some characters, a code of four digits for others that may not stand for
themselves, and the character itself for all the rest (`escaped?_cases`).

## Single quotes

In single quotes there are no escapes, so the way is only taken for strings without the characters
that would need one (`Style.of_literal`, `Style.of_multiLiteral`).

## Several lines

On several lines quotes may stand for themselves, at most two of them together. So while a string is
written it is counted how many quotes stand together (`escape_quote`, `escape_quote_of_le`). Those
at the end of a string stand before the closing ones, and are read together with them
(`multiBasic_close`). A line break right after the opening quotes is dropped, and one is written
there exactly if the string has line breaks (`dropLineBreak_append`).
-/

namespace CodeAtlas

namespace Toml

variable {c letter : Char} {cs rest : List Char} {run : Nat}

/-! ### Characters -/

/-- A code in four digits is read back. -/
theorem codePoint?_upper (h : c.toNat < 256) :
    codePoint? ['0', '0', Hex.upper (c.toNat / 16), Hex.upper (c.toNat % 16)] = some c := by
  have hzero : Hex.value? '0' = some 0 := by decide
  have hhigh := Hex.value?_upper _ (show c.toNat / 16 < 16 by omega)
  have hlow := Hex.value?_upper _ (show c.toNat % 16 < 16 by omega)
  have hvalue : [0, 0, c.toNat / 16, c.toNat % 16].foldl (fun n d ↦ 16 * n + d) 0 = c.toNat := by
    simp only [List.foldl_cons, List.foldl_nil]
    omega
  have hvalid : c.toNat.isValidChar := c.valid
  simp only [codePoint?, List.mapM_cons, List.mapM_nil, hzero, hhigh, hlow, Option.bind_eq_bind,
    Option.bind_some, Option.pure_def]
  rw [if_pos (hvalue.symm ▸ hvalid), hvalue, Char.ofNat_toNat]

/-- A character that is no control character stands for itself, or is a line feed. -/
theorem isPlain_of_not_isControl (h : isControl c = false) : c = '\n' ∨ isPlain c = true := by
  simp only [isControl, isPlain, Bool.or_eq_false_iff, Bool.and_eq_false_iff,
    decide_eq_false_iff_not, decide_eq_true_eq, Bool.or_eq_true, Bool.and_eq_true] at h ⊢
  by_cases htab : c = '\t'
  · exact .inr (.inl htab)
  by_cases hline : c = '\n'
  · exact .inl hline
  · refine .inr (.inr ⟨?_, h.2⟩)
    rcases h.1 with (h | h) | h
    · omega
    · exact absurd htab h
    · exact absurd hline h

theorem ne_return_of_isPlain (h : c = '\n' ∨ isPlain c = true) : c ≠ '\r' := by
  rintro rfl
  exact h.elim (by decide) (by decide)

/-- What a character other than a quote is written as in double quotes: an escape of one letter, a
code, or the character itself. -/
theorem escaped?_cases (isMulti : Bool) (c : Char) :
    (∃ letter, escaped? isMulti c = some ['\\', letter] ∧ escape? letter = some c) ∨
      (escaped? isMulti c = some
          ['\\', 'u', '0', '0', Hex.upper (c.toNat / 16), Hex.upper (c.toNat % 16)] ∧
        c.toNat < 256) ∨
      escaped? isMulti c = none ∧ c ≠ '\\' ∧ (isPlain c = true ∨ isMulti = true ∧ c = '\n') := by
  unfold escaped?
  split
  · exact .inl ⟨'b', rfl, rfl⟩
  · exact .inl ⟨'t', rfl, rfl⟩
  · cases isMulti with
    | false => exact .inl ⟨'n', rfl, rfl⟩
    | true => exact .inr (.inr ⟨rfl, by decide, .inr ⟨rfl, rfl⟩⟩)
  · exact .inl ⟨'f', rfl, rfl⟩
  · exact .inl ⟨'r', rfl, rfl⟩
  · exact .inl ⟨'\\', rfl, rfl⟩
  · next hbackslash =>
    split
    · next hcontrol =>
      simp only [Bool.or_eq_true, decide_eq_true_eq] at hcontrol
      exact .inr (.inl ⟨rfl, by omega⟩)
    · next hcontrol =>
      simp only [Bool.or_eq_true, decide_eq_true_eq, not_or, Nat.not_lt] at hcontrol
      refine .inr (.inr ⟨rfl, hbackslash, .inl ?_⟩)
      simp [isPlain, hcontrol.1, hcontrol.2]

/-! ### In double quotes, on one line -/

theorem basic_letter (h : escape? letter = some c) (rest : List Char) :
    basic ('\\' :: letter :: rest) = before c (basic rest) := by
  unfold escape? at h
  split at h <;> cases h <;> rfl

/-- A character that may stand for itself is read as itself. -/
theorem basic_plain (hplain : isPlain c = true) (hquote : c ≠ '"') (hbackslash : c ≠ '\\')
    (rest : List Char) : basic (c :: rest) = before c (basic rest) := by
  simp [basic, hplain, hbackslash]

/-- A character is read back from what it is written as. -/
theorem basic_character (h : c ≠ '"') (rest : List Char) :
    basic ((escaped? false c).getD [c] ++ rest) = before c (basic rest) := by
  rcases escaped?_cases false c with ⟨letter, hwritten, hletter⟩ | ⟨hwritten, hlt⟩ |
    ⟨hwritten, hbackslash, hplain⟩
  · rw [hwritten]
    exact basic_letter hletter rest
  · rw [hwritten]
    show basic ('\\' :: 'u' :: '0' :: '0' :: _ :: _ :: rest) = _
    rw [basic, codePoint?_upper hlt]
    rfl
  · rw [hwritten]
    exact basic_plain (hplain.resolve_right fun h ↦ Bool.false_ne_true h.1) h hbackslash rest

/-- A string in double quotes on one line is read back. -/
theorem basic_escape (cs rest : List Char) :
    basic (escape false 0 cs ++ '"' :: rest) = some (cs, rest) := by
  induction cs with
  | nil => rfl
  | cons c cs ih =>
    by_cases hc : c = '"'
    · subst hc
      show basic ('\\' :: '"' :: (escape false 0 cs ++ '"' :: rest)) = _
      rw [basic_letter rfl, ih]
      rfl
    · rw [escape, List.append_assoc, basic_character hc, ih]
      · rfl
      · exact hc

/-! ### In single quotes, on one line -/

/-- A string in single quotes on one line is read back. -/
theorem literal_append (hplain : ∀ c ∈ cs, isPlain c = true) (hquote : '\'' ∉ cs)
    (rest : List Char) : literal (cs ++ '\'' :: rest) = some (cs, rest) := by
  induction cs with
  | nil => rfl
  | cons c cs ih =>
    have hc : c ≠ '\'' := (List.ne_of_not_mem_cons hquote).symm
    rw [List.cons_append, literal, if_pos (hplain c List.mem_cons_self),
      ih (fun c hc ↦ hplain c (List.mem_cons_of_mem _ hc)) (List.not_mem_of_not_mem_cons hquote)]
    · rfl
    · exact hc

/-! ### In double quotes, on several lines -/

theorem multiBasic_letter (h : escape? letter = some c) (rest : List Char) :
    multiBasic false ('\\' :: letter :: rest) = before c (multiBasic false rest) := by
  unfold escape? at h
  split at h <;> cases h <;> rfl

/-- On several lines, a character that may stand for itself is read as itself. -/
theorem multiBasic_plain (hplain : c = '\n' ∨ isPlain c = true) (hquote : c ≠ '"')
    (hbackslash : c ≠ '\\') (rest : List Char) :
    multiBasic false (c :: rest) = before c (multiBasic false rest) := by
  have hreturn := ne_return_of_isPlain hplain
  simp [multiBasic, hplain, hquote, hbackslash, hreturn]

/-- On several lines, a character is read back from what it is written as. -/
theorem multiBasic_character (h : c ≠ '"') (rest : List Char) :
    multiBasic false ((escaped? true c).getD [c] ++ rest) = before c (multiBasic false rest) := by
  rcases escaped?_cases true c with ⟨letter, hwritten, hletter⟩ | ⟨hwritten, hlt⟩ |
    ⟨hwritten, hbackslash, hplain⟩
  · rw [hwritten]
    exact multiBasic_letter hletter rest
  · rw [hwritten]
    show multiBasic false ('\\' :: 'u' :: '0' :: '0' :: _ :: _ :: rest) = _
    rw [multiBasic, codePoint?_upper hlt]
    rfl
  · rw [hwritten]
    exact multiBasic_plain (hplain.symm.imp_left And.right) h hbackslash rest

/-- A quote stands for itself unless two more follow. -/
theorem multiBasic_quote (h : ¬ ['"', '"'] <+: rest) :
    multiBasic false ('"' :: rest) = before '"' (multiBasic false rest) := by
  have hrest : ∀ tail, rest ≠ '"' :: '"' :: tail := by
    rintro tail rfl
    exact h ⟨tail, rfl⟩
  have hplain : isPlain '"' = true := by decide
  simp [multiBasic, hplain, hrest]

/-- What is left of a string begins with a quote only if a quote may stand there. -/
theorem head?_escape_ne {isMulti : Bool} (h : c = '"' → (if isMulti then 2 else 0) ≤ run)
    (cs rest : List Char) : (escape isMulti run (c :: cs) ++ rest).head? ≠ some '"' := by
  have hbackslash : some '\\' ≠ some '"' := by decide
  by_cases hc : c = '"'
  · subst hc
    rw [escape, if_neg (Nat.not_lt.2 (h rfl))]
    exact hbackslash
  · rw [escape]
    · rcases escaped?_cases isMulti c with ⟨letter, hwritten, -⟩ | ⟨hwritten, -⟩ | ⟨hwritten, -⟩
      · rw [hwritten]
        exact hbackslash
      · rw [hwritten]
        exact hbackslash
      · rw [hwritten]
        exact fun h ↦ hc (Option.some.inj h)
    · exact hc

theorem not_prefix_of_head?_ne {quote : Char} (h : rest.head? ≠ some quote) (others : List Char) :
    ¬ quote :: others <+: rest := by
  rintro ⟨tail, rfl⟩
  exact h rfl

/-- Quotes before the closing ones belong to the string. -/
theorem multiBasic_close (hrest : rest.head? ≠ some '"') (extra : Nat) (h : extra ≤ 2) :
    multiBasic false (List.replicate (extra + 3) '"' ++ rest) =
      some (List.replicate extra '"', rest) := by
  interval_cases extra
  · cases rest with
    | nil => rfl
    | cons c rest =>
      have hc : c ≠ '"' := fun h ↦ hrest (congrArg some h)
      show multiBasic false ('"' :: '"' :: '"' :: c :: rest) = _
      rw [multiBasic]
      · rfl
      · rintro _ heq
        cases heq
        exact hc rfl
      · rintro _ heq
        cases heq
        exact hc rfl
  · cases rest with
    | nil => rfl
    | cons c rest =>
      have hc : c ≠ '"' := fun h ↦ hrest (congrArg some h)
      show multiBasic false ('"' :: '"' :: '"' :: '"' :: c :: rest) = _
      rw [multiBasic]
      · rfl
      · rintro _ heq
        cases heq
        exact hc rfl
  · rfl

/-- A quote after fewer than two others stands for itself. -/
theorem escape_quote (h : run < 2) (cs : List Char) :
    escape true run ('"' :: cs) = '"' :: escape true (run + 1) cs := by
  rw [escape]
  exact if_pos h

/-- A quote after two others is escaped. -/
theorem escape_quote_of_le (h : 2 ≤ run) (cs : List Char) :
    escape true run ('"' :: cs) = '\\' :: '"' :: escape true 0 cs := by
  rw [escape]
  exact if_neg (Nat.not_lt.2 h)

/-- Two quotes do not follow another one, unless they are at the end. -/
theorem not_prefix_escape (h : ¬ (c = '"' ∧ run = 0 ∧ cs = [])) (rest : List Char) :
    ¬ ['"', '"'] <+: escape true (run + 1) (c :: cs) ++ rest := by
  by_cases hquote : c = '"' ∧ run = 0
  · obtain ⟨rfl, rfl⟩ := hquote
    rcases cs with - | ⟨d, ds⟩
    · exact absurd ⟨rfl, rfl, rfl⟩ h
    · rw [escape_quote (by decide), List.cons_append, List.prefix_cons_inj]
      exact not_prefix_of_head?_ne (head?_escape_ne (fun _ ↦ Nat.le_refl 2) ds rest) []
  · refine not_prefix_of_head?_ne (head?_escape_ne (fun hc ↦ ?_) cs rest) ['"']
    have hrun : run ≠ 0 := fun hrun ↦ hquote ⟨hc, hrun⟩
    show 2 ≤ run + 1
    omega

/-- A string is read back, whatever number of quotes stands before what is left of it. -/
theorem multiBasic_escape (hrest : rest.head? ≠ some '"') (run : Nat) (cs : List Char) :
    multiBasic false (escape true run cs ++ '"' :: '"' :: '"' :: rest) = some (cs, rest) := by
  induction cs generalizing run with
  | nil => exact multiBasic_close hrest 0 (Nat.zero_le 2)
  | cons c cs ih =>
    by_cases hc : c = '"'
    · subst hc
      by_cases hrun : run < 2
      · -- the quote is one of the last if nothing or one more quote is left
        rw [escape_quote hrun]
        rcases cs with - | ⟨d, ds⟩
        · exact multiBasic_close hrest 1 (by decide)
        · by_cases hlast : d = '"' ∧ run = 0 ∧ ds = []
          · obtain ⟨rfl, rfl, rfl⟩ := hlast
            exact multiBasic_close hrest 2 (Nat.le_refl 2)
          · rw [List.cons_append, multiBasic_quote (not_prefix_escape hlast _), ih]
            rfl
      · rw [escape_quote_of_le (Nat.not_lt.1 hrun)]
        show multiBasic false ('\\' :: '"' :: (escape true 0 cs ++ '"' :: '"' :: '"' :: rest)) = _
        rw [multiBasic_letter rfl, ih]
        rfl
    · rw [escape, List.append_assoc, multiBasic_character hc, ih]
      · rfl
      · exact hc

/-! ### In single quotes, on several lines -/

/-- In single quotes on several lines, quotes before the closing ones belong to the string. -/
theorem multiLiteral_close (hrest : rest.head? ≠ some '\'') (extra : Nat) (h : extra ≤ 2) :
    multiLiteral (List.replicate (extra + 3) '\'' ++ rest) =
      some (List.replicate extra '\'', rest) := by
  interval_cases extra
  · cases rest with
    | nil => rfl
    | cons c rest =>
      have hc : c ≠ '\'' := fun h ↦ hrest (congrArg some h)
      show multiLiteral ('\'' :: '\'' :: '\'' :: c :: rest) = _
      rw [multiLiteral]
      · rfl
      · rintro _ heq
        cases heq
        exact hc rfl
      · rintro _ heq
        cases heq
        exact hc rfl
  · cases rest with
    | nil => rfl
    | cons c rest =>
      have hc : c ≠ '\'' := fun h ↦ hrest (congrArg some h)
      show multiLiteral ('\'' :: '\'' :: '\'' :: '\'' :: c :: rest) = _
      rw [multiLiteral]
      · rfl
      · rintro _ heq
        cases heq
        exact hc rfl
  · rfl

/-- A character stands for itself, a quote unless two more follow. -/
theorem multiLiteral_cons (hplain : c = '\n' ∨ isPlain c = true)
    (hquote : c = '\'' → ¬ ['\'', '\''] <+: rest) :
    multiLiteral (c :: rest) = before c (multiLiteral rest) := by
  have hrest : ∀ tail, c = '\'' → rest ≠ '\'' :: '\'' :: tail := by
    rintro tail hc rfl
    exact hquote hc ⟨tail, rfl⟩
  rw [multiLiteral]
  · simp [hplain]
  · exact fun _ hc ↦ hrest _ hc
  · exact fun _ hc ↦ hrest _ hc
  · exact fun _ hc ↦ hrest _ hc
  · exact fun _ hc _ ↦ ne_return_of_isPlain hplain hc

/-- A string in single quotes on several lines is read back. -/
theorem multiLiteral_append (hrest : rest.head? ≠ some '\'')
    (hplain : ∀ c ∈ cs, c = '\n' ∨ isPlain c = true) (hquotes : ¬ ['\'', '\'', '\''] <:+: cs) :
    multiLiteral (cs ++ '\'' :: '\'' :: '\'' :: rest) = some (cs, rest) := by
  induction cs with
  | nil => exact multiLiteral_close hrest 0 (Nat.zero_le 2)
  | cons c cs ih =>
    have hcs := ih (fun c hc ↦ hplain c (List.mem_cons_of_mem _ hc))
      fun h ↦ hquotes (h.trans (List.suffix_cons c cs).isInfix)
    by_cases hlast : c = '\'' ∧ (cs = [] ∨ cs = ['\''])
    · obtain ⟨rfl, rfl | rfl⟩ := hlast
      · exact multiLiteral_close hrest 1 (by decide)
      · exact multiLiteral_close hrest 2 (Nat.le_refl 2)
    · rw [List.cons_append, multiLiteral_cons (hplain c List.mem_cons_self), hcs]
      · rfl
      · -- two quotes that follow a quote are not both in the string
        rintro rfl hnext
        rcases cs with - | ⟨d, - | ⟨e, es⟩⟩
        · exact hlast ⟨rfl, .inl rfl⟩
        · obtain ⟨rfl, -⟩ := List.cons_prefix_cons.1 hnext
          exact hlast ⟨rfl, .inr rfl⟩
        · have hsecond := List.cons_prefix_cons.1 hnext
          obtain ⟨rfl, -⟩ := List.cons_prefix_cons.1 hsecond.2
          obtain rfl := hsecond.1
          exact hquotes (List.prefix_append ['\'', '\'', '\''] es).isInfix

/-! ### Runs of quotes -/

/-- Counts a character: the longest run so far, and the one that goes on. -/
def countRun (c : Char) (counts : Nat × Nat) (d : Char) : Nat × Nat :=
  let current := if d = c then counts.2 + 1 else 0
  (max counts.1 current, current)

theorem longestRun_eq (c : Char) (cs : List Char) :
    longestRun c cs = (cs.foldl (countRun c) (0, 0)).1 :=
  rfl

/-- Counting on does not forget the longest run. -/
theorem le_foldl_countRun (counts : Nat × Nat) (cs : List Char) :
    counts.1 ≤ (cs.foldl (countRun c) counts).1 := by
  induction cs generalizing counts with
  | nil => exact Nat.le_refl _
  | cons d cs ih => exact Nat.le_trans (Nat.le_max_left _ _) (ih (countRun c counts d))

/-- A run makes the longest one at least as long. -/
theorem le_foldl_countRun_replicate (counts : Nat × Nat) (n : Nat) :
    counts.2 + n + 1 ≤ ((List.replicate (n + 1) c).foldl (countRun c) counts).1 := by
  induction n generalizing counts with
  | zero =>
    show counts.2 + 1 ≤ max counts.1 (if c = c then counts.2 + 1 else 0)
    rw [if_pos rfl]
    exact Nat.le_max_right _ _
  | succ n ih =>
    have hcurrent : (countRun c counts c).2 = counts.2 + 1 := if_pos rfl
    have hcount := ih (countRun c counts c)
    rw [List.replicate_succ, List.foldl_cons]
    omega

/-- No run in a text is longer than the longest. -/
theorem le_longestRun {n : Nat} (h : List.replicate n c <:+: cs) : n ≤ longestRun c cs := by
  cases n with
  | zero => exact Nat.zero_le _
  | succ n =>
    obtain ⟨before, after, rfl⟩ := h
    have hrun := le_foldl_countRun_replicate (c := c) (before.foldl (countRun c) (0, 0)) n
    have hafter := le_foldl_countRun (c := c)
      ((List.replicate (n + 1) c).foldl (countRun c) (before.foldl (countRun c) (0, 0))) after
    rw [longestRun_eq, List.foldl_append, List.foldl_append]
    omega

/-- A character without a run does not occur. -/
theorem not_mem_of_longestRun (h : longestRun c cs = 0) : c ∉ cs := by
  intro hc
  obtain ⟨before, after, rfl⟩ := List.append_of_mem hc
  have hle : 1 ≤ longestRun c (before ++ c :: after) := le_longestRun ⟨before, after, by simp⟩
  omega

/-! ### The four ways -/

theorem isPlain_of_any_isControl (h : cs.any isControl = false) (hc : c ∈ cs) :
    c = '\n' ∨ isPlain c = true :=
  isPlain_of_not_isControl (Bool.eq_false_iff.2 (List.any_eq_false.1 h c hc))

namespace Style

/-- A string is only written in single quotes on one line if it has no character that would need an
escape there. -/
theorem of_literal (h : ofText cs = literal) : (∀ c ∈ cs, isPlain c = true) ∧ '\'' ∉ cs := by
  unfold ofText at h
  dsimp only at h
  split_ifs at h with hbasic hliteral
  simp only [Bool.and_eq_true, Bool.not_eq_true', decide_eq_true_eq] at hliteral
  obtain ⟨⟨hcontrols, hsingle⟩, hline⟩ := hliteral
  refine ⟨fun c hc ↦ ?_, not_mem_of_longestRun hsingle⟩
  refine (isPlain_of_any_isControl hcontrols hc).resolve_left ?_
  rintro rfl
  rw [List.contains_iff_mem.2 hc] at hline
  cases hline

/-- A string is only written in single quotes on several lines if it has no character that would
need an escape there, and no three quotes together. -/
theorem of_multiLiteral (h : ofText cs = multiLiteral) :
    (∀ c ∈ cs, c = '\n' ∨ isPlain c = true) ∧ ¬ ['\'', '\'', '\''] <:+: cs := by
  unfold ofText at h
  dsimp only at h
  split_ifs at h with hbasic hliteral hmultiBasic hmultiLiteral
  simp only [Bool.and_eq_true, Bool.not_eq_true', decide_eq_true_eq] at hmultiLiteral
  obtain ⟨hcontrols, hsingle⟩ := hmultiLiteral
  refine ⟨fun c hc ↦ isPlain_of_any_isControl hcontrols hc, fun hrun ↦ ?_⟩
  have hle : 3 ≤ longestRun '\'' cs := le_longestRun hrun
  omega

end Style

/-- A double quote that two more do not follow opens a string on one line. -/
theorem string_of_double (h : ¬ ['"', '"'] <+: cs) : string ('"' :: cs) = basic cs := by
  rw [string]
  rintro tail rfl
  exact h ⟨tail, rfl⟩

/-- A single quote that two more do not follow opens a string on one line. -/
theorem string_of_single (h : ¬ ['\'', '\''] <+: cs) : string ('\'' :: cs) = literal cs := by
  rw [string]
  rintro tail rfl
  exact h ⟨tail, rfl⟩

/-- The line break that a string with line breaks starts with is dropped, and no other. -/
theorem dropLineBreak_append
    (h : '\n' ∉ cs → rest.head? ≠ some '\n' ∧ rest.head? ≠ some '\r') :
    dropLineBreak ((if cs.contains '\n' then ['\n'] else []) ++ rest) = rest := by
  split
  · rfl
  · next hline =>
    obtain ⟨hfeed, hreturn⟩ := h (mt List.contains_iff_mem.2 hline)
    cases rest with
    | nil => rfl
    | cons c rest =>
      have hfeed : c ≠ '\n' := fun h ↦ hfeed (congrArg some h)
      have hreturn : c ≠ '\r' := fun h ↦ hreturn (congrArg some h)
      simp [dropLineBreak, hfeed, hreturn]

/-- No line break is written but those of the string. -/
theorem head?_escape_of_not_mem (h : '\n' ∉ cs) :
    (escape true 0 cs ++ '"' :: rest).head? ≠ some '\n' ∧
      (escape true 0 cs ++ '"' :: rest).head? ≠ some '\r' := by
  have hquote : some '"' ≠ some '\n' ∧ some '"' ≠ some '\r' := by decide
  have hbackslash : some '\\' ≠ some '\n' ∧ some '\\' ≠ some '\r' := by decide
  rcases cs with - | ⟨c, cs⟩
  · exact hquote
  · by_cases hc : c = '"'
    · subst hc
      rw [escape_quote (by decide)]
      exact hquote
    · have hline : c ≠ '\n' := (List.ne_of_not_mem_cons h).symm
      rw [escape]
      · rcases escaped?_cases true c with ⟨letter, hwritten, -⟩ | ⟨hwritten, -⟩ |
          ⟨hwritten, -, hplain⟩
        · rw [hwritten]
          exact hbackslash
        · rw [hwritten]
          exact hbackslash
        · rw [hwritten]
          have hreturn := ne_return_of_isPlain (hplain.symm.imp_left And.right)
          exact ⟨fun h ↦ hline (Option.some.inj h), fun h ↦ hreturn (Option.some.inj h)⟩
      · exact hc

/-- **Strings.** A string is read back from the way it is written. -/
theorem string_writeText (s : String) (hdouble : rest.head? ≠ some '"')
    (hsingle : rest.head? ≠ some '\'') : string (writeText s ++ rest) = some (s.toList, rest) := by
  unfold writeText
  generalize s.toList = cs
  dsimp only
  cases hstyle : Style.ofText cs with
  | basic =>
    simp only [Style.quotes, List.append_assoc, List.cons_append, List.nil_append]
    rw [string_of_double, basic_escape]
    rcases cs with - | ⟨c, cs⟩
    · show ¬ '"' :: ['"'] <+: '"' :: rest
      rw [List.prefix_cons_inj]
      exact not_prefix_of_head?_ne hdouble []
    · exact not_prefix_of_head?_ne (head?_escape_ne (fun _ ↦ Nat.le_refl 0) cs _) _
  | literal =>
    obtain ⟨hplain, hquote⟩ := Style.of_literal hstyle
    simp only [Style.quotes, List.append_assoc, List.cons_append, List.nil_append]
    rw [string_of_single, literal_append hplain hquote]
    rcases cs with - | ⟨c, cs⟩
    · show ¬ '\'' :: ['\''] <+: '\'' :: rest
      rw [List.prefix_cons_inj]
      exact not_prefix_of_head?_ne hsingle []
    · refine not_prefix_of_head?_ne (fun h ↦ ?_) _
      exact List.ne_of_not_mem_cons hquote (Option.some.inj h).symm
  | multiBasic =>
    simp only [Style.quotes, List.append_assoc, List.cons_append, List.nil_append]
    rw [string, dropLineBreak_append head?_escape_of_not_mem, multiBasic_escape hdouble]
  | multiLiteral =>
    obtain ⟨hplain, hquotes⟩ := Style.of_multiLiteral hstyle
    simp only [Style.quotes, List.append_assoc, List.cons_append, List.nil_append]
    rw [string, dropLineBreak_append, multiLiteral_append hsingle hplain hquotes]
    intro hline
    rcases cs with - | ⟨c, cs⟩
    · show some '\'' ≠ some '\n' ∧ some '\'' ≠ some '\r'
      decide
    · have hreturn := ne_return_of_isPlain (hplain c List.mem_cons_self)
      exact ⟨fun h ↦ List.ne_of_not_mem_cons hline (Option.some.inj h).symm,
        fun h ↦ hreturn (Option.some.inj h)⟩

end Toml

end CodeAtlas
