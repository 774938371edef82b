import GettextFill.Message.Token
import GettextFill.Proofs.Catalog.Field
import GettextFill.Proofs.Text.Lines

/-!
# Tokens of written fields

The tools that use catalogs cut the characters into tokens by rules of their own. What is written as
a field is a key and a string for them: the keyword, and the text as it was before it was escaped.
No character of a text can end its string or the line, so one field after the other is read so, and
the lexer is between two tokens again after each (`Lexer.run_line`).

`Lexer.run_written` is this for lines with terminators, as they stand in a catalog. Separators, which
the reader of lines takes for the end of a line, are characters of a string like all others here.
-/

namespace GettextFill

namespace Keyword

/-- A keyword is a run of characters that a key may have. -/
theorem all_isKeyChar_text {k : Keyword} (hk : k.IsProper) :
    k.text.all Lexer.isKeyChar = true := by
  cases k with
  | targetForm digits =>
      have hname : ("msgstr" : Text).all Lexer.isKeyChar = true := by decide
      have hdigits : digits.all Lexer.isKeyChar = true := by
        rw [List.all_eq_true]
        intro c hc
        have hdigit : Text.isDigit c = true := List.all_eq_true.mp hk.2 c hc
        simp [Lexer.isKeyChar, Text.isWord, Text.isAlphanumeric, hdigit]
      rw [text_targetForm, List.all_append, List.all_cons, List.all_append, hname, hdigits]
      rfl
  | _ => decide

/-- A keyword is a key that is known. -/
theorem isKnownKey_text {k : Keyword} (hk : k.IsProper) : Lexer.isKnownKey k.text = true := by
  cases k with
  | targetForm digits =>
      have hsuffix : Lexer.isFormSuffix ('[' :: (digits ++ [']'])) = true := by
        have hempty : digits.isEmpty = false := by simpa using hk.1
        simpa [Lexer.isFormSuffix, hempty] using hk.2
      rw [Lexer.isKnownKey, text_targetForm, Text.after?_append, Option.map_some, hsuffix]
      simp
  | _ => decide

end Keyword

/-- What stands for a rule is read as the character of the rule. -/
theorem Escape.escaped_of_mem_rules : ∀ rule ∈ rules, Lexer.escaped rule.2 = rule.1 := by decide

namespace Lexer

theorem run_of_step {s s' : Lexer} {c : Char} (h : s.step c = .ok s') (t : Text) :
    s.run (c :: t) = s'.run t := by
  rw [run_cons, h]
  rfl

variable (tokens : List Token) (line : Nat)

/-! ### Keys -/

theorem run_keyChars {more : Text} (h : ∀ c ∈ more, isKeyChar c = true) (name : Text)
    (obsolete : Bool) (t : Text) :
    run { tokens, mode := .key name obsolete, line } (more ++ t) =
      run { tokens, mode := .key (name ++ more) obsolete, line } t := by
  induction more generalizing name with
  | nil => simp
  | cons c more ih =>
      have hc : isKeyChar c = true := h c List.mem_cons_self
      have hn : c ≠ '\n' := by
        rintro rfl
        exact absurd hc (by decide)
      have hstep : step { tokens, mode := .key name obsolete, line } c =
          .ok { tokens, mode := .key (name ++ [c]) obsolete, line } := by
        simp [step, hc, hn]
      rw [List.cons_append, run_of_step hstep, ih fun d hd => h d (List.mem_cons_of_mem c hd),
        List.append_assoc, List.singleton_append]

/-- A keyword and a space are a key. -/
theorem run_keyword {k : Keyword} (hk : k.IsProper) (t : Text) :
    run { tokens, line } (k.text ++ ' ' :: t) =
      run { tokens := tokens ++ [.key k.text false], line } t := by
  obtain ⟨rest, htext⟩ := List.head?_eq_some_iff.mp k.head?_text
  have hrest : ∀ c ∈ rest, isKeyChar c = true := by
    have hall := Keyword.all_isKeyChar_text hk
    rw [htext, List.all_cons, Bool.and_eq_true] at hall
    exact List.all_eq_true.mp hall.2
  have hopen : step { tokens, line } 'm' = .ok { tokens, mode := .key ['m'] false, line } := rfl
  have hclose : step { tokens, mode := .key k.text false, line } ' ' =
      .ok { tokens := tokens ++ [.key k.text false], line } := by
    have hspace : isKeyChar ' ' = false := by decide
    simp [step, hspace, Keyword.isKnownKey_text hk, openToken, show Text.isBlank ' ' = true by decide]
  calc run { tokens, line } (k.text ++ ' ' :: t)
      = run { tokens, mode := .key ['m'] false, line } (rest ++ ' ' :: t) := by
        rw [htext, List.cons_append, run_of_step hopen]
    _ = run { tokens, mode := .key k.text false, line } (' ' :: t) := by
        rw [run_keyChars tokens line hrest, htext, List.singleton_append]
    _ = run { tokens := tokens ++ [.key k.text false], line } t := run_of_step hclose t

/-! ### Strings -/

theorem run_escapeChar (value : Text) (c : Char) (t : Text) :
    run { tokens, mode := .string '"' value false, line } (Escape.escapeChar c ++ t) =
      run { tokens, mode := .string '"' (value ++ [c]) false, line } t := by
  rcases Escape.escapeChar_cases c with ⟨rule, hrule, rfl, h⟩ | ⟨hnone, h⟩
  · have hn : rule.2 ≠ '\n' := by
      revert rule
      decide
    have hfirst : step { tokens, mode := .string '"' value false, line } '\\' =
        .ok { tokens, mode := .string '"' value true, line } := rfl
    have hsecond : step { tokens, mode := .string '"' value true, line } rule.2 =
        .ok { tokens, mode := .string '"' (value ++ [rule.1]) false, line } := by
      simp [step, hn, Escape.escaped_of_mem_rules rule hrule]
    rw [h, List.cons_append, List.singleton_append, run_of_step hfirst, run_of_step hsecond]
  · have hquote : c ≠ '"' := (hnone ('"', '"') (by decide)).symm
    have hslash : c ≠ '\\' := (hnone ('\\', '\\') (by decide)).symm
    have hn : c ≠ '\n' := (hnone ('\n', 'n') (by decide)).symm
    have hstep : step { tokens, mode := .string '"' value false, line } c =
        .ok { tokens, mode := .string '"' (value ++ [c]) false, line } := by
      simp [step, hquote, hslash, hn]
    rw [h, List.singleton_append, run_of_step hstep]

/-- Between its quotes an escaped text is read as it was. -/
theorem run_escape (value v t : Text) :
    run { tokens, mode := .string '"' value false, line } (escape v ++ t) =
      run { tokens, mode := .string '"' (value ++ v) false, line } t := by
  induction v generalizing value with
  | nil => simp
  | cons c v ih =>
      rw [escape_cons, List.append_assoc, run_escapeChar, ih, List.append_assoc,
        List.singleton_append]

/-! ### Lines -/

/-- A written line is a key and a string. -/
theorem run_line {k : Keyword} (hk : k.IsProper) (v t : Text) :
    run { tokens, line } (Field.line k.text v ++ t) =
      run { tokens := tokens ++ [.key k.text false, .string v], line } t := by
  have hline : Field.line k.text v ++ t = k.text ++ ' ' :: '"' :: (escape v ++ '"' :: t) := by
    simp [Field.line]
  have hopen : step { tokens := tokens ++ [.key k.text false], line } '"' =
      .ok { tokens := tokens ++ [.key k.text false], mode := .string '"' [] false, line } := rfl
  have hclose : step
      { tokens := tokens ++ [.key k.text false], mode := .string '"' v false, line } '"' =
      .ok { tokens := tokens ++ [.key k.text false] ++ [.string v], line } := by
    simp [step]
  rw [hline, run_keyword tokens line hk, run_of_step hopen, run_escape, List.nil_append,
    run_of_step hclose, List.append_assoc, List.singleton_append]

/-- A terminator stands between tokens and begins a new line. -/
theorem run_terminator (ending : LineEnding) (t : Text) :
    run { tokens, line } (ending.text ++ t) = run { tokens, line := line + 1 } t := by
  cases ending <;> rfl

/-- The tokens of fields. -/
def tokensOf (fields : List (Keyword × Text)) : List Token :=
  fields.flatMap fun field => [.key field.1.text false, .string field.2]

theorem run_lines (ending : LineEnding) {fields : List (Keyword × Text)}
    (h : ∀ field ∈ fields, field.1.IsProper) (t : Text) :
    run { tokens, line }
        (fields.flatMap (fun field => Field.line field.1.text field.2 ++ ending.text) ++ t) =
      run { tokens := tokens ++ tokensOf fields, line := line + fields.length } t := by
  induction fields generalizing tokens line with
  | nil => simp [tokensOf]
  | cons field fields ih =>
      obtain ⟨k, v⟩ := field
      have hk : k.IsProper := h (k, v) List.mem_cons_self
      rw [List.flatMap_cons, List.append_assoc, List.append_assoc, run_line tokens line hk,
        run_terminator, ih _ _ fun f hf => h f (List.mem_cons_of_mem _ hf)]
      simp [tokensOf, Nat.add_assoc, Nat.add_comm 1]

/-- Fields that are written on lines, with either terminator between them and one at the end, are for
the lexer a key and a string each, with the keyword and the text as they are. It is between tokens
again behind them, and no text has added a line. -/
theorem run_written (ending : LineEnding) {fields : List (Keyword × Text)}
    (h : ∀ field ∈ fields, field.1.IsProper) :
    let lines := fields.flatMap fun field => Field.encode field.1.text field.2
    run {} (Text.join ending.text lines ++ ending.text) =
      .ok { tokens := tokensOf fields, mode := .between false, line := 1 + max 1 fields.length } := by
  intro lines
  by_cases hfields : fields = []
  · subst hfields
    cases ending <;> rfl
  · have hlines : lines ≠ [] := by
      obtain ⟨field, rest, rfl⟩ := List.exists_cons_of_ne_nil hfields
      simp [lines, Field.encode]
    have htext : Text.join ending.text lines ++ ending.text =
        fields.flatMap (fun field => Field.line field.1.text field.2 ++ ending.text) ++ [] := by
      rw [Text.join, Text.intercalate_append_self ending.text hlines]
      simp [lines, Field.encode, List.flatMap_assoc]
    have hlength : 1 ≤ fields.length := List.length_pos_iff.mpr hfields
    rw [htext, run_lines [] 1 ending h [], run_nil, List.nil_append, Nat.max_eq_right hlength]

/-- An entry in a context with two plural forms, whose texts have everything in them that could end a
string, a line or a key. -/
theorem run_written_plural :
    let fields : List (Keyword × Text) :=
      [(.context, "#~ \"m\""), (.source, "a\\"), (.sourcePlural, "msgid \"b\"\r\n"),
        (.targetForm "0", ""), (.targetForm "10", "\\n\t\u2028'")]
    let lines := fields.flatMap fun field => Field.encode field.1.text field.2
    (∀ field ∈ fields, field.1.IsProper) ∧
      run {} (Text.join LineEnding.crlf.text lines ++ LineEnding.crlf.text) =
        .ok { tokens := tokensOf fields, mode := .between false, line := 6 } := by
  intro fields lines
  have h : ∀ field ∈ fields, field.1.IsProper := by decide
  exact ⟨h, run_written .crlf h⟩

end Lexer

end GettextFill
