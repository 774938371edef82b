import GettextFill.Proofs.Catalog.Keyword

/-!
# Written fields

A text that is written as a field is escaped, so it ends neither the line nor the quotes that it
stands between, and it reads back as it was. The two separators U+2028 and U+2029 are the exception:
they end a line for the reader of quoted texts and have no escape. A text with one of them is
written like every other but reads back as nothing, which `Field.decode_encode` states together with
the rule.
-/

namespace GettextFill

/-- The characters that end a line and have no escape. -/
def Text.isSeparator (c : Char) : Bool := c = '\u2028' || c = '\u2029'

namespace Escape

/-- A character has one of the rules, or it is written as it is. -/
theorem escapeChar_cases (c : Char) :
    (∃ rule ∈ rules, c = rule.1 ∧ escapeChar c = ['\\', rule.2]) ∨
      (∀ rule ∈ rules, rule.1 ≠ c) ∧ escapeChar c = [c] := by
  unfold escapeChar
  cases h : rules.find? fun rule => rule.1 = c with
  | some rule =>
      refine Or.inl ⟨rule, List.mem_of_find?_eq_some h, ?_, rfl⟩
      have hrule := List.find?_some h
      exact (of_decide_eq_true hrule).symm
  | none =>
      refine Or.inr ⟨fun rule hrule => ?_, rfl⟩
      exact of_decide_eq_false (Bool.eq_false_iff.mpr (List.find?_eq_none.mp h rule hrule))

/-- What stands for a rule means the character of the rule. -/
theorem meaning?_of_mem_rules : ∀ rule ∈ rules, meaning? rule.2 = some rule.1 := by decide

/-- No control character is left behind. -/
theorem not_mem_escapeChar {c : Char} (hc : c = '\n' ∨ c = '\t' ∨ c = '\r') (d : Char) :
    c ∉ escapeChar d := by
  rcases escapeChar_cases d with ⟨rule, hrule, -, h⟩ | ⟨hnone, h⟩
  · rw [h]
    clear h
    revert rule
    rcases hc with rfl | rfl | rfl <;> decide
  · rw [h, List.mem_singleton]
    rintro rfl
    rcases hc with rfl | rfl | rfl <;> exact absurd hnone (by decide)

theorem any_isBreak_escapeChar (c : Char) : (escapeChar c).any Text.isBreak = Text.isSeparator c := by
  rcases escapeChar_cases c with ⟨rule, hrule, rfl, h⟩ | ⟨hnone, h⟩
  · rw [h]
    revert rule
    decide
  · have hn : '\n' ≠ c := hnone ('\n', 'n') (by decide)
    have hr : '\r' ≠ c := hnone ('\r', 'r') (by decide)
    simp [h, Text.isBreak, Text.isSeparator, Ne.symm hn, Ne.symm hr]

end Escape

/-! ### Escaping -/

theorem escape_cons (c : Char) (t : Text) : escape (c :: t) = Escape.escapeChar c ++ escape t := by
  rw [escape_eq_flatMap, escape_eq_flatMap, List.flatMap_cons]

theorem unescape_cons {c : Char} (hc : c ≠ '\\') (t : Text) : unescape (c :: t) = c :: unescape t := by
  rw [unescape]
  · exact fun h => absurd h hc
  · exact fun _ _ h => absurd h hc

theorem unescape_escapeChar_append (c : Char) (t : Text) :
    unescape (Escape.escapeChar c ++ t) = c :: unescape t := by
  rcases Escape.escapeChar_cases c with ⟨rule, hrule, rfl, h⟩ | ⟨hnone, h⟩
  · rw [h, List.cons_append, List.singleton_append, unescape,
      Escape.meaning?_of_mem_rules rule hrule]
  · have hc : c ≠ '\\' := (hnone ('\\', '\\') (by decide)).symm
    rw [h, List.singleton_append, unescape_cons hc]

theorem unescape_escape (t : Text) : unescape (escape t) = t := by
  induction t with
  | nil => rfl
  | cons c t ih => rw [escape_cons, unescape_escapeChar_append, ih]

theorem not_mem_escape {c : Char} (hc : c = '\n' ∨ c = '\t' ∨ c = '\r') (t : Text) :
    c ∉ escape t := by
  rw [escape_eq_flatMap, List.mem_flatMap]
  rintro ⟨d, -, hd⟩
  exact Escape.not_mem_escapeChar hc d hd

/-- Of the characters that end a line only the separators are left. -/
theorem any_isBreak_escape (t : Text) : (escape t).any Text.isBreak = t.any Text.isSeparator := by
  induction t with
  | nil => rfl
  | cons c t ih =>
      rw [escape_cons, List.any_append, Escape.any_isBreak_escapeChar, ih, List.any_cons]

/-! ### Quotes -/

/-- Between the quotes of a text that ends in one stands all that comes before it. -/
theorem quoted?_append_quote (t : Text) :
    quoted? (t ++ ['"']) = if t.any Text.isBreak then none else some t := by
  have hquote : Text.isBlank '"' = false := by decide
  simp [quoted?, hquote]

namespace Field

/-- A line that was written has its keyword, a space and the quotes. -/
theorem split?_line {k : Keyword} (hk : k.IsProper) (v : Text) :
    Keyword.split? (line k.text v) = some (k, ' ' :: '"' :: (escape v ++ ['"'])) :=
  Keyword.split?_eq_some_iff.mpr ⟨hk, rfl, ' ', _, rfl, by decide⟩

theorem ofLine?_line (v : Text) : Keyword.ofLine? (line "msgstr" v) = some .target := rfl

theorem ofLine_line (v : Text) : LineKind.ofLine (line "msgstr" v) = .target := rfl

theorem newline_not_mem_line (v : Text) : '\n' ∉ line "msgstr" v := by
  have hescape : '\n' ∉ escape v := not_mem_escape (Or.inl rfl) v
  simp [line, hescape]

theorem getLast?_line (v : Text) : (line "msgstr" v).getLast? = some '"' := by
  simp [line, List.getLast?_append, List.getLast?_cons]

theorem keywordLine?_line {k : Keyword} (hk : k.IsProper) (v : Text) :
    keywordLine? (line k.text v) = if v.any Text.isSeparator then none else some (escape v) := by
  rw [← any_isBreak_escape, ← quoted?_append_quote, keywordLine?, split?_line hk]
  rfl

/-- A text that is written as a field reads back as it was, unless it holds a separator. -/
theorem decode_encode {k : Keyword} (hk : k.IsProper) (v : Text) :
    decode (encode k.text v) = if v.any Text.isSeparator then [] else v := by
  rw [encode, decode, keywordLine?_line hk]
  split
  · rfl
  · simp [unescape_escape]

theorem decode_encode_target (v : Text) :
    decode (encode "msgstr" v) = if v.any Text.isSeparator then [] else v :=
  decode_encode (k := .target) trivial v

end Field

end GettextFill
