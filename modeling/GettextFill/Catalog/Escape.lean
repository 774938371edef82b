import GettextFill.Text

/-!
# Escapes in quoted strings

Between its quotes a catalog writes five characters as a backslash and a letter. `escape` makes the
five replacements one after the other, the backslash first, so that no later pass meets a backslash
that an earlier one has written; `escape_eq_flatMap` says that the passes together are the single
substitution `escapeChar` of every character.

`unescape` reads nine escapes and keeps every other one as it is written, so catalogs written by
hand lose nothing.
-/

namespace GettextFill.Escape

/-- The replacements in the order in which they are made: a character and the letter that stands
for it after a backslash. -/
def rules : List (Char × Char) :=
  [('\\', '\\'), ('"', '"'), ('\n', 'n'), ('\t', 't'), ('\r', 'r')]

/-- One pass: every `rule.1` becomes a backslash and `rule.2`. -/
def pass (rule : Char × Char) (t : Text) : Text :=
  t.flatMap fun c => if c = rule.1 then ['\\', rule.2] else [c]

def escapeChar (c : Char) : Text :=
  match rules.find? (fun rule => rule.1 = c) with
  | some rule => ['\\', rule.2]
  | none => [c]

/-- The character that a letter stands for after a backslash. -/
def meaning? : Char → Option Char
  | '\\' => some '\\'
  | '"' => some '"'
  | 'n' => some '\n'
  | 't' => some '\t'
  | 'r' => some '\r'
  | 'a' => some '\x07'
  | 'b' => some '\x08'
  | 'f' => some '\x0c'
  | 'v' => some '\x0b'
  | _ => none

theorem pass_append (rule : Char × Char) (s t : Text) :
    pass rule (s ++ t) = pass rule s ++ pass rule t := by
  simp [pass]

end Escape

def escape (t : Text) : Text := Escape.rules.foldl (fun s rule => Escape.pass rule s) t

/-- The text that stands between quotes as `t`. A backslash at the end, and one before a letter
without a meaning, are kept. -/
def unescape : Text → Text
  | [] => []
  | ['\\'] => ['\\']
  | '\\' :: c :: t =>
    match Escape.meaning? c with
    | some d => d :: unescape t
    | none => '\\' :: c :: unescape t
  | c :: t => c :: unescape t

@[simp] theorem escape_nil : escape [] = [] := rfl

theorem escape_append (s t : Text) : escape (s ++ t) = escape s ++ escape t := by
  simp [escape, Escape.rules, Escape.pass_append]

theorem escape_singleton (c : Char) : escape [c] = Escape.escapeChar c := by
  by_cases h₁ : c = '\\'
  · subst h₁; decide
  by_cases h₂ : c = '"'
  · subst h₂; decide
  by_cases h₃ : c = '\n'
  · subst h₃; decide
  by_cases h₄ : c = '\t'
  · subst h₄; decide
  by_cases h₅ : c = '\r'
  · subst h₅; decide
  simp [escape, Escape.rules, Escape.pass, Escape.escapeChar, h₁, h₂, h₃, h₄, h₅, Ne.symm h₁,
    Ne.symm h₂, Ne.symm h₃, Ne.symm h₄, Ne.symm h₅]

/-- The passes together substitute every character once. -/
theorem escape_eq_flatMap (t : Text) : escape t = t.flatMap Escape.escapeChar := by
  induction t with
  | nil => rfl
  | cons c t ih =>
      rw [← List.singleton_append, escape_append, escape_singleton, ih]
      rfl

end GettextFill
