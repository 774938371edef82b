import GettextFill.Proofs.Catalog.Field
import Mathlib.Algebra.Ring.Parity
import Mathlib.Data.List.Induction

/-!
# Escaped text

The passes of `escape` come to a single substitution, `Escape.substitute`. What they make of a text
is safe between quotes (`Escape.IsSafe`): it has no control character that is escaped, and a reader
who takes a backslash and what follows for one character meets no quote on the way. A quote in it
stands for a quote of the text (`exists_of_escape_eq_append_quote`), and backslashes come in pairs up
to any place between two characters of the text (`even_backslashes_escape`), so the one before a
quote makes their number odd.
-/

namespace GettextFill

namespace Escape

/-- What is written for a character. -/
def substitute : Char → Text
  | '\\' => ['\\', '\\']
  | '"' => ['\\', '"']
  | '\n' => ['\\', 'n']
  | '\t' => ['\\', 't']
  | '\r' => ['\\', 'r']
  | c => [c]

/-- How many backslashes a text ends in. -/
def backslashes (t : Text) : Nat := (t.reverse.takeWhile fun c => c = '\\').length

/-- Text that neither ends the line nor the quotes that it stands between. -/
structure IsSafe (t : Text) : Prop where
  control : ∀ c ∈ ['\n', '\r', '\t'], c ∉ t
  quote : ∀ before after, t = before ++ '"' :: after → Odd (backslashes before)

theorem escapeChar_eq_substitute (c : Char) : escapeChar c = substitute c := by
  unfold substitute
  split
  · decide
  · decide
  · decide
  · decide
  · decide
  · next h₁ h₂ h₃ h₄ h₅ =>
    rcases escapeChar_cases c with ⟨rule, hrule, rfl, -⟩ | ⟨-, h⟩
    · simp only [rules, List.mem_cons, List.not_mem_nil, or_false] at hrule
      rcases hrule with rfl | rfl | rfl | rfl | rfl <;> contradiction
    · exact h

theorem backslashes_append_of_ne {c : Char} (h : c ≠ '\\') (t : Text) :
    backslashes (t ++ [c]) = 0 := by
  simp [backslashes, h]

theorem backslashes_append_backslash (t : Text) :
    backslashes (t ++ ['\\']) = backslashes t + 1 := by
  simp [backslashes]

/-- After a character that was escaped backslashes are in pairs if they were so before it. -/
theorem even_backslashes_append {t : Text} (h : Even (backslashes t)) (c : Char) :
    Even (backslashes (t ++ escapeChar c)) := by
  rcases escapeChar_cases c with ⟨rule, -, -, hc⟩ | ⟨hnone, hc⟩ <;> rw [hc]
  · rw [List.append_cons]
    by_cases hletter : rule.2 = '\\'
    · rw [hletter, backslashes_append_backslash, backslashes_append_backslash]
      exact h.add even_two
    · rw [backslashes_append_of_ne hletter]
      exact Even.zero
  · have hbackslash : c ≠ '\\' := (hnone ('\\', '\\') (by decide)).symm
    rw [backslashes_append_of_ne hbackslash]
    exact Even.zero

/-- Only a quote has a quote written for it, and a backslash before that. -/
theorem eq_of_mem_rules : ∀ rule ∈ rules, rule.2 = '"' → rule.1 = '"' := by decide

end Escape

open Escape

theorem even_backslashes_escape (t : Text) : Even (backslashes (escape t)) := by
  induction t using List.reverseRecOn with
  | nil => exact Even.zero
  | append_singleton t c ih =>
      rw [escape_append, escape_singleton]
      exact even_backslashes_append ih c

/-- A quote in an escaped text is one of the text, with a backslash before it. -/
theorem exists_of_escape_eq_append_quote {t before after : Text}
    (h : escape t = before ++ '"' :: after) :
    ∃ s u, t = s ++ '"' :: u ∧ before = escape s ++ ['\\'] ∧ after = escape u := by
  induction t generalizing before with
  | nil => simp at h
  | cons c t ih =>
      rw [escape_cons] at h
      rcases escapeChar_cases c with ⟨rule, hrule, hc, hwritten⟩ | ⟨hnone, hwritten⟩
      · rw [hwritten, List.cons_append, List.singleton_append] at h
        -- what is written for the character is a backslash and a letter, which may be the quote
        rcases before with _ | ⟨d, _ | ⟨letter, before⟩⟩
        · exact absurd (List.cons.inj h).1 (by decide)
        · obtain ⟨hd, hletter, hafter⟩ := (List.cons.inj h).imp_right List.cons.inj
          have hquote : c = '"' := hc.trans (eq_of_mem_rules rule hrule hletter)
          exact ⟨[], t, by rw [hquote, List.nil_append], by rw [← hd]; rfl, hafter.symm⟩
        · obtain ⟨hd, hletter, hrest⟩ := (List.cons.inj h).imp_right List.cons.inj
          obtain ⟨s, u, rfl, rfl, hafter⟩ := ih hrest
          refine ⟨c :: s, u, rfl, ?_, hafter⟩
          rw [escape_cons, hwritten, ← hd, ← hletter]
          rfl
      · rw [hwritten, List.singleton_append] at h
        rcases before with _ | ⟨d, before⟩
        · exact absurd (List.cons.inj h).1.symm (hnone ('"', '"') (by decide))
        · obtain ⟨hd, hrest⟩ := List.cons.inj h
          obtain ⟨s, u, rfl, rfl, hafter⟩ := ih hrest
          refine ⟨c :: s, u, rfl, ?_, hafter⟩
          rw [escape_cons, hwritten, ← hd]
          rfl

/-- The passes of escaping substitute every character once, what they write is safe between quotes,
and reading it gives back the text. -/
theorem escape_invertible (t : Text) :
    escape t = t.flatMap substitute ∧ IsSafe (escape t) ∧ unescape (escape t) = t := by
  refine ⟨?_, ⟨fun c hc => ?_, fun before after h => ?_⟩, unescape_escape t⟩
  · rw [escape_eq_flatMap, funext escapeChar_eq_substitute]
  · refine not_mem_escape ?_ t
    simpa [or_comm, or_left_comm] using hc
  · obtain ⟨s, u, -, rfl, -⟩ := exists_of_escape_eq_append_quote h
    rw [backslashes_append_backslash]
    exact (even_backslashes_escape s).add_one

end GettextFill
