import GettextFill.Text

/-!
# Nonces

A nonce is a few letters and digits that are hard to guess: the first digits to the base 36 of a
fraction that was drawn. There are six of them as a rule, but there may be fewer or even none.
-/

namespace GettextFill

/-- The digits to the base 36. -/
def Nonce.alphabet : Text := "0123456789abcdefghijklmnopqrstuvwxyz"

/-- A few letters and digits that are hard to guess. -/
structure Nonce where
  text : Text
  length_le : text.length ≤ 6
  mem_alphabet : ∀ c ∈ text, c ∈ Nonce.alphabet

namespace Nonce

instance : Inhabited Nonce where
  default :=
    { text := "t0k3n0"
      length_le := by decide
      mem_alphabet := by
        -- the list decides this; `decide` may go through all characters instead
        have hall : ("t0k3n0" : Text).all alphabet.contains = true := by decide
        exact fun c hc => List.contains_iff_mem.mp (List.all_eq_true.mp hall c hc) }

variable (denominator : Nat)

/-- The first digits of a fraction below one, up to the last that is not zero. -/
def digits : Nat → Nat → Text
  | 0, _ => []
  | count + 1, numerator =>
    if numerator = 0 then []
    else
      alphabet.getD (36 * numerator / denominator) '0' ::
        digits count (36 * numerator % denominator)

theorem length_digits_le (count numerator : Nat) :
    (digits denominator count numerator).length ≤ count := by
  induction count generalizing numerator with
  | zero => exact Nat.le_refl 0
  | succ count ih =>
      rw [digits]
      split
      · exact Nat.zero_le _
      · exact Nat.succ_le_succ (ih _)

theorem mem_alphabet_of_mem_digits {c : Char} {count numerator : Nat}
    (h : c ∈ digits denominator count numerator) : c ∈ alphabet := by
  induction count generalizing numerator with
  | zero => cases h
  | succ count ih =>
      rw [digits] at h
      split at h
      · cases h
      · rcases List.mem_cons.mp h with rfl | h
        · rw [List.getD_eq_getElem?_getD]
          cases hdigit : alphabet[36 * numerator / denominator]? with
          | none => decide
          | some c => exact List.mem_of_getElem? hdigit
        · exact ih h

/-- The nonce of a fraction below one. -/
def ofFraction (numerator : Nat) : Nonce where
  text := digits denominator 6 numerator
  length_le := length_digits_le denominator 6 numerator
  mem_alphabet _ h := mem_alphabet_of_mem_digits denominator h

end Nonce

end GettextFill
