import GettextFill.Proofs.Catalog.Field
import Mathlib.Data.List.Flatten

/-!
# Wrapped fields

A field may be wrapped: its text is cut into pieces, the first one stands on the keyword line and
each of the others on a line of its own (`Field.wrap`). The reader puts the pieces together again
(`Field.decode_wrap`), and it stops where the next keyword begins.

A piece with a separator in it is the exception that it is for a field of one line: nothing is read
of its line. `Field.decode_wrap_iff` says that there is no other.
-/

namespace GettextFill

namespace Field

/-- A line that continues a field. -/
def continued (v : Text) : Text := '"' :: (escape v ++ ['"'])

/-- A field whose text is cut into pieces. -/
def wrap (keyword v : Text) (vs : List Text) : List Text := line keyword v :: vs.map continued

/-- Whether a text can be read from the line that it is written on. -/
def isLegible (v : Text) : Bool := !v.any Text.isSeparator

theorem isLegible_eq_true_iff {v : Text} :
    isLegible v = true ↔ v.any Text.isSeparator = false := by
  simp [isLegible]

theorem ofLine?_continued (v : Text) : Keyword.ofLine? (continued v) = none := rfl

theorem continuationLine?_continued (v : Text) :
    continuationLine? (continued v) = if v.any Text.isSeparator then none else some (escape v) := by
  rw [← any_isBreak_escape, ← quoted?_append_quote]
  rfl

/-- What is read of a quoted piece. -/
theorem unescaped_piece (v : Text) :
    ((if v.any Text.isSeparator then none else some (escape v)).map unescape).getD [] =
      if isLegible v then v else [] := by
  by_cases h : v.any Text.isSeparator = true
  · simp [isLegible, h]
  · simp [isLegible, h, unescape_escape]

/-- A piece that cannot be read takes no room. -/
theorem flatten_filter_cons (v : Text) (vs : List Text) :
    ((v :: vs).filter isLegible).flatten =
      (if isLegible v then v else []) ++ (vs.filter isLegible).flatten := by
  rw [List.filter_cons]
  split <;> rfl

theorem decodeContinuation_continued_append (vs rest : List Text) :
    decodeContinuation (vs.map continued ++ rest) =
      (vs.filter isLegible).flatten ++ decodeContinuation rest := by
  induction vs with
  | nil => rfl
  | cons v vs ih =>
      rw [List.map_cons, List.cons_append, decodeContinuation, ofLine?_continued,
        if_neg (by simp), continuationLine?_continued, unescaped_piece, ih, flatten_filter_cons,
        List.append_assoc]

/-- A keyword ends the field before it. -/
theorem decodeContinuation_of_begins {rest : List Text}
    (h : ∀ l ∈ rest.head?, ∃ k : Keyword, k.Begins l) : decodeContinuation rest = [] := by
  cases rest with
  | nil => rfl
  | cons l rest =>
      obtain ⟨k, hk⟩ := h l rfl
      rw [decodeContinuation, Keyword.ofLine?_eq_some_iff.mpr hk]
      rfl

variable {k : Keyword} {rest : List Text}

/-- The pieces of a wrapped field are put together again, but for those that cannot be read. -/
theorem decode_wrap (hk : k.IsProper) (v : Text) (vs : List Text)
    (hrest : ∀ l ∈ rest.head?, ∃ k : Keyword, k.Begins l) :
    decode (wrap k.text v vs ++ rest) = ((v :: vs).filter isLegible).flatten := by
  rw [wrap, List.cons_append, decode, keywordLine?_line hk, unescaped_piece,
    decodeContinuation_continued_append, decodeContinuation_of_begins hrest, List.append_nil,
    flatten_filter_cons]

/-- A piece that cannot be read is not empty, so that something is missing without it. -/
theorem flatten_filter_isLegible_eq_iff (ws : List Text) :
    (ws.filter isLegible).flatten = ws.flatten ↔ ∀ w ∈ ws, isLegible w = true := by
  constructor
  · induction ws with
    | nil => simp
    | cons w ws ih =>
        intro h
        rw [flatten_filter_cons, List.flatten_cons] at h
        by_cases hw : isLegible w = true
        · rw [if_pos hw] at h
          simpa [hw] using ih (List.append_cancel_left h)
        · rw [if_neg hw, List.nil_append] at h
          have hle : (ws.filter isLegible).flatten.length ≤ ws.flatten.length :=
            List.filter_sublist.flatten.length_le
          have hlength := congrArg List.length h
          rw [List.length_append] at hlength
          have hempty : w = [] := List.length_eq_zero_iff.mp (by omega)
          exact absurd (by rw [hempty]; rfl) hw
  · intro h
    rw [List.filter_eq_self.mpr h]

/-- A wrapped field reads back as its whole text exactly if every piece can be read. -/
theorem decode_wrap_eq_flatten_iff (hk : k.IsProper) (v : Text) (vs : List Text)
    (hrest : ∀ l ∈ rest.head?, ∃ k : Keyword, k.Begins l) :
    decode (wrap k.text v vs ++ rest) = (v :: vs).flatten ↔
      ∀ w ∈ v :: vs, w.any Text.isSeparator = false := by
  rw [decode_wrap hk v vs hrest, flatten_filter_isLegible_eq_iff]
  simp only [isLegible_eq_true_iff]

/-- A wrapped field reads back as the pieces of its text one after the other, whatever keyword line
follows it, exactly if no piece holds a separator; and so does a field of one line. -/
theorem decode_wrap_iff (hk : k.IsProper) (v : Text) (vs : List Text)
    (hrest : ∀ l ∈ rest.head?, ∃ k : Keyword, k.Begins l) :
    (decode (wrap k.text v vs ++ rest) = (v :: vs).flatten ↔
        ∀ w ∈ v :: vs, w.any Text.isSeparator = false) ∧
      (decode (encode k.text v) = v ↔ v.any Text.isSeparator = false) := by
  refine ⟨decode_wrap_eq_flatten_iff hk v vs hrest, ?_⟩
  have hnone : ∀ l ∈ ([] : List Text).head?, ∃ k : Keyword, k.Begins l := by simp
  have hline := decode_wrap_eq_flatten_iff hk v [] hnone
  simpa [wrap, encode] using hline

/-- A plural form in three pieces, with everything that is escaped in them and another form behind. -/
theorem decode_wrap_form :
    let k : Keyword := .targetForm "10"
    let vs : List Text := ["\n\t\r", ""]
    let rest : List Text := ["msgstr[11] \"b\"", "\"c\""]
    k.IsProper ∧ (∀ l ∈ rest.head?, ∃ k : Keyword, k.Begins l) ∧
      (∀ w ∈ ("\"a\" \\" : Text) :: vs, w.any Text.isSeparator = false) ∧
      decode (wrap k.text "\"a\" \\" vs ++ rest) = ("\"a\" \\\n\t\r" : Text) := by
  intro k vs rest
  have hk : k.IsProper := by decide
  have hrest : ∀ l ∈ rest.head?, ∃ k : Keyword, k.Begins l := by
    intro l hl
    cases hl
    exact ⟨.targetForm "11", Keyword.ofLine?_eq_some_iff.mp (by decide)⟩
  have hclean : ∀ w ∈ ("\"a\" \\" : Text) :: vs, w.any Text.isSeparator = false := by decide
  exact ⟨hk, hrest, hclean, (decode_wrap_iff hk _ vs hrest).1.mpr hclean⟩

/-- Fields of which a separator leaves nothing, or only the other pieces. -/
theorem decode_wrap_separator :
    decode (encode "msgstr" "a\u2028b") = [] ∧
      decode (wrap "msgid" "a" ["b\u2029", "c"]) = ("ac" : Text) := by
  decide

end Field

end GettextFill
