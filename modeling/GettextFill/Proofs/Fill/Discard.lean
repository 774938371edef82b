import GettextFill.Fill
import GettextFill.Proofs.Catalog.Field
import GettextFill.Proofs.Fill.Basic

/-!
# What a fill discards

A fill asks for the text of a target and replaces all of its lines if there is none. The text is
taken from the quoted lines of one field, so a block of lines can hold more than its text shows: a
line without a closing quote, a line with something behind it, and whatever follows a second keyword.
`Field.strays` are these lines.

`Entry.fill?_discards_iff` says that they are all that can be lost: a fill discards nothing but empty
field lines exactly if the strays of the target are empty field lines too. A target that is a single
field of quoted lines has no strays, so it is only replaced if every line of it is empty.
-/

namespace GettextFill

/-- A text that has escapes read in it is empty only if it was. -/
theorem unescape_eq_nil_iff (t : Text) : unescape t = [] ↔ t = [] := by
  constructor
  · intro h
    unfold unescape at h
    split at h
    · rfl
    · cases h
    · split at h <;> cases h
    · cases h
  · rintro rfl
    rfl

namespace Field

/-- A line of a target with nothing between its quotes. -/
def IsEmptyLine (line : Text) : Prop :=
  (Keyword.ofLine? line = some .target ∧ keywordLine? line = some []) ∨
    continuationLine? line = some []

instance : DecidablePred IsEmptyLine := fun line =>
  inferInstanceAs (Decidable ((Keyword.ofLine? line = some .target ∧ keywordLine? line = some []) ∨
    continuationLine? line = some []))

/-- The lines behind the first one of a target that its text is not taken from: those that do not
continue a field, and all from the next keyword on. -/
def straysBehind : List Text → List Text
  | [] => []
  | line :: rest =>
    if (Keyword.ofLine? line).isSome then line :: rest
    else if (continuationLine? line).isSome then straysBehind rest
    else line :: straysBehind rest

/-- The lines of a target that its text is not taken from. -/
def strays : List Text → List Text
  | [] => []
  | line :: rest =>
    if Keyword.ofLine? line = some .target ∧ (keywordLine? line).isSome then straysBehind rest
    else line :: straysBehind rest

theorem straysBehind_subset (ls : List Text) : straysBehind ls ⊆ ls := by
  induction ls with
  | nil => exact List.Subset.refl _
  | cons line ls ih =>
      rw [straysBehind]
      split
      · exact List.Subset.refl _
      · split
        · exact List.subset_cons_of_subset line ih
        · exact List.cons_subset_cons line ih

theorem strays_subset (ls : List Text) : strays ls ⊆ ls := by
  cases ls with
  | nil => exact List.Subset.refl _
  | cons line ls =>
      rw [strays]
      split
      · exact List.subset_cons_of_subset line (straysBehind_subset ls)
      · exact List.cons_subset_cons line (straysBehind_subset ls)

/-- The quoted text of a line that contributes nothing, if it has one. -/
theorem eq_nil_of_unescaped_eq_nil {quoted : Option Text}
    (h : (quoted.map unescape).getD [] = []) : quoted = none ∨ quoted = some [] := by
  cases quoted with
  | none => exact Or.inl rfl
  | some t => exact Or.inr (congrArg some ((unescape_eq_nil_iff t).mp h))

theorem decodeContinuation_cons (line : Text) (rest : List Text) :
    decodeContinuation (line :: rest) =
      if (Keyword.ofLine? line).isSome then []
      else ((continuationLine? line).map unescape).getD [] ++ decodeContinuation rest := rfl

theorem decode_cons (line : Text) (rest : List Text) :
    decode (line :: rest) =
      ((keywordLine? line).map unescape).getD [] ++ decodeContinuation rest := rfl

/-- Where no text is taken from the lines that continue a field, they are strays or empty. -/
theorem stray_or_empty_of_decodeContinuation_eq_nil {ls : List Text}
    (h : decodeContinuation ls = []) : ∀ l ∈ ls, l ∈ straysBehind ls ∨ IsEmptyLine l := by
  induction ls with
  | nil => exact fun l hl => absurd hl List.not_mem_nil
  | cons line ls ih =>
      intro l hl
      rw [decodeContinuation_cons] at h
      rw [straysBehind]
      split at h
      · next hkeyword =>
        rw [if_pos hkeyword]
        exact Or.inl hl
      · next hkeyword =>
        rw [List.append_eq_nil_iff] at h
        rw [if_neg hkeyword]
        rcases eq_nil_of_unescaped_eq_nil h.1 with hnone | hempty
        · -- a line of neither shape is a stray itself
          rw [hnone, Option.isSome_none, if_neg Bool.false_ne_true]
          rcases List.mem_cons.mp hl with rfl | hl
          · exact Or.inl List.mem_cons_self
          · exact (ih h.2 l hl).imp_left (List.mem_cons_of_mem line)
        · rw [hempty, Option.isSome_some, if_pos rfl]
          rcases List.mem_cons.mp hl with rfl | hl
          · exact Or.inr (Or.inr hempty)
          · exact ih h.2 l hl

/-- Every line of a target without text is a stray or empty. -/
theorem stray_or_empty_of_decode_eq_nil {ls : List Text} (h : decode ls = []) :
    ∀ l ∈ ls, l ∈ strays ls ∨ IsEmptyLine l := by
  cases ls with
  | nil => exact fun l hl => absurd hl List.not_mem_nil
  | cons line ls =>
      intro l hl
      rw [decode_cons, List.append_eq_nil_iff] at h
      have hrest := stray_or_empty_of_decodeContinuation_eq_nil h.2
      rw [strays]
      split
      · next hquoted =>
        rcases List.mem_cons.mp hl with rfl | hl
        · rcases eq_nil_of_unescaped_eq_nil h.1 with hnone | hempty
          · rw [hnone] at hquoted
            exact absurd hquoted.2 Bool.false_ne_true
          · exact Or.inr (Or.inl ⟨hquoted.1, hempty⟩)
        · exact hrest l hl
      · rcases List.mem_cons.mp hl with rfl | hl
        · exact Or.inl List.mem_cons_self
        · exact (hrest l hl).imp_left (List.mem_cons_of_mem line)

end Field

namespace Entry

variable {table : Table} {language : Text}

/-- An entry is filled only if it has no text as its target. -/
theorem isDue_of_fill?_eq_some {e e' : Entry} (h : e.fill? table language = some e') :
    e.IsDue table language := by
  by_contra hdue
  rw [fill?_of_not_isDue hdue] at h
  cases h

/-- A fill discards nothing but empty field lines exactly if no line that the text of the target is
not taken from holds more than that. -/
theorem fill?_discards_iff {e e' : Entry} (h : e.fill? table language = some e') :
    (∀ l ∈ e.target, Field.IsEmptyLine l) ↔ ∀ l ∈ Field.strays e.target, Field.IsEmptyLine l := by
  have htext : Field.decode e.target = [] := (isDue_of_fill?_eq_some h).2.1
  constructor
  · exact fun hempty l hl => hempty l (Field.strays_subset _ hl)
  · intro hstrays l hl
    rcases Field.stray_or_empty_of_decode_eq_nil htext l hl with hstray | hempty
    · exact hstrays l hstray
    · exact hempty

/-- A target of several lines, two of them behind a second keyword. -/
theorem fill?_discards_empty :
    let e : Entry :=
      { source := ["msgid \"a\""], target := ["msgstr \"\"", "\"\" ", "msgstr \"\"", "\"\""] }
    let table : Table := { sections := [("fr", [("a", "A")])] }
    e.fill? table "fr" = some { e with target := ["msgstr \"A\""] } ∧
      (∀ l ∈ e.target, Field.IsEmptyLine l) ∧ Field.strays e.target ≠ [] := by
  intro e table
  have hfill : e.fill? table "fr" = some { e with target := ["msgstr \"A\""] } := by decide
  exact ⟨hfill, (fill?_discards_iff hfill).mpr (by decide), by decide⟩

/-- Targets that say something and are replaced all the same: without a closing quote, with a word
behind it, behind a second keyword, without quotes and with a separator between them. -/
theorem fill?_discards_text :
    let table : Table := { sections := [("fr", [("a", "A")])] }
    ∀ target ∈ ([["msgstr \"Hallo"], ["msgstr \"Hallo\" du"], ["msgstr \"\"", "msgstr \"Hallo\""],
      ["msgstr Hallo"], ["msgstr \"Hal\u2028lo\""]] : List (List Text)),
      let e : Entry := { source := ["msgid \"a\""], target }
      (Catalog.ofText (Text.join ['\n'] e.lines)).entries = [e] ∧
        e.fill? table "fr" = some { e with target := ["msgstr \"A\""] } ∧
        ¬ ∀ l ∈ e.target, Field.IsEmptyLine l := by
  decide

end Entry

end GettextFill
