import GettextFill.Proofs.Catalog.Parts
import GettextFill.Proofs.Fill.Discard
import GettextFill.Proofs.Table
import Mathlib.Data.List.TakeWhile

/-!
# Sources that are malformed

A source can be damaged: a line has neither of the two shapes of field lines, or a second keyword
follows where the text should go on. Reading passes over the one and ends before the other, so what
is looked up in a table may be a part of what the catalog says.

`Field.mended` is the source as it is read: the lines of the right shapes before the next keyword,
below an empty first line if the one that is there has not its shape. It has the same text
(`Field.decode_mended`) and is never malformed. So a malformed entry meets the same fate as its
mended form, and it is safe from all tables only if nothing on it can be read
(`Entry.fill?_of_isMalformed`).
-/

namespace GettextFill

namespace Field

/-- Whether a source has a line in neither of the shapes of field lines, or a second keyword of a
source behind its first line. -/
def IsMalformed (ls : List Text) : Prop :=
  (∃ l ∈ ls, keywordLine? l = none ∧ continuationLine? l = none) ∨
    ∃ l ∈ ls.tail, Keyword.ofLine? l = some .source

instance : DecidablePred IsMalformed := fun ls =>
  inferInstanceAs (Decidable ((∃ l ∈ ls, keywordLine? l = none ∧ continuationLine? l = none) ∨
    ∃ l ∈ ls.tail, Keyword.ofLine? l = some .source))

/-- The lines behind the first one that the text of a field is taken from. -/
def mendedBehind (ls : List Text) : List Text :=
  (ls.takeWhile fun l => (Keyword.ofLine? l).isNone).filter fun l => (continuationLine? l).isSome

/-- A source without the lines that its text is not taken from. -/
def mended : List Text → List Text
  | [] => []
  | line :: rest =>
    (if (keywordLine? line).isSome then line else Field.line "msgid" []) :: mendedBehind rest

/-! ### The text of what is mended -/

theorem mendedBehind_cons (line : Text) (rest : List Text) :
    mendedBehind (line :: rest) =
      if (Keyword.ofLine? line).isSome then []
      else if (continuationLine? line).isSome then line :: mendedBehind rest
      else mendedBehind rest := by
  rw [mendedBehind, List.takeWhile_cons]
  cases Keyword.ofLine? line with
  | some k => rfl
  | none => cases h : continuationLine? line <;> simp [mendedBehind, h]

theorem mem_mendedBehind {l : Text} {ls : List Text} (h : l ∈ mendedBehind ls) :
    l ∈ ls ∧ Keyword.ofLine? l = none ∧ (continuationLine? l).isSome = true := by
  obtain ⟨htake, hshape⟩ := List.mem_filter.mp h
  exact ⟨(List.takeWhile_subset _) htake, by simpa using List.mem_takeWhile_imp htake, hshape⟩

theorem decodeContinuation_mendedBehind (ls : List Text) :
    decodeContinuation (mendedBehind ls) = decodeContinuation ls := by
  induction ls with
  | nil => rfl
  | cons line ls ih =>
      rw [mendedBehind_cons, decodeContinuation_cons line ls]
      split
      · rfl
      · next hkeyword =>
        split
        · rw [decodeContinuation_cons, if_neg hkeyword, ih]
        · next hshape =>
          rw [Bool.not_eq_true, Option.isSome_eq_false_iff, Option.isNone_iff_eq_none] at hshape
          rw [hshape, ih]
          rfl

/-- What is left out of a source when it is mended has not been read before either. -/
theorem decode_mended (ls : List Text) : decode (mended ls) = decode ls := by
  cases ls with
  | nil => rfl
  | cons line ls =>
      rw [mended, decode_cons, decode_cons, decodeContinuation_mendedBehind]
      split
      · rfl
      · next hshape =>
        rw [Bool.not_eq_true, Option.isSome_eq_false_iff, Option.isNone_iff_eq_none] at hshape
        rw [hshape]
        rfl

/-! ### The shape of what is mended -/

theorem mem_mended {l : Text} {ls : List Text} (h : l ∈ mended ls) :
    l ∈ ls ∨ Keyword.ofLine? l = some .source := by
  cases ls with
  | nil => exact absurd h List.not_mem_nil
  | cons line ls =>
      rw [mended, List.mem_cons] at h
      rcases h with rfl | h
      · split
        · exact Or.inl List.mem_cons_self
        · exact Or.inr rfl
      · exact Or.inl (List.mem_cons_of_mem line (mem_mendedBehind h).1)

theorem not_isMalformed_mended (ls : List Text) : ¬ IsMalformed (mended ls) := by
  cases ls with
  | nil => simp [mended, IsMalformed]
  | cons line ls =>
      rw [mended]
      rintro (⟨l, hl, hkeyword, hcontinuation⟩ | ⟨l, hl, hsource⟩)
      · rcases List.mem_cons.mp hl with rfl | hl
        · split at hkeyword
          · next hshape => simp [hkeyword] at hshape
          · cases hkeyword
        · have hshape := (mem_mendedBehind hl).2.2
          rw [hcontinuation] at hshape
          cases hshape
      · rw [(mem_mendedBehind hl).2.1] at hsource
        cases hsource

/-- The lines of a source are still those of a source when it is mended. -/
theorem isFieldText_mended {ls : List Text} (h : IsFieldText .source ls) :
    IsFieldText .source (mended ls) := by
  obtain ⟨line, rest, rfl, hopens, hrest⟩ := h
  refine ⟨_, _, rfl, ?_, fun l hl => hrest l (mem_mendedBehind hl).1⟩
  split
  · exact hopens
  · exact ⟨.source, rfl, Keyword.ofLine?_eq_some_iff.mp rfl⟩

end Field

namespace Entry

variable {table : Table} {language : Text}

/-- An entry with its source mended. -/
def mended (e : Entry) : Entry := { e with source := Field.mended e.source }

theorem sourceText_mended (e : Entry) : e.mended.sourceText = e.sourceText :=
  Field.decode_mended e.source

theorem isPlural_mended {e : Entry} (h : e.isPlural = false) : e.mended.isPlural = false := by
  rw [isPlural, Bool.or_eq_false_iff, List.any_eq_false] at h ⊢
  refine ⟨fun l hl => ?_, h.2⟩
  rcases Field.mem_mended hl with hmem | hsource
  · exact h.1 l hmem
  · simp [hsource]

theorem fill?_eq_none_iff {e : Entry} :
    e.fill? table language = none ↔ ¬ e.IsDue table language := by
  constructor
  · intro hnone hdue
    obtain ⟨v, hv⟩ := hdue.exists_lookup
    rw [fill?_of_lookup hdue hv] at hnone
    cases hnone
  · exact fill?_of_not_isDue

/-- An entry is filled exactly if it is not plural and its mended form is. -/
theorem isDue_iff_mended {e : Entry} :
    e.IsDue table language ↔ e.isPlural = false ∧ e.mended.IsDue table language := by
  constructor
  · intro h
    refine ⟨h.1, isPlural_mended h.1, h.2.1, ?_⟩
    rw [sourceText_mended]
    exact h.2.2
  · rintro ⟨hplural, -, htarget, hlookup⟩
    rw [sourceText_mended] at hlookup
    exact ⟨hplural, htarget, hlookup⟩

/-- There is an accepted table for every source that is not empty. -/
theorem exists_table_of_ne_nil {source : Text} (h : source ≠ []) :
    ∃ d table, Table.ofDocument d = .ok table ∧ (table.lookup "fr" source).isSome = true := by
  obtain ⟨c, t, rfl⟩ := List.exists_cons_of_ne_nil h
  refine ⟨.object [("fr", .object [(c :: t, .text "A")])],
    { sections := [("fr", [(c :: t, "A")])] }, rfl, ?_⟩
  simp [Sections.lookup, Dictionary.get?]

/-- An entry whose source is malformed is left alone exactly if it is plural or its mended form is
left alone. No table at all fills it only if it is plural or has a target or nothing of its source
can be read. -/
theorem fill?_of_isMalformed {t : Text} {e : Entry} (he : e ∈ (Catalog.ofText t).entries)
    (h : Field.IsMalformed e.source) :
    (IsFieldText .source e.mended.source ∧ ¬ Field.IsMalformed e.mended.source ∧ e.mended ≠ e) ∧
      (∀ table language,
        e.fill? table language = none ↔
          e.isPlural = true ∨ e.mended.fill? table language = none) ∧
      ((∀ d table, Table.ofDocument d = .ok table → ∀ language, e.fill? table language = none) ↔
        e.isPlural = true ∨ e.targetText ≠ [] ∨ e.mended.sourceText = []) := by
  have hfield : IsFieldText .source e.source := ((Catalog.ofText_parts t).1 e he).1
  have hsound : ¬ Field.IsMalformed e.mended.source := Field.not_isMalformed_mended e.source
  refine ⟨⟨Field.isFieldText_mended hfield, hsound, ?_⟩, ?_, ?_⟩
  · intro hsame
    rw [hsame] at hsound
    exact hsound h
  · intro table language
    rw [fill?_eq_none_iff, fill?_eq_none_iff, isDue_iff_mended, not_and_or, Bool.not_eq_false]
  · rw [sourceText_mended]
    constructor
    · intro hnever
      by_contra hread
      simp only [not_or, Bool.not_eq_true, ne_eq, not_not] at hread
      obtain ⟨hplural, htarget, hsource⟩ := hread
      obtain ⟨d, table, htable, hlookup⟩ := exists_table_of_ne_nil hsource
      exact fill?_eq_none_iff.mp (hnever d table htable "fr") ⟨hplural, htarget, hlookup⟩
    · rintro hsafe d table htable language
      refine fill?_eq_none_iff.mpr fun hdue => ?_
      rcases hsafe with hplural | htarget | hsource
      · rw [hdue.1] at hplural
        cases hplural
      · exact htarget hdue.2.1
      · -- an accepted table has nothing for the empty source
        have hlookup := hdue.2.2
        rw [hsource, Table.lookup_nil htable language] at hlookup
        cases hlookup

/-- A source of which nothing can be read: its quotes are not closed, and then another one follows. -/
theorem fill?_of_isMalformed_illegible :
    let t : Text := "msgid \"a\nmsgid \"b\"\n\"c\"\nmsgstr \"\"\n"
    let e : Entry :=
      { source := ["msgid \"a", "msgid \"b\"", "\"c\""], target := ["msgstr \"\""] }
    e ∈ (Catalog.ofText t).entries ∧ Field.IsMalformed e.source ∧
      ∀ d table, Table.ofDocument d = .ok table → ∀ language, e.fill? table language = none := by
  intro t e
  have he : e ∈ (Catalog.ofText t).entries := by decide
  have hmalformed : Field.IsMalformed e.source := by decide
  exact ⟨he, hmalformed, (fill?_of_isMalformed he hmalformed).2.2.mpr (by decide)⟩

/-- Sources that match a part of what they say: with quotes that are not closed, with a second
source, with a first line without quotes, with a word behind the quotes and with a separator between
them. -/
theorem fill?_malformed_matches :
    let d : Document := .object [("fr", .object [("a", .text "A")])]
    let table : Table := { sections := [("fr", [("a", "A")])] }
    Table.ofDocument d = .ok table ∧
      ∀ source ∈ ([["msgid \"a\"", "\"b"], ["msgid \"a\"", "msgid \"b\""], ["msgid b", "\"a\""],
        ["msgid \"a\"", "\"b\" c"], ["msgid \"b\u2028\"", "\"a\""]] : List (List Text)),
        let e : Entry := { source, target := ["msgstr \"\""] }
        (Catalog.ofText (Text.join ['\n'] e.lines)).entries = [e] ∧ Field.IsMalformed e.source ∧
          e.fill? table "fr" = some { e with target := ["msgstr \"A\""] } := by
  intro d table
  exact ⟨rfl, by decide⟩

end Entry

end GettextFill
