import GettextFill.Proofs.Catalog.RoundTrip
import GettextFill.Proofs.Fill.Basic
import GettextFill.Proofs.Table

/-!
# What a fill preserves

A fill goes from text to text: the catalog is read, filled and written, and who reads the result
finds the catalog that was filled. Nothing that the table holds can open, close or merge an entry on
the way, since a filled target is one line that opens a target and ends in a quote.

For this the lines of the text must survive the writing, which is so if every carriage return in it
belongs to a terminator (`Text.returnsPaired`).
-/

namespace GettextFill

variable {table : Table} {language : Text}

/-- What a fill makes of an entry: the comments, the context and the source stay, and the target of
an entry that is due becomes the field of its translation. -/
structure Entry.Filled (table : Table) (language : Text) (e e' : Entry) : Prop where
  comments : e'.comments = e.comments
  context : e'.context = e.context
  source : e'.source = e.source
  kept : ¬ e.IsDue table language → e'.target = e.target
  /-- The header has no translation, so an entry that is due has a source. -/
  filled : e.IsDue table language → e.sourceText ≠ [] ∧ ∃ v,
    table.lookup language e.sourceText = some v ∧
    e'.target = [("msgstr \"" : Text) ++ escape v ++ ['"']]

/-- What a fill makes of a catalog: every entry is filled in its place. -/
structure Catalog.Filled (table : Table) (language : Text) (c c' : Catalog) : Prop where
  entries : List.Forall₂ (Entry.Filled table language) c.entries c'.entries
  trailing : c'.trailing = c.trailing
  ending : c'.ending = c.ending
  marked : c'.marked = c.marked

theorem Entry.filled_fill {d : Document} (htable : Table.ofDocument d = .ok table) (e : Entry) :
    e.Filled table language (e.fill table language) where
  comments := comments_fill e
  context := context_fill e
  source := source_fill e
  kept := fun h => by rw [fill_of_not_isDue h]
  filled := fun h => by
    obtain ⟨v, hv⟩ := h.exists_lookup
    have hsource : e.sourceText ≠ [] := by
      intro hnil
      rw [hnil, Table.lookup_nil htable] at hv
      cases hv
    refine ⟨hsource, v, hv, ?_⟩
    rw [fill_of_lookup h hv, Field.encode, Field.line]
    simp

theorem Catalog.filled_fill {d : Document} (htable : Table.ofDocument d = .ok table)
    (c : Catalog) (ignored moved : List Nat) :
    c.Filled table language { c.fill table language with ignored, moved } where
  entries := by
    rw [Catalog.fill, List.forall₂_map_right_iff]
    exact List.forall₂_same.mpr fun e _ => e.filled_fill htable
  trailing := rfl
  ending := rfl
  marked := rfl

namespace Catalog

/-- No line of a catalog ends in a carriage return if it was read from a paired text. -/
theorem getLast?_ne_return_of_mem_stored {t : Text} (hpaired : Text.returnsPaired t = true)
    {l : Text} (hl : l ∈ (ofText t).stored) : l.getLast? ≠ some '\r' := by
  intro hlast
  rcases mem_lines_of_mem_stored hl with hl | rfl
  · exact Text.return_not_mem_of_mem_lines (Text.returnsPaired_dropMark hpaired) l hl
      (List.mem_of_getLast? hlast)
  · cases hlast

/-- The text of a filled catalog reads back as that catalog. -/
theorem ofText_toText_fill {t : Text} (hpaired : Text.returnsPaired t = true)
    (hne : (ofText t).entries ≠ []) :
    ofText ((ofText t).fill table language).toText =
      { (ofText t).fill table language with ignored := [], moved := [] } := by
  refine ofText_toText_of_clean (ofText_shaped t).fill (blocks_fill_ne_nil hne)
    (fun l hl => newline_not_mem_of_mem_stored_fill hl) ?_
  intro _ l hl
  rcases mem_stored_fill hl with hl | ⟨v, rfl⟩
  · exact getLast?_ne_return_of_mem_stored hpaired hl
  · rw [Field.getLast?_line]
    decide

end Catalog

namespace FilledText

/-- The content after a fill holds the filled catalog, whether or not it was written again. -/
theorem ofText_content {t : Text} (hpaired : Text.returnsPaired t = true) (table : Table)
    (language : Text) :
    ∃ ignored moved, Catalog.ofText (FilledText.of table t language).content =
      { (Catalog.ofText t).fill table language with ignored, moved } := by
  by_cases hzero : (FilledText.of table t language).outcome.filled = 0
  · refine ⟨(Catalog.ofText t).ignored, (Catalog.ofText t).moved, ?_⟩
    rw [content_of_filled_eq_zero hzero, Catalog.fill_eq_self ((filled_eq_zero_iff t).mp hzero)]
  · refine ⟨[], [], ?_⟩
    rw [content_of_filled_ne_zero hzero,
      Catalog.ofText_toText_fill hpaired (entries_ne_nil_of_filled_ne_zero hzero)]

/-- A fill of a text changes the targets of the entries that are due and nothing else that can be
read from it, and it reports exactly these entries. -/
theorem of_filled {t : Text} (hpaired : Text.returnsPaired t = true) {d : Document}
    (htable : Table.ofDocument d = .ok table) (language : Text) :
    (Catalog.ofText t).Filled table language
      (Catalog.ofText (FilledText.of table t language).content) ∧
    (FilledText.of table t language).outcome.filledSources =
      ((Catalog.ofText t).entries.filter fun e => e.IsDue table language).map Entry.sourceText ∧
    (FilledText.of table t language).outcome.fills.keys =
      (FilledText.of table t language).outcome.filledSources.eraseDups := by
  refine ⟨?_, Catalog.filledSources_outcome _, Catalog.keys_fills_outcome _⟩
  obtain ⟨ignored, moved, hcontent⟩ := ofText_content hpaired table language
  rw [hcontent]
  exact Catalog.filled_fill htable _ ignored moved

/-- A comment inside a field, entries without a blank line between them, one source twice and a
translation that has a quote and a line feed in it. -/
theorem of_filled_repeated :
    let t : Text := "msgid \"a\"\n# c\nmsgstr \"\"\nmsgid \"b\"\nmsgstr \"B\"\r\n\r\nmsgid \"a\"\n"
    let d : Document := .object [("fr", .object [("a", .text "x\"\n")])]
    let table : Table := { sections := [("fr", [("a", "x\"\n")])] }
    Text.returnsPaired t = true ∧ Table.ofDocument d = .ok table ∧
      (Catalog.ofText t).Filled table "fr" (Catalog.ofText (FilledText.of table t "fr").content) ∧
      (FilledText.of table t "fr").outcome.filledSources = ["a", "a"] ∧
      (FilledText.of table t "fr").outcome.fills.keys = ["a"] := by
  intro t d table
  have hpaired : Text.returnsPaired t = true := by decide
  have htable : Table.ofDocument d = .ok table := rfl
  obtain ⟨hfilled, hsources, hkeys⟩ := of_filled hpaired htable "fr"
  refine ⟨hpaired, htable, hfilled, ?_, ?_⟩
  · rw [hsources]
    decide
  · rw [hkeys, hsources]
    decide

end FilledText

end GettextFill
