import GettextFill.Fill
import GettextFill.Proofs.Catalog.Account
import GettextFill.Proofs.Catalog.Field
import GettextFill.Proofs.Catalog.Reading
import GettextFill.Proofs.Dictionary
import GettextFill.Proofs.Text.Lines

/-!
# What a fill changes

An entry is due if it has no target and no plural and the table holds a target for its source. A
fill replaces the target of every entry that is due by a field of one line and leaves everything
else: `Entry.fill_of_lookup` and `Entry.fill_of_not_isDue`. The new line opens a target, so a filled
catalog is of the same shape as before (`Catalog.Shaped.fill`).

The outcome lists the sources of the entries that were due in the order of the catalog, and the keys
of its targets are these sources without repetition.
-/

namespace GettextFill

variable {table : Table} {language : Text}

/-- Whether a fill gives an entry a target. -/
def Entry.IsDue (table : Table) (language : Text) (e : Entry) : Prop :=
  e.isPlural = false ∧ e.targetText = [] ∧ (table.lookup language e.sourceText).isSome = true

instance (table : Table) (language : Text) : DecidablePred (Entry.IsDue table language) :=
  fun e => inferInstanceAs (Decidable (e.isPlural = false ∧ e.targetText = [] ∧
    (table.lookup language e.sourceText).isSome = true))

namespace Entry

theorem fill?_of_not_isDue {e : Entry} (h : ¬ e.IsDue table language) :
    e.fill? table language = none := by
  unfold fill?
  split
  · rfl
  · next hne =>
    rw [Option.map_eq_none_iff, ← Option.not_isSome_iff_eq_none]
    intro hsome
    simp only [Bool.or_eq_true, Bool.not_eq_true', not_or, Bool.not_eq_true, Bool.not_eq_false,
      List.isEmpty_iff] at hne
    exact h ⟨hne.1, hne.2, hsome⟩

theorem fill?_of_lookup {e : Entry} (h : e.IsDue table language) {v : Text}
    (hv : table.lookup language e.sourceText = some v) :
    e.fill? table language = some { e with target := Field.encode "msgstr" v } := by
  obtain ⟨hplural, htarget, -⟩ := h
  rw [fill?, hplural, htarget, hv]
  rfl

theorem IsDue.exists_lookup {e : Entry} (h : e.IsDue table language) :
    ∃ v, table.lookup language e.sourceText = some v :=
  Option.isSome_iff_exists.mp h.2.2

theorem fill_of_not_isDue {e : Entry} (h : ¬ e.IsDue table language) :
    e.fill table language = e := by
  rw [fill, fill?_of_not_isDue h, Option.getD_none]

theorem fill_of_lookup {e : Entry} (h : e.IsDue table language) {v : Text}
    (hv : table.lookup language e.sourceText = some v) :
    e.fill table language = { e with target := Field.encode "msgstr" v } := by
  rw [fill, fill?_of_lookup h hv, Option.getD_some]

/-- A fill keeps an entry or gives it a target of one line. -/
theorem fill_eq_or (table : Table) (language : Text) (e : Entry) :
    e.fill table language = e ∨
      ∃ v, e.fill table language = { e with target := [Field.line "msgstr" v] } := by
  by_cases h : e.IsDue table language
  · obtain ⟨v, hv⟩ := h.exists_lookup
    exact Or.inr ⟨v, fill_of_lookup h hv⟩
  · exact Or.inl (fill_of_not_isDue h)

@[simp] theorem comments_fill (e : Entry) : (e.fill table language).comments = e.comments := by
  rcases fill_eq_or table language e with h | ⟨v, h⟩ <;> rw [h]

@[simp] theorem context_fill (e : Entry) : (e.fill table language).context = e.context := by
  rcases fill_eq_or table language e with h | ⟨v, h⟩ <;> rw [h]

@[simp] theorem source_fill (e : Entry) : (e.fill table language).source = e.source := by
  rcases fill_eq_or table language e with h | ⟨v, h⟩ <;> rw [h]

@[simp] theorem sourceText_fill (e : Entry) :
    (e.fill table language).sourceText = e.sourceText := by
  rw [sourceText, source_fill, sourceText]

theorem mem_lines_fill {e : Entry} {l : Text} (h : l ∈ (e.fill table language).lines) :
    l ∈ e.lines ∨ ∃ v, l = Field.line "msgstr" v := by
  rcases fill_eq_or table language e with hfill | ⟨v, hfill⟩
  · rw [hfill] at h
    exact Or.inl h
  · rw [hfill, lines, List.mem_append] at h
    rcases h with h | h
    · exact Or.inl (List.mem_append_left _ h)
    · exact Or.inr ⟨v, List.mem_singleton.mp h⟩

theorem target_fill_ne_nil {e : Entry} (h : e.target ≠ []) :
    (e.fill table language).target ≠ [] := by
  rcases fill_eq_or table language e with hfill | ⟨v, hfill⟩
  · rwa [hfill]
  · rw [hfill]
    exact List.cons_ne_nil _ _

theorem Shaped.fill {e : Entry} (h : e.Shaped) : (e.fill table language).Shaped := by
  rcases fill_eq_or table language e with hfill | ⟨v, hfill⟩
  · rwa [hfill]
  · rw [hfill]
    exact { h with target := Or.inr (.singleton (Field.ofLine_line v)) }

end Entry

namespace Catalog

theorem mem_stored_fill {c : Catalog} {l : Text} (h : l ∈ (c.fill table language).stored) :
    l ∈ c.stored ∨ ∃ v, l = Field.line "msgstr" v := by
  rw [stored, List.mem_append, List.mem_flatMap] at h
  rcases h with ⟨e', he', hl⟩ | h
  · obtain ⟨e, he, rfl⟩ := List.mem_map.mp he'
    refine (Entry.mem_lines_fill hl).imp_left fun hl => ?_
    exact List.mem_append_left _ (List.mem_flatMap.mpr ⟨e, he, hl⟩)
  · exact Or.inl (List.mem_append_right _ h)

theorem blocks_fill_ne_nil {c : Catalog} (h : c.entries ≠ []) :
    (c.fill table language).blocks ≠ [] :=
  blocks_ne_nil (Or.inl fun hnil => h (List.map_eq_nil_iff.mp hnil))

/-- No line of a filled catalog has a line feed in it. -/
theorem newline_not_mem_of_mem_stored_fill {t l : Text}
    (h : l ∈ ((ofText t).fill table language).stored) : '\n' ∉ l := by
  rcases mem_stored_fill h with h | ⟨v, rfl⟩
  · exact newline_not_mem_of_mem_stored h
  · exact Field.newline_not_mem_line v

/-- A fill leaves a catalog in shape. -/
theorem Shaped.fill {c : Catalog} (h : c.Shaped) : (c.fill table language).Shaped := by
  refine ⟨?_, ?_, ?_, h.trailing⟩
  · intro e' he'
    obtain ⟨e, he, rfl⟩ := List.mem_map.mp he'
    exact (h.entries e he).fill
  · intro e' he'
    rw [Catalog.fill, ← List.map_dropLast] at he'
    obtain ⟨e, he, rfl⟩ := List.mem_map.mp he'
    exact Entry.target_fill_ne_nil (h.targets e he)
  · intro hne e' he'
    obtain ⟨e, he, rfl⟩ := List.mem_map.mp he'
    exact Entry.target_fill_ne_nil (h.targets_of_trailing hne e he)

/-- Without an entry that is due a fill does nothing. -/
theorem fill_eq_self {c : Catalog} (h : ∀ e ∈ c.entries, ¬ e.IsDue table language) :
    c.fill table language = c := by
  have hmap : c.entries.map (fun e => e.fill table language) = c.entries :=
    (List.map_congr_left fun e he => Entry.fill_of_not_isDue (h e he)).trans (List.map_id' _)
  rw [fill, hmap]

end Catalog

/-! ### The outcome -/

theorem eraseDups_append_singleton (ls : List Text) (a : Text) :
    (ls ++ [a]).eraseDups = if a ∈ ls then ls.eraseDups else ls.eraseDups ++ [a] := by
  rw [List.eraseDups_append]
  by_cases h : a ∈ ls
  · simp [h, List.removeAll]
  · simp [h, List.removeAll, List.eraseDups_cons]

namespace Outcome

theorem filledSources_foldl (o : Outcome) (es : List Entry) :
    (es.foldl add o).filledSources = o.filledSources ++ es.map Entry.sourceText := by
  induction es generalizing o with
  | nil => simp
  | cons e es ih =>
      rw [List.foldl_cons, ih, List.map_cons, List.append_cons]
      rfl

/-- The keys of the targets are the sources that were filled, each once. -/
theorem keys_fills_foldl {o : Outcome} (h : o.fills.keys = o.filledSources.eraseDups)
    (es : List Entry) :
    (es.foldl add o).fills.keys = (es.foldl add o).filledSources.eraseDups := by
  induction es generalizing o with
  | nil => exact h
  | cons e es ih =>
      rw [List.foldl_cons]
      refine ih ?_
      simp only [add, Dictionary.keys_insert, eraseDups_append_singleton, h, List.mem_eraseDups]

end Outcome

namespace Catalog

theorem map_sourceText_filterMap (es : List Entry) :
    (es.filterMap fun e => e.fill? table language).map Entry.sourceText =
      (es.filter fun e => e.IsDue table language).map Entry.sourceText := by
  induction es with
  | nil => rfl
  | cons e es ih =>
      by_cases h : e.IsDue table language
      · obtain ⟨v, hv⟩ := h.exists_lookup
        simp only [List.filterMap_cons, Entry.fill?_of_lookup h hv, List.map_cons, ih,
          List.filter_cons, h, decide_true, if_true]
        rfl
      · simp only [List.filterMap_cons, Entry.fill?_of_not_isDue h, ih, List.filter_cons, h,
          decide_false, Bool.false_eq_true, if_false]

/-- A fill lists the sources of the entries that were due. -/
theorem filledSources_outcome (c : Catalog) :
    (c.outcome table language).filledSources =
      (c.entries.filter fun e => e.IsDue table language).map Entry.sourceText := by
  rw [outcome, Outcome.ofEntries, Outcome.filledSources_foldl, map_sourceText_filterMap]
  rfl

theorem keys_fills_outcome (c : Catalog) :
    (c.outcome table language).fills.keys =
      (c.outcome table language).filledSources.eraseDups :=
  Outcome.keys_fills_foldl rfl _

theorem filled_eq_zero_iff (c : Catalog) :
    (c.outcome table language).filled = 0 ↔ ∀ e ∈ c.entries, ¬ e.IsDue table language := by
  rw [Outcome.filled, filledSources_outcome, List.length_map, List.length_eq_zero_iff,
    List.filter_eq_nil_iff]
  simp

end Catalog

namespace FilledText

/-- A text in which nothing is filled stays as it is. -/
theorem content_of_filled_eq_zero {t : Text}
    (h : (FilledText.of table t language).outcome.filled = 0) :
    (FilledText.of table t language).content = t := if_pos h

theorem content_of_filled_ne_zero {t : Text}
    (h : (FilledText.of table t language).outcome.filled ≠ 0) :
    (FilledText.of table t language).content =
      ((Catalog.ofText t).fill table language).toText := if_neg h

theorem filled_eq_zero_iff (t : Text) : (FilledText.of table t language).outcome.filled = 0 ↔
    ∀ e ∈ (Catalog.ofText t).entries, ¬ e.IsDue table language :=
  Catalog.filled_eq_zero_iff _

theorem entries_ne_nil_of_filled_ne_zero {t : Text}
    (h : (FilledText.of table t language).outcome.filled ≠ 0) :
    (Catalog.ofText t).entries ≠ [] := by
  intro hnil
  refine h ((filled_eq_zero_iff t).mpr fun e he => ?_)
  rw [hnil] at he
  exact absurd he List.not_mem_nil

end FilledText

end GettextFill
