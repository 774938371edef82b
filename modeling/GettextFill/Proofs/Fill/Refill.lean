import GettextFill.Proofs.Catalog.Reread
import GettextFill.Proofs.Fill.Basic

/-!
# Filling twice

A second fill with the same table should find nothing to do. What it finds is the catalog that the
first one has written, with every line as it was reread (`Catalog.entries_ofText_toText_fill`), so an
entry is due again exactly if its new target reads back as nothing. That is so for two kinds of
targets that a table may hold: the empty one, and one with a separator in it (`Text.isSeparator`).
`FilledText.of_content_iff` says that there are no others.

Texts are left out that are written again and in which a line consists of a keyword and a carriage
return that the written text does not keep (`Catalog.KeepsKeywords`). Such a line is no keyword line
when it is read again, which can change what the entry around it says.
-/

namespace GettextFill

variable {table : Table} {language : Text}

/-- Whether a catalog can be written without a keyword line that loses its only blank. -/
def Catalog.KeepsKeywords (c : Catalog) : Prop :=
  c.ending = .lf → ∀ l ∈ c.stored, ¬ Keyword.IsBareReturn l

instance (c : Catalog) : Decidable c.KeepsKeywords :=
  inferInstanceAs (Decidable (c.ending = .lf → ∀ l ∈ c.stored, ¬ Keyword.IsBareReturn l))

namespace Field

theorem decode_encode_target_eq_nil_iff (v : Text) :
    decode (encode "msgstr" v) = [] ↔ v = [] ∨ v.any Text.isSeparator = true := by
  rw [decode_encode_target]
  by_cases h : v.any Text.isSeparator = true
  · simp [h]
  · simp [h]

end Field

namespace Entry

theorem isDue_mapLines_iff {f : Text → Text} {e : Entry}
    (h : ∀ l ∈ e.lines, SameReading (f l) l) :
    (e.mapLines f).IsDue table language ↔ e.IsDue table language := by
  rw [IsDue, IsDue, isPlural_mapLines h, targetText_mapLines h, sourceText_mapLines h]

/-- A target of one line that was written makes no entry plural. -/
theorem isPlural_of_target_line {e : Entry} (h : e.isPlural = false) (v : Text) :
    ({ e with target := [Field.line "msgstr" v] } : Entry).isPlural = false := by
  rw [isPlural, Bool.or_eq_false_iff] at h ⊢
  refine ⟨h.1, ?_⟩
  rw [List.any_cons, Field.ofLine?_line]
  rfl

/-- After a fill an entry is due if it was before and its translation reads back as nothing. -/
theorem isDue_fill_iff (e : Entry) :
    (e.fill table language).IsDue table language ↔ e.IsDue table language ∧
      ∃ v, table.lookup language e.sourceText = some v ∧
        (v = [] ∨ v.any Text.isSeparator = true) := by
  by_cases hdue : e.IsDue table language
  · obtain ⟨v, hv⟩ := hdue.exists_lookup
    have htarget : (e.fill table language).targetText = Field.decode (Field.encode "msgstr" v) := by
      rw [fill_of_lookup hdue hv]
      rfl
    have hplural : (e.fill table language).isPlural = false := by
      rw [fill_of_lookup hdue hv]
      exact isPlural_of_target_line hdue.1 v
    rw [IsDue, hplural, htarget, Field.decode_encode_target_eq_nil_iff, sourceText_fill]
    constructor
    · rintro ⟨-, hlost, -⟩
      exact ⟨hdue, v, hv, hlost⟩
    · rintro ⟨-, w, hw, hlost⟩
      rw [hv, Option.some.injEq] at hw
      subst hw
      exact ⟨rfl, hlost, hdue.2.2⟩
  · rw [fill_of_not_isDue hdue]
    exact ⟨fun h => absurd h hdue, fun h => absurd h.1 hdue⟩

end Entry

namespace Catalog

/-- A filled catalog can be read again line by line if the catalog before could. -/
theorem sameReading_of_mem_stored_fill {c : Catalog} (h : c.KeepsKeywords) {l : Text}
    (hl : l ∈ (c.fill table language).stored) : SameReading (c.ending.reread l) l := by
  rcases mem_stored_fill hl with hl | ⟨v, rfl⟩
  · exact LineEnding.sameReading_reread fun hlf => h hlf l hl
  · have hlast : (Field.line "msgstr" v).getLast? ≠ some '\r' := by
      rw [Field.getLast?_line]
      decide
    rw [LineEnding.reread_eq_self fun _ => hlast]
    exact .refl _

/-- The entries that a second fill finds. -/
theorem entries_ofText_toText_fill {t : Text} (h : (ofText t).KeepsKeywords)
    (hne : (ofText t).entries ≠ []) :
    (ofText ((ofText t).fill table language).toText).entries =
      ((ofText t).fill table language).entries.map (Entry.mapLines (ofText t).ending.reread) := by
  rw [ofText_toText_eq (ofText_shaped t).fill (blocks_fill_ne_nil hne)
    (fun l hl => newline_not_mem_of_mem_stored_fill hl)
    fun l hl => (sameReading_of_mem_stored_fill h hl).kind]
  rfl

end Catalog

namespace FilledText

/-- What a second fill has to do can be told from the entries of the first one. -/
theorem filled_content_eq_zero_iff {t : Text}
    (h : (FilledText.of table t language).outcome.filled ≠ 0 →
      (Catalog.ofText t).KeepsKeywords) :
    (FilledText.of table (FilledText.of table t language).content language).outcome.filled = 0 ↔
      ∀ e ∈ (Catalog.ofText t).entries, ¬ (e.fill table language).IsDue table language := by
  -- a text in which nothing was filled is not written, so the second fill sees the same text
  by_cases hzero : (FilledText.of table t language).outcome.filled = 0
  · have hdue := (filled_eq_zero_iff t).mp hzero
    rw [content_of_filled_eq_zero hzero]
    refine iff_of_true hzero fun e he => ?_
    rw [Entry.fill_of_not_isDue (hdue e he)]
    exact hdue e he
  · have hne := entries_ne_nil_of_filled_ne_zero hzero
    rw [filled_eq_zero_iff, content_of_filled_ne_zero hzero,
      Catalog.entries_ofText_toText_fill (h hzero) hne, List.forall_mem_map, Catalog.fill,
      List.forall_mem_map]
    refine forall₂_congr fun e he => not_congr (Entry.isDue_mapLines_iff fun l hl => ?_)
    have hmem : l ∈ ((Catalog.ofText t).fill table language).stored :=
      List.mem_append_left _ (List.mem_flatMap.mpr ⟨_, List.mem_map_of_mem he, hl⟩)
    exact Catalog.sameReading_of_mem_stored_fill (h hzero) hmem

/-- A second fill finds nothing and changes nothing exactly if every translation that the first one
used reads back as something: it is not empty and has no separator in it. -/
theorem of_content_iff {table : Table} {t language : Text}
    (h : (FilledText.of table t language).outcome.filled ≠ 0 →
      (Catalog.ofText t).KeepsKeywords) :
    ((FilledText.of table (FilledText.of table t language).content language).outcome.filled = 0 ∧
      (FilledText.of table (FilledText.of table t language).content language).content =
        (FilledText.of table t language).content) ↔
      ∀ e ∈ (Catalog.ofText t).entries, e.IsDue table language →
        ∀ v ∈ table.lookup language e.sourceText, v ≠ [] ∧ v.any Text.isSeparator = false := by
  rw [and_iff_left_of_imp content_of_filled_eq_zero, filled_content_eq_zero_iff h]
  refine forall₂_congr fun e _ => ?_
  rw [Entry.isDue_fill_iff]
  constructor
  · intro hnot hdue v hv
    have hkept : ¬ (v = [] ∨ v.any Text.isSeparator = true) :=
      fun hlost => hnot ⟨hdue, v, hv, hlost⟩
    rw [not_or, Bool.not_eq_true] at hkept
    exact hkept
  · rintro hkept ⟨hdue, v, hv, hlost⟩
    obtain ⟨hne, hseparator⟩ := hkept hdue v hv
    rcases hlost with hnil | hany
    · exact hne hnil
    · rw [hseparator] at hany
      exact Bool.false_ne_true hany

/-- An entry with carriage returns at the ends of its lines, which are lost when it is written. -/
theorem of_content_stable :
    let t : Text := "msgid \"a\"\r\r\nmsgstr \"\"\r\r\n"
    let table : Table := { sections := [("fr", [("a", "b\n")])] }
    (Catalog.ofText t).KeepsKeywords ∧ (FilledText.of table t "fr").outcome.filled = 1 ∧
      (FilledText.of table (FilledText.of table t "fr").content "fr").outcome.filled = 0 ∧
      (FilledText.of table (FilledText.of table t "fr").content "fr").content =
        (FilledText.of table t "fr").content := by
  intro t table
  have hkeeps : (Catalog.ofText t).KeepsKeywords := by decide
  exact ⟨hkeeps, by decide, (of_content_iff fun _ => hkeeps).mpr (by decide)⟩

/-- Three tables that are accepted and fill an entry twice: with an empty translation, with a
separator in it, and with a source that says more when a keyword line has been lost. -/
theorem of_content_refilled :
    let empty : Table := { sections := [("fr", [("a", "")])] }
    let separated : Table := { sections := [("fr", [("a", "x\u2028y")])] }
    let merged : Table := { sections := [("fr", [("c", "C"), ("ab", "X")])] }
    let t : Text := "msgid \"a\"\nmsgstr \"\"\n"
    let bare : Text := "msgid \"c\"\nmsgstr \"\"\n\nmsgid \"a\"\nmsgid\r\r\n\"b\"\nmsgstr \"\"\n"
    Table.ofDocument (.object [("fr", .object [("a", .text "")])]) = .ok empty ∧
      (FilledText.of empty (FilledText.of empty t "fr").content "fr").outcome.filled = 1 ∧
      Table.ofDocument (.object [("fr", .object [("a", .text "x\u2028y")])]) = .ok separated ∧
      (FilledText.of separated (FilledText.of separated t "fr").content "fr").outcome.filled = 1 ∧
      Table.ofDocument (.object [("fr", .object [("c", .text "C"), ("ab", .text "X")])]) =
        .ok merged ∧
      (FilledText.of merged (FilledText.of merged bare "fr").content "fr").outcome.filled = 1 :=
  ⟨rfl, by decide, rfl, by decide, rfl, by decide⟩

end FilledText

end GettextFill
