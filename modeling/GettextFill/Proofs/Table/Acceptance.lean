import GettextFill.Proofs.Document.Json
import GettextFill.Proofs.Table
import Mathlib

/-!
# What a table answers

A table that was read is as large as its document and finds what stands there: with distinct keys,
which every document in JSON has (`Json.hasDistinctKeys_of_read?`), there is one section for each
language and one target for each source in it. `Table.load_iff` says which documents are accepted,
what their tables answer and why the others are refused.
-/

namespace GettextFill.Table

/-! ### Refusals -/

theorem load_eq_ok_iff {name : Text} {d : Document} {table : Table} :
    load name d = .ok table ↔ ofDocument d = .ok table := by
  unfold load
  cases ofDocument d <;> simp

theorem load_eq_error_iff {name : Text} {d : Document} {fault : Fault} :
    load name d = .error fault ↔
      ∃ flaw, ofDocument d = .error flaw ∧ fault = .tableInvalid name flaw.reason := by
  unfold load
  cases ofDocument d with
  | ok table => simp
  | error flaw => simp [eq_comm]

/-- The fault that a document is refused with tells the reason at the end of its message. -/
theorem suffix_message_tableInvalid {reason : Text} (h : reason ≠ []) (name : Text) :
    reason <:+ (Fault.tableInvalid name reason).message := by
  let details : Document := .object [("filePath", .text name), ("reason", .text reason)]
  have hreason : FaultKind.quote details "reason" "unknown" = reason :=
    FaultKind.quote_of_text rfl h _
  have hmessage : (Fault.tableInvalid name reason).message =
      ("Invalid translation table " : Text) ++ FaultKind.quote details "filePath" "unknown" ++ ": " ++
        FaultKind.quote details "reason" "unknown" := rfl
  rw [hmessage, hreason]
  exact List.suffix_append _ _

/-! ### What a table answers -/

section

variable {table : Table}

/-- The section of a language, as the table and as its document hold it. -/
theorem get?_sections_iff (hd : table.document.HasDistinctKeys) {language : Text}
    {entries : Dictionary Document} :
    (language, .object entries) ∈ table.document.fields ↔
      ∃ read, table.sections.get? language = some read ∧ entries = read.mapValues .text := by
  rw [← Dictionary.get?_eq_some_iff hd.1, document, Document.fields, Dictionary.get?_mapValues,
    Option.map_eq_some_iff]
  simp only [sectionDocument, Document.object.injEq, eq_comm]

theorem nodup_keys_of_mem {d : Document} (hd : d.HasDistinctKeys) {language : Text}
    {entries : Dictionary Document} (h : (language, .object entries) ∈ d.fields) :
    entries.keys.Nodup :=
  hd.2 (.object entries) (List.mem_map.mpr ⟨_, h, rfl⟩)

theorem size_eq (hd : table.document.HasDistinctKeys) {language : Text}
    {entries : Dictionary Document} (h : (language, .object entries) ∈ table.document.fields) :
    table.size language = entries.keys.toFinset.card := by
  have hkeys := nodup_keys_of_mem hd h
  obtain ⟨read, hread, rfl⟩ := (get?_sections_iff hd).mp h
  rw [List.toFinset_card_of_nodup hkeys, Dictionary.keys_mapValues, Sections.size, hread]
  exact (List.length_map _).symm

theorem size_eq_zero {language : Text} (h : language ∉ table.document.fields.keys) :
    table.size language = 0 := by
  rw [← languages_eq] at h
  rw [Sections.size, Dictionary.get?_eq_none_iff.mpr h]
  rfl

/-- A look-up finds the texts of the document and nothing else. -/
theorem lookup_eq_some_iff (hd : table.document.HasDistinctKeys) {language source v : Text} :
    table.lookup language source = some v ↔
      ∃ entries, (language, .object entries) ∈ table.document.fields ∧
        (source, .text v) ∈ entries := by
  rw [Sections.lookup, Option.bind_eq_some_iff]
  constructor
  · rintro ⟨read, hread, hv⟩
    refine ⟨_, (get?_sections_iff hd).mpr ⟨read, hread, rfl⟩, ?_⟩
    exact List.mem_map.mpr ⟨(source, v), Dictionary.mem_of_get? hv, rfl⟩
  · rintro ⟨entries, hentries, hv⟩
    have hkeys := nodup_keys_of_mem hd hentries
    obtain ⟨read, hread, rfl⟩ := (get?_sections_iff hd).mp hentries
    rw [← Dictionary.get?_eq_some_iff hkeys, Dictionary.get?_mapValues,
      Option.map_eq_some_iff] at hv
    obtain ⟨w, hw, hwv⟩ := hv
    cases hwv
    exact ⟨read, hread, hw⟩

end

/-- A document is accepted exactly if it is a table. The table then lists its keys, counts the keys
of its sections and finds its texts and nothing else. A document that is not accepted is refused for
its first flaw, and the message quotes the keys that the flaw is about. -/
theorem load_iff {d : Document} (hd : d.HasDistinctKeys) (name : Text) :
    ((∃ table, load name d = .ok table) ↔ d.IsTable) ∧
      (∀ table, load name d = .ok table →
        table.languages = d.fields.keys ∧
        (∀ language (entries : Dictionary Document), (language, .object entries) ∈ d.fields →
          table.size language = entries.keys.toFinset.card) ∧
        (∀ language, language ∉ d.fields.keys → table.size language = 0) ∧
        ∀ language source v, table.lookup language source = some v ↔
          ∃ entries, (language, .object entries) ∈ d.fields ∧ (source, .text v) ∈ entries) ∧
      ∀ fault, load name d = .error fault ↔
        ∃ flaw, FirstFlaw d flaw ∧ fault = .tableInvalid name flaw.reason ∧
          fault.code = "ERR_TABLE_INVALID" ∧
          ∀ key ∈ flaw.keys, '\'' :: key ++ ['\''] <:+: fault.message := by
  simp only [load_eq_ok_iff, load_eq_error_iff, ofDocument_eq_error_iff]
  refine ⟨exists_ofDocument_eq_ok_iff, fun table h => ?_, fun fault => ?_⟩
  · obtain ⟨rfl, -⟩ := ofDocument_eq_ok_iff.mp h
    exact ⟨table.languages_eq, fun _ _ => size_eq hd, fun _ => size_eq_zero,
      fun _ _ _ => lookup_eq_some_iff hd⟩
  · constructor
    · rintro ⟨flaw, hflaw, rfl⟩
      have hmessage := suffix_message_tableInvalid flaw.reason_ne_nil name
      exact ⟨flaw, hflaw, rfl, rfl, fun key hkey =>
        (TableFlaw.quoted_infix_reason hkey).trans hmessage.isInfix⟩
    · rintro ⟨flaw, hflaw, hfault, -⟩
      exact ⟨flaw, hflaw, hfault⟩

/-- A source may have a name that every object answers, and other such names are not found. -/
theorem load_iff_reserved :
    ∃ d table,
      Json.read? "\x7b\"fr\": \x7b\"__proto__\": \"P\", \"a\": \"A\", \"a\": \"B\"\x7d\x7d" = some d ∧
      d.HasDistinctKeys ∧ load "table.json" d = .ok table ∧ table.languages = ["fr"] ∧
      table.size "fr" = 2 ∧ table.lookup "fr" "__proto__" = some "P" ∧
      table.lookup "fr" "a" = some "B" ∧ table.lookup "fr" "toString" = none := by
  let entries : Dictionary Document := [("__proto__", .text "P"), ("a", .text "B")]
  let d : Document := .object [("fr", .object entries)]
  have hread : Json.read?
      "\x7b\"fr\": \x7b\"__proto__\": \"P\", \"a\": \"A\", \"a\": \"B\"\x7d\x7d" = some d := by cbv
  have hd : d.HasDistinctKeys := Json.hasDistinctKeys_of_read? hread
  obtain ⟨haccepted, hanswers, -⟩ := load_iff hd "table.json"
  have hentries : ∀ p ∈ entries, IsEntry p.1 p.2 := by
    simp [entries, IsEntry]
  have hsection : IsSection "fr" (.object entries) := ⟨⟨"fr", rfl⟩, entries, rfl, hentries⟩
  obtain ⟨table, htable⟩ := haccepted.mpr ⟨_, rfl, List.forall_mem_singleton.mpr hsection⟩
  obtain ⟨hlanguages, hsize, -, hlookup⟩ := hanswers table htable
  refine ⟨d, table, hread, hd, htable, hlanguages, hsize "fr" entries List.mem_cons_self,
    (hlookup ..).mpr ⟨entries, List.mem_cons_self, List.mem_cons_self⟩,
    (hlookup ..).mpr ⟨entries, List.mem_cons_self, by simp [entries]⟩, ?_⟩
  rw [Option.eq_none_iff_forall_ne_some]
  intro v hv
  obtain ⟨found, hfound, hv⟩ := (hlookup ..).mp hv
  cases List.mem_singleton.mp hfound
  simp [entries] at hv

end GettextFill.Table
