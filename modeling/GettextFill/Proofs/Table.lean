import GettextFill.Proofs.Dictionary
import GettextFill.Table

/-!
# Reading tables

A document is a table if it is an object of sections that each belong to a language and hold texts
under sources that are not empty (`Document.IsTable`). The reader goes through the fields in order
and stops at the first that has a flaw; `Table.FirstFlaw` says what that is without reading: valid
fields, then one with a flaw, then anything.

Both readers, that of a section and that of all sections, read a list item by item, so each is a
`List.mapM` of what it does to one item, and what is true of every such reader (`mapM_eq_ok_iff`,
`mapM_eq_error_iff`) is used for both. A table that was read determines its document
(`Table.document`). In particular no section has an empty source, so the header of a catalog finds no
target in a table (`Table.lookup_nil`).
-/

namespace GettextFill

/-! ### Lists that are read item by item -/

section

variable {α β ε : Type} {f : α → Except ε β}

theorem mapM_cons_eq_ok_iff {a : α} {as : List α} {bs : List β} :
    (a :: as).mapM f = .ok bs ↔
      ∃ b rest, f a = .ok b ∧ as.mapM f = .ok rest ∧ bs = b :: rest := by
  rw [List.mapM_cons]
  cases f a with
  | error e => exact iff_of_false (by rintro ⟨⟩) (by rintro ⟨b, rest, ⟨⟩, -⟩)
  | ok b =>
      cases as.mapM f with
      | error e => exact iff_of_false (by rintro ⟨⟩) (by rintro ⟨b', rest, -, ⟨⟩, -⟩)
      | ok rest =>
          constructor
          · rintro ⟨⟩
            exact ⟨b, rest, rfl, rfl, rfl⟩
          · rintro ⟨b', rest', ⟨⟩, ⟨⟩, rfl⟩
            rfl

theorem mapM_cons_eq_error_iff {a : α} {as : List α} {e : ε} :
    (a :: as).mapM f = .error e ↔
      f a = .error e ∨ (∃ b, f a = .ok b) ∧ as.mapM f = .error e := by
  rw [List.mapM_cons]
  cases f a with
  | error e' =>
      constructor
      · rintro ⟨⟩
        exact .inl rfl
      · rintro (h | ⟨⟨_, ⟨⟩⟩, -⟩)
        cases h
        rfl
  | ok b =>
      cases as.mapM f with
      | error e' =>
          constructor
          · exact fun h => .inr ⟨⟨b, rfl⟩, h⟩
          · rintro (⟨⟨⟩⟩ | ⟨-, h⟩)
            exact h
      | ok rest => exact iff_of_false (by rintro ⟨⟩) (by rintro (⟨⟨⟩⟩ | ⟨-, ⟨⟩⟩))

/-- Items are read exactly if each of them is what is written for a good value. -/
theorem mapM_eq_ok_iff {write : β → α} {Good : β → Prop}
    (hf : ∀ a b, f a = .ok b ↔ a = write b ∧ Good b) {as : List α} {bs : List β} :
    as.mapM f = .ok bs ↔ as = bs.map write ∧ ∀ b ∈ bs, Good b := by
  induction as generalizing bs with
  | nil =>
      constructor
      · rintro ⟨⟩
        exact ⟨rfl, fun _ hb => absurd hb List.not_mem_nil⟩
      · rintro ⟨hnil, -⟩
        rw [List.map_eq_nil_iff.mp hnil.symm]
        rfl
  | cons a as ih =>
      rw [mapM_cons_eq_ok_iff]
      constructor
      · rintro ⟨b, rest, ha, has, rfl⟩
        obtain ⟨rfl, hgood⟩ := (hf a b).mp ha
        obtain ⟨rfl, hrest⟩ := ih.mp has
        exact ⟨rfl, List.forall_mem_cons.mpr ⟨hgood, hrest⟩⟩
      · rintro ⟨hwritten, hgood⟩
        obtain ⟨b, rest, rfl, rfl, rfl⟩ := List.map_eq_cons_iff.mp hwritten.symm
        obtain ⟨hb, hrest⟩ := List.forall_mem_cons.mp hgood
        exact ⟨b, rest, (hf _ b).mpr ⟨rfl, hb⟩, ih.mpr ⟨rfl, hrest⟩, rfl⟩

/-- Items can be read together if each of them can. -/
theorem exists_mapM_eq_ok_iff {as : List α} :
    (∃ bs, as.mapM f = .ok bs) ↔ ∀ a ∈ as, ∃ b, f a = .ok b := by
  induction as with
  | nil => exact iff_of_true ⟨[], rfl⟩ fun _ ha => absurd ha List.not_mem_nil
  | cons a as ih =>
      rw [List.forall_mem_cons, ← ih]
      constructor
      · rintro ⟨bs, h⟩
        obtain ⟨b, rest, ha, has, -⟩ := mapM_cons_eq_ok_iff.mp h
        exact ⟨⟨b, ha⟩, rest, has⟩
      · rintro ⟨⟨b, ha⟩, rest, has⟩
        exact ⟨b :: rest, mapM_cons_eq_ok_iff.mpr ⟨b, rest, ha, has, rfl⟩⟩

/-- Reading ends at the first item that cannot be read. -/
theorem mapM_eq_error_iff {as : List α} {e : ε} :
    as.mapM f = .error e ↔ ∃ before a after, as = before ++ a :: after ∧
      (∀ x ∈ before, ∃ b, f x = .ok b) ∧ f a = .error e := by
  induction as with
  | nil =>
      constructor
      · rintro ⟨⟩
      · rintro ⟨before, a, after, hnil, -⟩
        cases before <;> cases hnil
  | cons x as ih =>
      rw [mapM_cons_eq_error_iff, ih]
      constructor
      · rintro (hx | ⟨hx, before, a, after, rfl, hbefore, ha⟩)
        · exact ⟨[], x, as, rfl, fun _ hy => absurd hy List.not_mem_nil, hx⟩
        · exact ⟨x :: before, a, after, rfl, List.forall_mem_cons.mpr ⟨hx, hbefore⟩, ha⟩
      · rintro ⟨before, a, after, hsplit, hbefore, ha⟩
        cases before with
        | nil =>
            cases hsplit
            exact .inl ha
        | cons y before =>
            cases hsplit
            obtain ⟨hx, hbefore⟩ := List.forall_mem_cons.mp hbefore
            exact .inr ⟨hx, before, a, after, rfl, hbefore, ha⟩

end

/-! ### Documents of tables -/

namespace Table

/-- What a section holds: a target under a source that is not empty. -/
def IsEntry (source : Text) (value : Document) : Prop := source ≠ [] ∧ ∃ t, value = .text t

/-- What a table holds: a section of entries under a language. -/
def IsSection (language : Text) (value : Document) : Prop :=
  (∃ code, Input.language (some (.text language)) = .ok code) ∧
    ∃ entries, value = .object entries ∧ ∀ p ∈ entries, IsEntry p.1 p.2

end Table

/-- An object of sections. -/
def Document.IsTable (d : Document) : Prop :=
  ∃ sections, d = .object sections ∧ ∀ p ∈ sections, Table.IsSection p.1 p.2

namespace Table

/-- The flaw of an entry of a section. -/
inductive EntryFlaw (language : Text) : Text → Document → TableFlaw → Prop
  | emptySource (value : Document) : EntryFlaw language [] value (.emptySource language)
  | notText {source : Text} {value : Document} (hsource : source ≠ [])
      (hvalue : ∀ t, value ≠ .text t) : EntryFlaw language source value (.notText language source)

/-- The flaw of a section of a table, or that of the first entry of it that has one. -/
inductive SectionFlaw : Text → Document → TableFlaw → Prop
  | notLanguage {language : Text} {value : Document} {flaw : InputFlaw}
      (hlanguage : Input.language (some (.text language)) = .error flaw) :
      SectionFlaw language value (.notLanguage flaw)
  | notSection {language code : Text} {value : Document}
      (hlanguage : Input.language (some (.text language)) = .ok code)
      (hvalue : ∀ entries, value ≠ .object entries) :
      SectionFlaw language value (.notSection language)
  | entry {language code source : Text} {value : Document} {before after : Dictionary Document}
      {flaw : TableFlaw} (hlanguage : Input.language (some (.text language)) = .ok code)
      (hbefore : ∀ p ∈ before, IsEntry p.1 p.2) (hflaw : EntryFlaw language source value flaw) :
      SectionFlaw language (.object (before ++ (source, value) :: after)) flaw

/-- The first flaw of a document in the order of its keys. -/
inductive FirstFlaw : Document → TableFlaw → Prop
  | notMapping {d : Document} (hd : ∀ sections, d ≠ .object sections) : FirstFlaw d .notMapping
  | field {language : Text} {value : Document} {before after : Dictionary Document}
      {flaw : TableFlaw} (hbefore : ∀ p ∈ before, IsSection p.1 p.2)
      (hflaw : SectionFlaw language value flaw) :
      FirstFlaw (.object (before ++ (language, value) :: after)) flaw

end Table

namespace TableFlaw

/-- The keys that a flaw is about: a language, trimmed if it is none, and a source. -/
def keys : TableFlaw → List Text
  | notMapping => []
  | notLanguage (.notLanguage given) => [given]
  | notLanguage _ => []
  | notSection language => [language]
  | emptySource language => [language]
  | notText language source => [language, source]

theorem reason_ne_nil (flaw : TableFlaw) : flaw.reason ≠ [] := by
  cases flaw <;> exact List.cons_ne_nil _ _

/-- The reason that is given for a flaw quotes its keys. -/
theorem quoted_infix_reason {flaw : TableFlaw} {key : Text} (h : key ∈ flaw.keys) :
    '\'' :: key ++ ['\''] <:+: flaw.reason := by
  have hquoted (before after : Text) :
      '\'' :: key ++ ['\''] <:+: (before ++ ['\'']) ++ key ++ '\'' :: after :=
    ⟨before, after, by simp⟩
  cases flaw with
  | notMapping => cases h
  | notLanguage flaw =>
      cases flaw with
      | notLanguage given =>
          cases List.mem_singleton.mp h
          exact hquoted "language is not a valid language code: "
            " (expected e.g. 'de', 'pt_BR', 'sr@latin')"
      | _ => cases h
  | notSection language =>
      cases List.mem_singleton.mp h
      exact hquoted "section " " must map source strings to translations"
  | emptySource language =>
      cases List.mem_singleton.mp h
      exact hquoted "section " " has an empty source string"
  | notText language source =>
      rcases List.mem_pair.mp h with rfl | rfl
      · have hreason := hquoted ("translation of '" ++ source ++ "' in ") " is not a string"
        rw [List.append_assoc _ _ ['\'']] at hreason
        exact hreason
      · have hreason := hquoted "translation of " (" in '" ++ language ++ "' is not a string")
        rw [← List.cons_append, ← List.append_assoc, ← List.cons_append, ← List.append_assoc] at hreason
        exact hreason

end TableFlaw

namespace Table

/-! ### Sections -/

/-- One step of `readSection`. -/
def readEntry (language : Text) : Text × Document → Except TableFlaw (Text × Text)
  | ([], _) => .error (.emptySource language)
  | (source, .text t) => .ok (source, t)
  | (source, _) => .error (.notText language source)

theorem readSection_eq_mapM (language : Text) (d : Dictionary Document) :
    readSection language d = d.mapM (readEntry language) := by
  induction d with
  | nil => rfl
  | cons p d ih =>
      obtain ⟨source, value⟩ := p
      rw [List.mapM_cons, ← ih]
      cases source with
      | nil => cases value <;> rfl
      | cons c source =>
          cases value with
          | text t =>
              change (readSection language d).map ((c :: source, t) :: ·) = _
              cases readSection language d <;> rfl
          | _ => rfl

theorem readEntry_eq_ok_iff (language : Text) (p : Text × Document) (q : Text × Text) :
    readEntry language p = .ok q ↔ p = (q.1, .text q.2) ∧ q.1 ≠ [] := by
  constructor
  · intro h
    unfold readEntry at h
    split at h
    · cases h
    · next source t hsource =>
      cases h
      exact ⟨rfl, hsource⟩
    · cases h
  · rintro ⟨rfl, hsource⟩
    obtain ⟨source, t⟩ := q
    cases source with
    | nil => exact absurd rfl hsource
    | cons c source => rfl

theorem exists_readEntry_eq_ok_iff {language source : Text} {value : Document} :
    (∃ q, readEntry language (source, value) = .ok q) ↔ IsEntry source value := by
  simp only [readEntry_eq_ok_iff]
  constructor
  · rintro ⟨⟨source, t⟩, h, hsource⟩
    cases h
    exact ⟨hsource, t, rfl⟩
  · rintro ⟨hsource, t, rfl⟩
    exact ⟨(source, t), rfl, hsource⟩

theorem readEntry_of_not_text {language source : Text} {value : Document} (hsource : source ≠ [])
    (hvalue : ∀ t, value ≠ .text t) :
    readEntry language (source, value) = .error (.notText language source) := by
  cases source with
  | nil => exact absurd rfl hsource
  | cons c source =>
      cases value with
      | text t => exact absurd rfl (hvalue t)
      | _ => rfl

theorem readEntry_eq_error_iff {language source : Text} {value : Document} {flaw : TableFlaw} :
    readEntry language (source, value) = .error flaw ↔ EntryFlaw language source value flaw := by
  constructor
  · intro h
    by_cases hsource : source = []
    · subst hsource
      cases h
      exact .emptySource value
    · by_cases hvalue : ∃ t, value = .text t
      · obtain ⟨q, hq⟩ := exists_readEntry_eq_ok_iff.mpr ⟨hsource, hvalue⟩
        rw [hq] at h
        cases h
      · rw [readEntry_of_not_text hsource (not_exists.mp hvalue)] at h
        cases h
        exact .notText hsource (not_exists.mp hvalue)
  · intro h
    cases h with
    | emptySource => rfl
    | notText hsource hvalue => exact readEntry_of_not_text hsource hvalue

/-! ### Tables -/

/-- One step of `readSections`. -/
def readField : Text × Document → Except TableFlaw (Text × Dictionary Text)
  | (language, value) =>
    match Input.language (some (.text language)) with
    | .error flaw => .error (.notLanguage flaw)
    | .ok _ =>
      match value with
      | .object entries => (readSection language entries).map fun entries => (language, entries)
      | _ => .error (.notSection language)

theorem readSections_eq_mapM (d : Dictionary Document) : readSections d = d.mapM readField := by
  induction d with
  | nil => rfl
  | cons p d ih =>
      obtain ⟨language, value⟩ := p
      rw [List.mapM_cons, ← ih]
      cases value with
      | object entries =>
          simp only [readSections, readField]
          cases Input.language (some (.text language)) with
          | error flaw => rfl
          | ok code =>
              dsimp only
              cases readSection language entries with
              | error flaw => rfl
              | ok entries => cases readSections d <;> rfl
      | _ =>
          simp only [readSections, readField]
          cases Input.language (some (.text language)) <;> rfl

/-- A section as a part of a document. -/
def sectionDocument (entries : Dictionary Text) : Document := .object (entries.mapValues .text)

/-- The document that a table is read from. -/
def document (table : Table) : Document := .object (table.sections.mapValues sectionDocument)

/-- A section that can be read belongs to a language and has no empty source. -/
def IsProper (p : Text × Dictionary Text) : Prop :=
  (∃ code, Input.language (some (.text p.1)) = .ok code) ∧ ∀ q ∈ p.2, q.1 ≠ []

section

variable {language code : Text} {value : Document}

theorem readField_of_not_language {flaw : InputFlaw}
    (h : Input.language (some (.text language)) = .error flaw) :
    readField (language, value) = .error (.notLanguage flaw) := by
  unfold readField
  dsimp only
  rw [h]

theorem readField_of_object (h : Input.language (some (.text language)) = .ok code)
    (entries : Dictionary Document) :
    readField (language, .object entries) =
      (entries.mapM (readEntry language)).map fun entries => (language, entries) := by
  unfold readField
  dsimp only
  rw [h]
  dsimp only
  rw [readSection_eq_mapM]

theorem readField_of_not_object (h : Input.language (some (.text language)) = .ok code)
    (hvalue : ∀ entries, value ≠ .object entries) :
    readField (language, value) = .error (.notSection language) := by
  unfold readField
  dsimp only
  rw [h]
  cases value with
  | object entries => exact absurd rfl (hvalue entries)
  | _ => rfl

end

theorem map_eq_ok_iff {α β ε : Type} {x : Except ε α} {f : α → β} {b : β} :
    x.map f = .ok b ↔ ∃ a, x = .ok a ∧ f a = b := by
  cases x <;> simp [Except.map]

theorem map_eq_error_iff {α β ε : Type} {x : Except ε α} {f : α → β} {e : ε} :
    x.map f = .error e ↔ x = .error e := by
  cases x <;> simp [Except.map]

theorem readField_eq_ok_iff (p : Text × Document) (q : Text × Dictionary Text) :
    readField p = .ok q ↔ p = (q.1, sectionDocument q.2) ∧ IsProper q := by
  obtain ⟨language, value⟩ := p
  cases hlanguage : Input.language (some (.text language)) with
  | error flaw =>
      rw [readField_of_not_language hlanguage]
      refine iff_of_false (by simp) ?_
      rintro ⟨hp, ⟨code, hcode⟩, -⟩
      cases hp
      rw [hlanguage] at hcode
      cases hcode
  | ok code =>
      by_cases hvalue : ∃ entries, value = .object entries
      · obtain ⟨entries, rfl⟩ := hvalue
        rw [readField_of_object hlanguage, map_eq_ok_iff]
        constructor
        · rintro ⟨read, hread, rfl⟩
          obtain ⟨rfl, hsources⟩ := (mapM_eq_ok_iff (readEntry_eq_ok_iff language)).mp hread
          exact ⟨rfl, ⟨code, hlanguage⟩, hsources⟩
        · rintro ⟨hp, -, hsources⟩
          obtain ⟨_, read⟩ := q
          cases hp
          exact ⟨read, (mapM_eq_ok_iff (readEntry_eq_ok_iff _)).mpr ⟨rfl, hsources⟩, rfl⟩
      · rw [readField_of_not_object hlanguage (not_exists.mp hvalue)]
        refine iff_of_false (by simp) ?_
        rintro ⟨hp, -⟩
        cases hp
        exact hvalue ⟨_, rfl⟩

theorem exists_readField_eq_ok_iff {language : Text} {value : Document} :
    (∃ q, readField (language, value) = .ok q) ↔ IsSection language value := by
  constructor
  · rintro ⟨q, hq⟩
    obtain ⟨hp, hlanguage, hsources⟩ := (readField_eq_ok_iff _ q).mp hq
    cases hp
    refine ⟨hlanguage, _, rfl, fun p hp => ?_⟩
    obtain ⟨r, hr, rfl⟩ := List.mem_map.mp hp
    exact ⟨hsources r hr, r.2, rfl⟩
  · rintro ⟨⟨code, hlanguage⟩, entries, rfl, hentries⟩
    have hread : ∀ p ∈ entries, ∃ q, readEntry language p = .ok q := fun p hp =>
      exists_readEntry_eq_ok_iff.mpr (hentries p hp)
    obtain ⟨read, hread⟩ := exists_mapM_eq_ok_iff.mpr hread
    exact ⟨_, by rw [readField_of_object hlanguage, hread]; rfl⟩

theorem readField_eq_error_iff {language : Text} {value : Document} {flaw : TableFlaw} :
    readField (language, value) = .error flaw ↔ SectionFlaw language value flaw := by
  constructor
  · intro h
    cases hlanguage : Input.language (some (.text language)) with
    | error flaw' =>
        rw [readField_of_not_language hlanguage] at h
        cases h
        exact .notLanguage hlanguage
    | ok code =>
        by_cases hvalue : ∃ entries, value = .object entries
        · obtain ⟨entries, rfl⟩ := hvalue
          rw [readField_of_object hlanguage, map_eq_error_iff] at h
          obtain ⟨before, p, after, rfl, hbefore, hp⟩ := mapM_eq_error_iff.mp h
          exact .entry hlanguage (fun x hx => exists_readEntry_eq_ok_iff.mp (hbefore x hx))
            (readEntry_eq_error_iff.mp hp)
        · rw [readField_of_not_object hlanguage (not_exists.mp hvalue)] at h
          cases h
          exact .notSection hlanguage (not_exists.mp hvalue)
  · intro h
    cases h with
    | notLanguage hlanguage => exact readField_of_not_language hlanguage
    | notSection hlanguage hvalue => exact readField_of_not_object hlanguage hvalue
    | entry hlanguage hbefore hflaw =>
        rw [readField_of_object hlanguage, map_eq_error_iff]
        exact mapM_eq_error_iff.mpr ⟨_, _, _, rfl,
          fun x hx => exists_readEntry_eq_ok_iff.mpr (hbefore x hx),
          readEntry_eq_error_iff.mpr hflaw⟩

/-! ### Whole documents -/

theorem ofDocument_object (sections : Dictionary Document) :
    ofDocument (.object sections) =
      (sections.mapM readField).map fun sections => { sections } := by
  rw [ofDocument, readSections_eq_mapM]

/-- A table can be read from its own document and from no other, if its sections are proper. -/
theorem ofDocument_eq_ok_iff {d : Document} {table : Table} :
    ofDocument d = .ok table ↔ d = table.document ∧ ∀ p ∈ table.sections, IsProper p := by
  cases d with
  | object sections =>
      rw [ofDocument_object, map_eq_ok_iff]
      constructor
      · rintro ⟨read, hread, rfl⟩
        obtain ⟨rfl, hproper⟩ := (mapM_eq_ok_iff readField_eq_ok_iff).mp hread
        exact ⟨rfl, hproper⟩
      · rintro ⟨hd, hproper⟩
        cases hd
        exact ⟨table.sections, (mapM_eq_ok_iff readField_eq_ok_iff).mpr ⟨rfl, hproper⟩, rfl⟩
  | _ => exact iff_of_false (by simp [ofDocument]) (by simp [document])

theorem exists_ofDocument_eq_ok_iff {d : Document} :
    (∃ table, ofDocument d = .ok table) ↔ d.IsTable := by
  cases d with
  | object sections =>
      simp only [ofDocument_object, map_eq_ok_iff]
      constructor
      · rintro ⟨_, read, hread, -⟩
        exact ⟨sections, rfl, fun p hp =>
          exists_readField_eq_ok_iff.mp (exists_mapM_eq_ok_iff.mp ⟨read, hread⟩ p hp)⟩
      · rintro ⟨_, hd, hsections⟩
        cases hd
        obtain ⟨read, hread⟩ := exists_mapM_eq_ok_iff.mpr fun p hp =>
          exists_readField_eq_ok_iff.mpr (hsections p hp)
        exact ⟨_, read, hread, rfl⟩
  | _ => exact iff_of_false (by simp [ofDocument]) (by simp [Document.IsTable])

/-- The flaw that is told is the first one of the document. -/
theorem ofDocument_eq_error_iff {d : Document} {flaw : TableFlaw} :
    ofDocument d = .error flaw ↔ FirstFlaw d flaw := by
  by_cases hd : ∃ sections, d = .object sections
  · obtain ⟨sections, rfl⟩ := hd
    rw [ofDocument_object, map_eq_error_iff, mapM_eq_error_iff]
    constructor
    · rintro ⟨before, p, after, rfl, hbefore, hp⟩
      exact .field (fun x hx => exists_readField_eq_ok_iff.mp (hbefore x hx))
        (readField_eq_error_iff.mp hp)
    · intro h
      cases h with
      | notMapping hd => exact absurd rfl (hd sections)
      | field hbefore hflaw =>
          exact ⟨_, _, _, rfl, fun x hx => exists_readField_eq_ok_iff.mpr (hbefore x hx),
            readField_eq_error_iff.mpr hflaw⟩
  · have hflaw : ofDocument d = .error .notMapping := by
      cases d with
      | object sections => exact absurd ⟨sections, rfl⟩ hd
      | _ => rfl
    rw [hflaw]
    constructor
    · rintro ⟨⟩
      exact .notMapping (not_exists.mp hd)
    · intro h
      cases h with
      | notMapping => rfl
      | field => exact absurd ⟨_, rfl⟩ hd

/-! ### Tables that were read -/

theorem languages_eq (table : Table) : table.languages = table.document.fields.keys :=
  (Dictionary.keys_mapValues sectionDocument table.sections).symm

/-- No table that is accepted translates the empty source. -/
theorem lookup_nil {d : Document} {table : Table} (h : ofDocument d = .ok table)
    (language : Text) : table.lookup language [] = none := by
  obtain ⟨-, hproper⟩ := ofDocument_eq_ok_iff.mp h
  rw [Sections.lookup, Option.bind_eq_none_iff]
  intro entries hentries
  rw [Dictionary.get?_eq_none_iff]
  intro hnil
  obtain ⟨entry, hentry, hsource⟩ := List.mem_map.mp hnil
  exact (hproper _ (Dictionary.mem_of_get? hentries)).2 entry hentry hsource

end Table

end GettextFill
