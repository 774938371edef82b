import GettextFill.Catalog.Basic
import GettextFill.Table

/-!
# Filling

A fill gives the entries of a catalog that have no target the one that a table holds for them, and
touches nothing else. A plural entry is left alone, and so is every entry with a target.

`Entry.fill?` decides and fills one entry, `Catalog.fill` all of a catalog; `Outcome` lists what was
filled. `Catalog.status` counts what there is to fill. `FilledText.of` goes from text to text: a
text in which nothing was filled is not written again.
-/

namespace GettextFill

/-- The entry with the target that a table holds for it, if it is to be filled. -/
def Entry.fill? (e : Entry) (table : Table) (language : Text) : Option Entry :=
  if e.isPlural || !e.targetText.isEmpty then none
  else
    (table.lookup language e.sourceText).map fun t =>
      { e with target := Field.encode "msgstr" t }

def Entry.fill (e : Entry) (table : Table) (language : Text) : Entry :=
  (e.fill? table language).getD e

/-- What a fill has done. -/
structure Outcome where
  /-- The sources of the entries that were filled, in the order of the catalog. -/
  filledSources : List Text := []
  /-- The target of every source that was filled, as it reads back. -/
  fills : Dictionary Text := []
  deriving DecidableEq

namespace Outcome

def filled (o : Outcome) : Nat := o.filledSources.length

def add (o : Outcome) (e : Entry) : Outcome :=
  { filledSources := o.filledSources ++ [e.sourceText],
    fills := o.fills.insert e.sourceText e.targetText }

/-- The outcome of filling entries one after the other. -/
def ofEntries (entries : List Entry) : Outcome := entries.foldl add {}

end Outcome

/-- How far a catalog is translated. The header counts nowhere. -/
structure Status where
  entries : Nat := 0
  translated : Nat := 0
  untranslated : Nat := 0
  plural : Nat := 0
  /-- Untranslated entries that a fill would fill. -/
  fillable : Nat := 0
  deriving DecidableEq

def Status.count (s : Status) (table : Table) (language : Text) (e : Entry) : Status :=
  if e.sourceText.isEmpty then s
  else if e.isPlural then { s with entries := s.entries + 1, plural := s.plural + 1 }
  else if !e.targetText.isEmpty then
    { s with entries := s.entries + 1, translated := s.translated + 1 }
  else
    { s with
      entries := s.entries + 1, untranslated := s.untranslated + 1,
      fillable :=
        if (table.lookup language e.sourceText).isSome then s.fillable + 1 else s.fillable }

namespace Catalog

def fill (c : Catalog) (table : Table) (language : Text) : Catalog :=
  { c with entries := c.entries.map fun e => e.fill table language }

def outcome (c : Catalog) (table : Table) (language : Text) : Outcome :=
  Outcome.ofEntries (c.entries.filterMap fun e => e.fill? table language)

def status (c : Catalog) (table : Table) (language : Text) : Status :=
  c.entries.foldl (fun s e => s.count table language e) {}

end Catalog

/-- A text that was filled. -/
structure FilledText where
  catalog : Catalog
  outcome : Outcome
  content : Text
  /-- What there is to fill after the fill. -/
  remaining : Status

/-- Fill a text. If there is nothing to fill, the text stays as it is, down to its line endings. -/
def FilledText.of (table : Table) (t : Text) (language : Text) : FilledText :=
  let before := Catalog.ofText t
  let catalog := before.fill table language
  let outcome := before.outcome table language
  { catalog, outcome, content := if outcome.filled = 0 then t else catalog.toText,
    remaining := catalog.status table language }

end GettextFill
