import GettextFill.Fill

/-!
# Filling from sections that were not checked

Sections that callers have made themselves may hold values that are no texts. Such a value counts as
something to fill in, but filling breaks off at the first entry that would get one. An entry that is
not fit is one of these; `Catalog.fillWhileFit` fills the entries before the first of them.
-/

namespace GettextFill

def Table.sectionsOf (table : Table) : Sections Document :=
  { sections := table.sections.mapValues fun entries => entries.mapValues Document.text }

namespace Sections

/-- The table in which a value that is no text is the empty text. -/
def asTable (s : Sections Document) : Table :=
  { sections := s.sections.mapValues fun entries => entries.mapValues fun d => d.text?.getD [] }

/-- Whether sections hold nothing but a text for a source, if they hold anything. -/
def holdsText (s : Sections Document) (language source : Text) : Bool :=
  ((s.lookup language source).map fun d => d.text?.isSome).getD true

end Sections

/-- Whether an entry would not be filled with a value that is no text. -/
def Entry.isFit (e : Entry) (s : Sections Document) (language : Text) : Bool :=
  (e.fill? s.asTable language).isNone || s.holdsText language e.sourceText

namespace Catalog

/-- Whether a fill of a catalog does not break off. -/
def isFit (c : Catalog) (s : Sections Document) (language : Text) : Bool :=
  c.entries.all fun e => e.isFit s language

/-- A catalog after a fill that breaks off at the first entry that is not fit. -/
def fillWhileFit (c : Catalog) (s : Sections Document) (language : Text) : Catalog :=
  let fit (e : Entry) : Bool := e.isFit s language
  { c with
    entries := (c.entries.takeWhile fit).map (fun e => e.fill s.asTable language) ++
      c.entries.dropWhile fit }

end Catalog

def FilledText.ofSections? (s : Sections Document) (t language : Text) : Option FilledText :=
  if (Catalog.ofText t).isFit s language then some (FilledText.of s.asTable t language) else none

end GettextFill
