import GettextFill.Fault
import GettextFill.Input

/-!
# Tables

A table holds, for every language, a section that maps sources to targets. `Table.ofDocument`
accepts exactly the documents of that shape, with codes for languages and without an empty source:
the empty source is the header of a catalog, which is never filled from a table.

`Sections.ofParts?` takes a document as it is. It is for callers that have made the document
themselves, so its values need not be texts.
-/

namespace GettextFill

/-- Values of sources, language by language. -/
structure Sections (α : Type) where
  sections : Dictionary (Dictionary α) := []

/-- A table of targets. -/
abbrev Table := Sections Text

namespace Sections

variable {α : Type}

def languages (s : Sections α) : List Text := s.sections.keys

def hasLanguage (s : Sections α) (language : Text) : Bool := s.sections.contains language

def lookup (s : Sections α) (language source : Text) : Option α :=
  (s.sections.get? language).bind fun entries => entries.get? source

def size (s : Sections α) (language : Text) : Nat := ((s.sections.get? language).getD []).length

def total (s : Sections α) : Nat := (s.languages.map s.size).foldl (· + ·) 0

/-- The languages of a run: those that are asked for, or all if none is. -/
def chosen (s : Sections α) (asked : List Text) : List Text :=
  if asked.isEmpty then s.languages else asked

/-- The parts of every part of a document; none if null is asked for its parts. -/
def ofParts? (d : Document) : Option (Sections Document) :=
  (d.parts?.bind each).map fun sections => { sections }
where
  /-- The parts of every section. -/
  each : Dictionary Document → Option (Dictionary (Dictionary Document))
    | [] => some []
    | (language, d) :: rest =>
      match d.parts?, each rest with
      | some entries, some rest => some ((language, entries) :: rest)
      | _, _ => none

end Sections

/-- Why a document is no table. -/
inductive TableFlaw
  | notMapping
  | notLanguage (flaw : InputFlaw)
  | notSection (language : Text)
  | emptySource (language : Text)
  | notText (language source : Text)
  deriving DecidableEq

def TableFlaw.reason : TableFlaw → Text
  | notMapping => "top level must be a mapping of language code to translations"
  | notLanguage flaw => "language " ++ flaw.reason
  | notSection language =>
    ("section '" : Text) ++ language ++ "' must map source strings to translations"
  | emptySource language => ("section '" : Text) ++ language ++ "' has an empty source string"
  | notText language source =>
    ("translation of '" : Text) ++ source ++ "' in '" ++ language ++ "' is not a string"

namespace Table

def readSection (language : Text) : Dictionary Document → Except TableFlaw (Dictionary Text)
  | [] => .ok []
  | (source, d) :: rest =>
    if source.isEmpty then .error (.emptySource language)
    else
      match d with
      | .text t => (readSection language rest).map ((source, t) :: ·)
      | _ => .error (.notText language source)

/-- The sections of a table. The first flaw in the order of the document is reported. -/
def readSections : Dictionary Document → Except TableFlaw (Dictionary (Dictionary Text))
  | [] => .ok []
  | (language, d) :: rest =>
    match Input.language (some (.text language)) with
    | .error flaw => .error (.notLanguage flaw)
    | .ok _ =>
      match d with
      | .object entries =>
        match readSection language entries with
        | .error flaw => .error flaw
        | .ok entries => (readSections rest).map ((language, entries) :: ·)
      | _ => .error (.notSection language)

def ofDocument : Document → Except TableFlaw Table
  | .object sections => (readSections sections).map fun sections => { sections }
  | _ => .error .notMapping

/-- The table that a document is; `name` is where the document comes from. -/
def load (name : Text) (d : Document) : Except Fault Table :=
  match ofDocument d with
  | .ok table => .ok table
  | .error flaw => .error (.tableInvalid name flaw.reason)

end Table

end GettextFill
