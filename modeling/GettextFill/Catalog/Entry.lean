import GettextFill.Catalog.Line

/-!
# Entries

An entry pairs a source, the text that a program has, with a target, the text that stands for it in
the language of the catalog. It keeps the lines it was read from as they are, so writing it back
changes nothing that was not asked for. An empty text among the comments stands for one blank line
inside the block.
-/

namespace GettextFill

/-- One record of a catalog. -/
structure Entry where
  /-- Comment lines; an empty one is a blank line between comments. -/
  comments : List Text := []
  /-- The lines of the context field; none if the entry has no context. -/
  context : List Text := []
  /-- The lines of the source field, and those of the plural source after them. -/
  source : List Text := []
  /-- The lines of the target, or of its plural forms. -/
  target : List Text := []
  deriving DecidableEq

/-- The parts of an entry that hold lines. -/
inductive Slot
  | comments
  | context
  | source
  | target
  deriving DecidableEq

namespace Entry

/-- An entry with one more line in the given part. -/
def push (e : Entry) (slot : Slot) (line : Text) : Entry :=
  match slot with
  | .comments => { e with comments := e.comments ++ [line] }
  | .context => { e with context := e.context ++ [line] }
  | .source => { e with source := e.source ++ [line] }
  | .target => { e with target := e.target ++ [line] }

/-- The lines of an entry in the order in which they are written. -/
def lines (e : Entry) : List Text := e.comments ++ e.context ++ e.source ++ e.target

/-- A plural entry has a plural source or a numbered target. -/
def isPlural (e : Entry) : Bool :=
  e.source.any (fun line => Keyword.ofLine? line = some .sourcePlural) ||
    e.target.any (fun line => ((Keyword.ofLine? line).map Keyword.isForm).getD false)

/-- The source text of an entry; empty for the header. -/
def sourceText (e : Entry) : Text := Field.decode e.source

/-- The target of an entry; empty if it has none. -/
def targetText (e : Entry) : Text := Field.decode e.target

/-- The context of an entry; empty if it has none. -/
def contextText (e : Entry) : Text := Field.decode e.context

end Entry

end GettextFill
