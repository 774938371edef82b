import GettextFill.Catalog.Entry

/-!
# Stages of reading

While a catalog is read, the entry being gathered is at a stage, and the kind of the next line
decides what becomes of the line and which stage follows. `Stage.transition` is the whole table.

A line that may open an entry seals the one before it when that one has a target, so entries
need no blank line between them. Every line but a blank one is stored or ignored.
-/

namespace GettextFill

/-- How far the entry being gathered has come: nothing yet, comments only, or inside a field. -/
inductive Stage
  | idle
  | comments
  | context
  | source
  | target
  deriving DecidableEq

/-- What becomes of a line. -/
inductive Fate
  /-- A blank line that separates. -/
  | skip
  /-- A blank line that may turn out to stand inside a comment block. -/
  | hold
  /-- A line that belongs to no entry. -/
  | ignore
  /-- A line of the entry; `moved` marks a comment inside a field, which is written above it. -/
  | store (slot : Slot) (moved : Bool)
  deriving DecidableEq

/-- One step: whether the entry gathered so far is complete, the fate of the line, and the stage
after it. -/
structure Transition where
  seals : Bool := false
  fate : Fate
  next : Stage
  deriving DecidableEq

namespace Stage

/-- A line that stays where it is met, in the given part of the entry. -/
private def keep (slot : Slot) (next : Stage) : Transition := { fate := .store slot false, next }

/-- The same after the entry before it is complete. -/
private def reopen (slot : Slot) (next : Stage) : Transition :=
  { seals := true, fate := .store slot false, next }

def transition : Stage → LineKind → Transition
  | idle, .blank => { fate := .skip, next := idle }
  | idle, .comment => keep .comments comments
  | idle, .context => keep .context context
  | idle, .source => keep .source source
  | idle, _ => { fate := .ignore, next := idle }
  | comments, .blank => { fate := .hold, next := comments }
  | comments, .comment => keep .comments comments
  | comments, .context => keep .context context
  | comments, .source => keep .source source
  | comments, _ => { fate := .ignore, next := comments }
  | context, .blank => { fate := .skip, next := context }
  | context, .comment => { fate := .store .comments true, next := context }
  | context, .context => keep .context context
  | context, .source => keep .source source
  | context, .continuation => keep .context context
  | context, _ => { fate := .ignore, next := context }
  | source, .blank => { fate := .skip, next := source }
  | source, .comment => { fate := .store .comments true, next := source }
  | source, .source => keep .source source
  | source, .sourcePlural => keep .source source
  | source, .target => keep .target target
  | source, .continuation => keep .source source
  | source, _ => { fate := .ignore, next := source }
  | target, .blank => { seals := true, fate := .skip, next := idle }
  | target, .comment => reopen .comments comments
  | target, .context => reopen .context context
  | target, .source => reopen .source source
  | target, .target => keep .target target
  | target, .continuation => keep .target target
  | target, _ => { fate := .ignore, next := target }

end Stage

end GettextFill
