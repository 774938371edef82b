import GettextFill.Document
import GettextFill.Message.Shelf

/-!
# Readers of formats

A run reads two formats by rules that are not its own: a catalog as the tools that use catalogs read
it, when a filled text is checked, and a document in YAML, when a table is. `Readers` lists what a run
asks of them, so that a run is a program for any two readers.

Nothing is known of a reader of catalogs but what it is asked for: the contexts of a text, and what
each of them answers for a source.
-/

namespace GettextFill

/-- What the text of a catalog comes to when it is read. -/
inductive CatalogReading
  | unreadable (reason : Text)
  /-- The text was read, but its contexts cannot be listed. -/
  | unlistable
  /-- The contexts in order, each with what is found in it under a source. -/
  | contexts (lookups : List (Text → Lookup))

/-- The readers of formats. -/
class Readers where
  catalog : Text → CatalogReading
  /-- The document in a file of the given path, or why there is none. -/
  yaml : (path : Text) → Text → Except Text Document

/-- The contexts are shelves of messages under their sources, and a text that was read has them. -/
def CatalogReading.IsShelved : CatalogReading → Prop
  | .unreadable _ => True
  | .unlistable => False
  | .contexts lookups => ∃ shelves : List Shelf, lookups = shelves.map Shelf.lookup

end GettextFill
