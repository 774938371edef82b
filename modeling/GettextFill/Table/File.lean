import GettextFill.Document.Json
import GettextFill.Files
import GettextFill.Readers
import GettextFill.Table

/-!
# Table files

A table file is a document in one of two formats, which the extension of its path tells apart.
`Table.read` reads it; what cannot be read as a document is told apart from a document that is no
table only by the reason that the fault gives.
-/

namespace GettextFill

/-- How documents are written in a table file. -/
inductive TableFormat
  | json
  | yaml
  deriving DecidableEq

namespace TableFormat

def ofPath (path : Text) : TableFormat :=
  let extension := Text.toLower (Path.extension path)
  if extension = ".yaml" || extension = ".yml" then yaml else json

variable [Readers]

/-- The document in the text of a file of the given path, or why there is none. -/
def read (path t : Text) : TableFormat → Except Text Document
  | json => (Json.read? t).elim (.error "<syntax error>") .ok
  | yaml => Readers.yaml path t

end TableFormat

namespace Table

variable {m : Type → Type} [Monad m] [Host m] [Readers]

def ofText (path t : Text) : Except Fault Table :=
  match (TableFormat.ofPath path).read path t with
  | .error reason => .error (.tableInvalid path reason)
  | .ok d => load path d

def read (path : Text) : m (Except Fault Table) := do
  if !(← pathExists path) then return .error (.tableNotFound path)
  match ← readText path none with
  | .error f => return .error f
  | .ok t => return ofText path t

end Table

end GettextFill
