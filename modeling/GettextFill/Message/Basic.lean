import GettextFill.Text

/-!
# Messages

A message is what the tools that use catalogs see of an entry: its source, its context and its
targets, of which there are several if it has plural forms.
-/

namespace GettextFill

/-- A message of a catalog. -/
structure Message where
  source : Text
  /-- Empty if the message has no context. -/
  context : Text := []
  sourcePlural : Option Text := none
  /-- The targets in order; none if no target key follows the source. -/
  targets : Option (List Text) := none
  commented : Bool := false
  obsolete : Bool := false
  deriving DecidableEq

end GettextFill
