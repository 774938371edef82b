import GettextFill.Message.Reader
import GettextFill.Yaml.Node

/-!
# The readers of a run

The readers that the program is run with. They are those of `Message.Reader` and of `Yaml.Node`, and
nothing but the program and runs on given inputs hangs on them.
-/

namespace GettextFill

instance standardReaders : Readers where
  catalog := CatalogReading.ofText
  yaml _ t := (Yaml.read? t).elim (.error "<syntax error>") .ok

end GettextFill
