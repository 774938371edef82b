import GettextFill.Document

/-!
# Fields over defaults

Settings come from several sources, each of which gives way to the one before it. `mergeFields` lays
fields over defaults: a field that is null gives way, lists are joined with those of the defaults at
the end, objects are merged field by field, and any other value takes the place of the default. The
fields of the defaults keep their places.
-/

namespace GettextFill.Settings

/-- The names of fields that no source can give: they belong to every object. -/
def isReserved (key : Text) : Bool := key = "__proto__" || key = "constructor"

mutual

def mergeFields (defaults : Dictionary Document) : List (Text × Document) → Dictionary Document
  | [] => defaults
  | (key, d) :: rest =>
    match isReserved key, d with
    | true, _ => mergeFields defaults rest
    | _, .null => mergeFields defaults rest
    | _, _ => mergeFields (defaults.put key (mergeValue d (defaults.get? key))) rest

def mergeValue : Document → Option Document → Document
  | .list items, some (.list more) => .list (items ++ more)
  | .object fields, some (.object defaults) => .object (mergeFields defaults fields)
  | d, _ => d

end

end GettextFill.Settings
