import GettextFill.Dictionary
import GettextFill.Message.Basic

/-!
# Shelves of messages

The messages of one context stand on a shelf of their own, under their sources. A shelf answers for
more names than it holds. The reserved names belong to every shelf and lead to things without
targets; and a message whose source is the name `__proto__` is not put on the shelf but stands behind
it, so that the names of its parts are answered from it as well.

`Shelf.lookup` tells the three cases apart: nothing under a name, a target, or a thing that has
none. The last is what makes a check of targets break off.
-/

namespace GettextFill

/-- The messages of one context. -/
structure Shelf where
  messages : Dictionary Message := []
  /-- The message that stands behind the shelf. -/
  behind : Option Message := none

/-- What is found under a name. -/
inductive Lookup
  | absent
  | target (text : Text)
  /-- Something that has no targets. -/
  | untranslatable
  deriving DecidableEq

namespace Shelf

/-- The name under which a message stands behind the shelf. -/
def behindName : Text := "__proto__"

/-- Whether a message has a part of the given name. -/
def hasPart (m : Message) (name : Text) : Bool :=
  name = "msgid" || (name = "msgctxt" && !m.context.isEmpty) ||
    (name = "comments" && m.commented) ||
    (name = "msgid_plural" && m.sourcePlural.isSome) || (name = "msgstr" && m.targets.isSome)

def firstTarget (m : Message) : Lookup :=
  match m.targets with
  | some (t :: _) => .target t
  | _ => .untranslatable

/-- Put a message on the shelf, or behind it. A later message replaces an earlier one. -/
def store (s : Shelf) (m : Message) : Shelf :=
  if m.source = behindName then { s with behind := some m }
  else { s with messages := s.messages.insert m.source m }

def lookup (s : Shelf) (name : Text) : Lookup :=
  match s.messages.get? name with
  | some m => firstTarget m
  | none =>
    match s.behind with
    | some m =>
      if name = behindName then firstTarget m
      else if hasPart m name || Dictionary.isReserved name then .untranslatable
      else .absent
    | none => if Dictionary.isReserved name then .untranslatable else .absent

end Shelf

end GettextFill
