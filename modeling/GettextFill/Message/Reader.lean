import GettextFill.Message.Token
import GettextFill.Readers

/-!
# Reading messages

Messages are gathered from tokens: strings that follow one another are one text, a key takes the
strings after it, and a source key opens a message that the keys after it complete. The messages of
each context are then put on a shelf.

Keys are compared without regard to case here. A key that was not checked, because the text ended
with it, may be in any case.
-/

namespace GettextFill

/-- A key with its text. -/
structure Clause where
  key : Text
  value : Text := []
  obsolete : Bool := false
  /-- Whether a comment stands directly before the key. -/
  commented : Bool := false
  deriving DecidableEq

/-- Why a text cannot be read as messages. -/
inductive Unreadable
  | unknownKey (key : UnknownKey)
  /-- A comment before a key that completes a message while there is none. -/
  | strayComment
  /-- A header without a target. -/
  | bareHeader
  deriving DecidableEq

namespace Unreadable

/-- What the reader says of a missing part that it looks into. -/
def missingPart (part : Text) : Text :=
  "Cannot read properties of undefined (reading '" ++ part ++ "')"

def text : Unreadable → Text
  | unknownKey key =>
    ("Error parsing PO data: Invalid key name \"" : Text) ++ key.name ++ "\" at line " ++
      Text.ofNat key.line ++
      ". This can be caused by an unescaped quote character in a msgid or msgstr value."
  | strayComment => missingPart "comments"
  | bareHeader => missingPart "0"

end Unreadable

namespace Clause

/-- The clauses of the tokens that follow; `commented` says whether a comment was the last token,
`last` is the clause that strings still belong to. -/
def gather (commented : Bool) (last : Option Clause) : List Token → List Clause
  | [] => last.toList
  | .key name obsolete :: rest =>
    last.toList ++ gather false (some { key := name, obsolete, commented }) rest
  | .string value :: rest =>
    gather false (last.map fun clause => { clause with value := clause.value ++ value }) rest
  | .comment _ :: rest => gather true last rest

def ofTokens (tokens : List Token) : List Clause := gather false none tokens

end Clause

namespace Message

/-- Messages in the making: those that are complete, the one that keys complete, and the context
waiting for its source. -/
structure Gathering where
  complete : List Message := []
  current : Option Message := none
  context : Text := []
  contextCommented : Bool := false
  deriving DecidableEq

def Gathering.amend (g : Gathering) (clause : Clause) (change : Message → Message) :
    Except Unreadable Gathering :=
  match g.current with
  | some m =>
    let m := change m
    .ok { g with
      current := some { m with commented := m.commented || clause.commented }
      context := []
      contextCommented := false }
  | none =>
    if clause.commented then .error .strayComment
    else .ok { g with context := [], contextCommented := false }

def Gathering.take (g : Gathering) (clause : Clause) : Except Unreadable Gathering :=
  let key := Text.toLower clause.key
  if key = "msgctxt" then
    .ok { g with context := clause.value, contextCommented := clause.commented }
  else if key = "msgid" then
    .ok
      { complete := g.complete ++ g.current.toList
        current := some
          { source := clause.value
            context := g.context
            commented := g.contextCommented || clause.commented
            obsolete := clause.obsolete } }
  else if key = "msgid_plural" then
    g.amend clause fun m => { m with sourcePlural := some clause.value }
  else if Text.startsWith "msgstr" key then
    g.amend clause fun m => { m with targets := some (m.targets.getD [] ++ [clause.value]) }
  else .ok g

def Gathering.takeAll (g : Gathering) : List Clause → Except Unreadable Gathering
  | [] => .ok g
  | clause :: rest =>
    match g.take clause with
    | .ok g => takeAll g rest
    | .error e => .error e

def ofTokens (tokens : List Token) : Except Unreadable (List Message) :=
  (Gathering.takeAll {} (Clause.ofTokens tokens)).map fun g => g.complete ++ g.current.toList

end Message

namespace Shelf

/-- Shelves in the making, and whether the header has been met. -/
structure Filing where
  shelves : Dictionary Shelf := []
  header : Bool := false

/-- File a message under its context. Obsolete messages are left out. The first message without
context and source is the header, and a header has to have a target. What is put into a context with a
reserved name is on no shelf; whether it can be found from others is not looked into. -/
def Filing.add (f : Filing) (m : Message) : Except Unreadable Filing :=
  if m.obsolete then .ok f
  else
    let opensHeader := !f.header && m.context.isEmpty && m.source.isEmpty
    if opensHeader && m.targets.isNone then .error .bareHeader
    else
      let f := { f with header := f.header || opensHeader }
      if Dictionary.isReserved m.context then .ok f
      else
        let shelf := ((f.shelves.get? m.context).getD {}).store m
        .ok { f with shelves := f.shelves.put m.context shelf }

def Filing.addAll (f : Filing) : List Message → Except Unreadable Filing
  | [] => .ok f
  | m :: rest =>
    match f.add m with
    | .ok f => addAll f rest
    | .error e => .error e

/-- The shelves of a text, in the order of documents of their contexts. -/
def ofText (t : Text) : Except Unreadable (List Shelf) :=
  match Token.ofText t with
  | .error key => .error (.unknownKey key)
  | .ok tokens =>
    match Message.ofTokens tokens with
    | .error e => .error e
    | .ok messages => (Filing.addAll {} messages).map fun f => f.shelves.values

end Shelf

/-- A text that is read message by message, with the messages of each context on a shelf. -/
def CatalogReading.ofText (t : Text) : CatalogReading :=
  match Shelf.ofText t with
  | .error reason => unreadable reason.text
  | .ok shelves => contexts (shelves.map Shelf.lookup)

theorem CatalogReading.isShelved_ofText (t : Text) : (ofText t).IsShelved := by
  rw [ofText]
  cases Shelf.ofText t with
  | error reason => trivial
  | ok shelves => exact ⟨shelves, rfl⟩

end GettextFill
