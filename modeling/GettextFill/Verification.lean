import GettextFill.Readers

/-!
# Verification

A filled catalog is read again the way other tools read it, and every target that was filled in has
to be found under its source, in any context. `verify` lists what is not found.

`verify` has no answer when the search comes upon a name that leads to something without targets
before it finds what it looks for; `verify_eq_none_iff` says exactly when.
-/

namespace GettextFill

/-- What reading a catalog again has shown. -/
structure Verification where
  problems : List Text
  deriving DecidableEq

namespace Verification

def valid (v : Verification) : Bool := v.problems.isEmpty

/-- Look for a target in one context after the other; no answer if a context has something without
targets under the name. -/
def find? (source expected : Text) : List (Text → Lookup) → Option Bool
  | [] => some false
  | context :: rest =>
    match context source with
    | .untranslatable => none
    | .target t => if t = expected then some true else find? source expected rest
    | .absent => find? source expected rest

def notFound (source expected : Text) : Text :=
  '\'' :: source ++ "' does not read back as '" ++ expected ++ ['\'']

def unreadable (reason : Text) : Text := "gettext-parser could not read the catalog: " ++ reason

/-- The problems of looking for every target. -/
def search (contexts : List (Text → Lookup)) : Dictionary Text → Option (List Text)
  | [] => some []
  | (source, expected) :: rest =>
    match find? source expected contexts with
    | none => none
    | some true => search contexts rest
    | some false => (search contexts rest).map (notFound source expected :: ·)

theorem search_eq_none_iff (contexts : List (Text → Lookup)) (fills : Dictionary Text) :
    search contexts fills = none ↔ ∃ fill ∈ fills, find? fill.1 fill.2 contexts = none := by
  induction fills with
  | nil => simp [search]
  | cons fill rest ih =>
      obtain ⟨source, expected⟩ := fill
      rw [search]
      cases h : find? source expected contexts with
      | none => simp [h]
      | some b => cases b <;> simp [h, ih]

end Verification

variable [Readers]

/-- Read a text again and look for what was filled in. -/
def verify (t : Text) (fills : Dictionary Text) : Option Verification :=
  match Readers.catalog (Text.dropMark t) with
  | .unreadable reason => some { problems := [Verification.unreadable reason] }
  | .unlistable => none
  | .contexts contexts =>
    (Verification.search contexts fills).map fun problems => { problems }

namespace Verification

/-- The check breaks off exactly when the text can be read and its contexts cannot be listed or the
search for some fill breaks off. -/
theorem verify_eq_none_iff (t : Text) (fills : Dictionary Text) :
    verify t fills = none ↔
      Readers.catalog (Text.dropMark t) = .unlistable ∨
        ∃ contexts, Readers.catalog (Text.dropMark t) = .contexts contexts ∧
          ∃ fill ∈ fills, find? fill.1 fill.2 contexts = none := by
  unfold verify
  cases Readers.catalog (Text.dropMark t) with
  | unreadable reason => simp
  | unlistable => simp
  | contexts contexts => simp [search_eq_none_iff]

end Verification

end GettextFill
