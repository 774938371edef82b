import GettextFill.Fill
import GettextFill.Proofs.Dictionary
import GettextFill.Readers.Standard
import GettextFill.Verification
import Mathlib.Data.List.Basic

/-!
# When the check of a filled text breaks off

The check looks for the target of every source that was filled in one context after the other, and it
has no answer once a context has something without targets under the source
(`Verification.find?_eq_none_iff`, for contexts of any kind).

Contexts are shelves as a rule, whatever reader has read them. `Shelf.Misleads` lists what a shelf can
have without targets: a message, one of the reserved names, and a part of the message that stands
behind the shelf. `FilledText.verify_breaksOff_iff` says that the check breaks off exactly if some
source is looked for on such a shelf before its target is found.
-/

namespace GettextFill

namespace Shelf

/-- Whether the first target of a message is missing. -/
def IsBare (m : Message) : Prop := firstTarget m = .untranslatable

/-- A shelf has something without targets under a source. -/
inductive Misleads (s : Shelf) (source : Text) : Prop
  /-- A message of the source that has no target. -/
  | message (m : Message) : s.messages.get? source = some m → IsBare m → Misleads s source
  /-- The message behind the shelf, if it has no target. -/
  | behind (m : Message) : s.messages.get? source = none → s.behind = some m →
      source = behindName → IsBare m → Misleads s source
  /-- A part of the message behind the shelf. -/
  | part (m : Message) : s.messages.get? source = none → s.behind = some m →
      source ≠ behindName → hasPart m source = true → Misleads s source
  /-- A reserved name, unless it is that of the message behind the shelf. -/
  | reserved : s.messages.get? source = none → Dictionary.isReserved source = true →
      (source = behindName → s.behind = none) → Misleads s source

theorem lookup_eq_untranslatable_iff (s : Shelf) (source : Text) :
    s.lookup source = .untranslatable ↔ s.Misleads source := by
  constructor
  · intro h
    rw [lookup] at h
    cases hm : s.messages.get? source with
    | some m =>
        rw [hm] at h
        exact .message m hm h
    | none =>
        rw [hm] at h
        dsimp only at h
        cases hb : s.behind with
        | none =>
            rw [hb] at h
            dsimp only at h
            split at h
            · next hreserved => exact .reserved hm hreserved fun _ => hb
            · cases h
        | some m =>
            rw [hb] at h
            dsimp only at h
            split at h
            · next hname => exact .behind m hm hb hname h
            · next hname =>
              split at h
              · next hor =>
                rcases Bool.or_eq_true_iff.mp hor with hpart | hreserved
                · exact .part m hm hb hname hpart
                · exact .reserved hm hreserved fun hsource => absurd hsource hname
              · cases h
  · intro h
    cases h with
    | message m hm hbare =>
        rw [lookup, hm]
        exact hbare
    | behind m hm hb hname hbare =>
        rw [lookup, hm, hb]
        dsimp only
        rw [if_pos hname]
        exact hbare
    | part m hm hb hname hpart =>
        rw [lookup, hm, hb]
        dsimp only
        rw [if_neg hname, hpart, Bool.true_or, if_pos rfl]
    | reserved hm hreserved hname =>
        rw [lookup, hm]
        cases hb : s.behind with
        | none => exact if_pos hreserved
        | some m =>
            have hne : source ≠ behindName := fun hsource => by
              rw [hname hsource] at hb
              cases hb
            dsimp only
            rw [if_neg hne, hreserved, Bool.or_true, if_pos rfl]

end Shelf

/-! ### The search -/

namespace Verification

/-- The search breaks off at something without targets, unless the target was found before. -/
theorem find?_eq_none_iff (source expected : Text) (contexts : List (Text → Lookup)) :
    find? source expected contexts = none ↔
      ∃ before context after, contexts = before ++ context :: after ∧
        context source = .untranslatable ∧ ∀ c ∈ before, c source ≠ .target expected := by
  induction contexts with
  | nil => simp [find?]
  | cons first rest ih =>
      rw [find?]
      constructor
      · intro h
        cases hl : first source with
        | untranslatable =>
            exact ⟨[], first, rest, rfl, hl, fun c hc => absurd hc List.not_mem_nil⟩
        | absent =>
            rw [hl] at h
            obtain ⟨before, context, after, rfl, hcontext, hbefore⟩ := ih.mp h
            refine ⟨first :: before, context, after, rfl, hcontext, ?_⟩
            rw [List.forall_mem_cons, hl]
            exact ⟨Lookup.noConfusion, hbefore⟩
        | target t =>
            rw [hl] at h
            dsimp only at h
            split at h
            · cases h
            · next hne =>
              obtain ⟨before, context, after, rfl, hcontext, hbefore⟩ := ih.mp h
              refine ⟨first :: before, context, after, rfl, hcontext, ?_⟩
              rw [List.forall_mem_cons, hl]
              exact ⟨fun h => hne (Lookup.target.inj h), hbefore⟩
      · rintro ⟨before, context, after, hsplit, hcontext, hbefore⟩
        cases before with
        | nil =>
            obtain ⟨rfl, rfl⟩ := List.cons.inj hsplit
            rw [hcontext]
        | cons b before =>
            obtain ⟨rfl, rfl⟩ := List.cons.inj hsplit
            rw [List.forall_mem_cons] at hbefore
            have hrest := ih.mpr ⟨before, context, after, rfl, hcontext, hbefore.2⟩
            cases hl : first source with
            | untranslatable => rfl
            | absent => exact hrest
            | target t =>
                have hne : t ≠ expected := fun he => hbefore.1 (he ▸ hl)
                dsimp only
                rw [if_neg hne]
                exact hrest

/-- The search breaks off at a shelf that misleads, unless the target was found before. -/
theorem find?_lookup_eq_none_iff (source expected : Text) (shelves : List Shelf) :
    find? source expected (shelves.map Shelf.lookup) = none ↔
      ∃ before shelf after, shelves = before ++ shelf :: after ∧ shelf.Misleads source ∧
        ∀ s ∈ before, s.lookup source ≠ .target expected := by
  rw [find?_eq_none_iff]
  constructor
  · rintro ⟨before, context, after, hsplit, hcontext, hbefore⟩
    obtain ⟨before, rest, rfl, rfl, hrest⟩ := List.map_eq_append_iff.mp hsplit
    obtain ⟨shelf, after, rfl, rfl, rfl⟩ := List.map_eq_cons_iff.mp hrest
    exact ⟨before, shelf, after, rfl, (shelf.lookup_eq_untranslatable_iff source).mp hcontext,
      fun s hs => hbefore s.lookup (List.mem_map_of_mem hs)⟩
  · rintro ⟨before, shelf, after, rfl, hmisleads, hbefore⟩
    refine ⟨before.map Shelf.lookup, shelf.lookup, after.map Shelf.lookup, ?_,
      (shelf.lookup_eq_untranslatable_iff source).mpr hmisleads, ?_⟩
    · rw [List.map_append, List.map_cons]
    · intro context hcontext
      obtain ⟨s, hs, rfl⟩ := List.mem_map.mp hcontext
      exact hbefore s hs

end Verification

namespace FilledText

/-- If the contexts of a filled text are shelves, its check breaks off exactly if the text can be read
and, for some source that was filled, a shelf misleads about it before its target is found. -/
theorem verify_breaksOff_iff [Readers] {table : Table} {t language : Text}
    (hshelved : (Readers.catalog
      (Text.dropMark (FilledText.of table t language).content)).IsShelved) :
    verify (FilledText.of table t language).content
        (FilledText.of table t language).outcome.fills = none ↔
      ∃ shelves : List Shelf,
        Readers.catalog (Text.dropMark (FilledText.of table t language).content) =
            .contexts (shelves.map Shelf.lookup) ∧
          ∃ fill ∈ (FilledText.of table t language).outcome.fills, ∃ before shelf after,
            shelves = before ++ shelf :: after ∧ shelf.Misleads fill.1 ∧
              ∀ s ∈ before, s.lookup fill.1 ≠ .target fill.2 := by
  rw [Verification.verify_eq_none_iff]
  simp only [← Verification.find?_lookup_eq_none_iff]
  constructor
  · rintro (hunlistable | ⟨contexts, hcontexts, hfill⟩)
    · rw [hunlistable] at hshelved
      exact hshelved.elim
    · rw [hcontexts] at hshelved
      obtain ⟨shelves, rfl⟩ := hshelved
      exact ⟨shelves, hcontexts, hfill⟩
  · rintro ⟨shelves, hshelves, hfill⟩
    exact .inr ⟨shelves.map Shelf.lookup, hshelves, hfill⟩

/-- A reserved name that is looked for in a context that does not have it. -/
theorem verify_breaksOff_iff_toString :
    let table : Table := { sections := [("fr", [("toString", "A")])] }
    let t : Text := "msgctxt \"m\"\nmsgid \"x\"\nmsgstr \"y\"\n\nmsgid \"toString\"\nmsgstr \"\"\n"
    let f : FilledText := .of table t "fr"
    (Readers.catalog (Text.dropMark f.content)).IsShelved ∧
      verify f.content f.outcome.fills = none ∧
      ∃ shelves : List Shelf,
        Readers.catalog (Text.dropMark f.content) = .contexts (shelves.map Shelf.lookup) ∧
          ∃ fill ∈ f.outcome.fills, ∃ before shelf after,
            shelves = before ++ shelf :: after ∧ shelf.Misleads fill.1 ∧
              ∀ s ∈ before, s.lookup fill.1 ≠ .target fill.2 := by
  intro table t f
  have hshelved : (Readers.catalog (Text.dropMark f.content)).IsShelved :=
    CatalogReading.isShelved_ofText _
  have hnone : verify f.content f.outcome.fills = none := by decide +kernel
  exact ⟨hshelved, hnone, (verify_breaksOff_iff hshelved).mp hnone⟩

/-- Texts with an entry whose check breaks off though its target is written: a reserved name after
another context, a message without a target in another context, and the name of a part of the
message that stands behind a shelf. -/
theorem verify_breaksOff_reserved :
    let reserved : Text := "msgctxt \"m\"\nmsgid \"x\"\nmsgstr \"y\"\n\nmsgid \"toString\"\nmsgstr \"\"\n"
    let bare : Text := "msgctxt \"m\"\nmsgid \"x\"\nmsgstr \"y\"\n\nmsgid \"a\"\nmsgstr \"\"\n\n" ++
        "msgctxt \"m\"\nmsgid \"a\"\nmsgid_plural \"b\"\n"
    let behind : Text := "msgctxt \"m\"\nmsgid \"__proto__\"\nmsgstr \"y\"\n\nmsgid \"msgid\"\nmsgstr \"\"\n"
    ∀ source ∈ ([("toString", reserved), ("a", bare), ("msgid", behind)] : Dictionary Text),
      let table : Table := { sections := [("fr", [(source.1, "A")])] }
      Table.ofDocument (.object [("fr", .object [(source.1, .text "A")])]) = .ok table ∧
        (FilledText.of table source.2 "fr").outcome.fills = [(source.1, ("A" : Text))] ∧
        verify (FilledText.of table source.2 "fr").content
          (FilledText.of table source.2 "fr").outcome.fills = none := by
  intro reserved bare behind source hsource
  simp only [List.mem_cons, List.not_mem_nil, or_false] at hsource
  rcases hsource with rfl | rfl | rfl <;>
    exact ⟨rfl, by decide +kernel, by decide +kernel⟩

end FilledText

end GettextFill
