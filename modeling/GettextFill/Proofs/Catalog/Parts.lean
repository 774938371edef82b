import GettextFill.Proofs.Catalog.Keyword
import GettextFill.Proofs.Catalog.Shape

/-!
# The parts of an entry, told by their text

The shape of a catalog (`Catalog.ofText_shaped`) is stated with the kinds that the reader gives to
lines. Here it is stated with what stands on the lines. A field begins with a line that has its
keyword, and every line behind it begins with a quote or has a keyword that may follow
(`IsFieldText`); a comment begins with a number sign.

`Catalog.ofText_parts` is what everything that works on a catalog may rely on without a check of its
own: the writer, the decoder of fields and the fill.
-/

namespace GettextFill

namespace Slot

/-- Whether a part of an entry may begin with a line of the keyword. -/
def OpensWith : Slot → Keyword → Prop
  | comments, _ => False
  | context, k => k = .context
  | source, k => k = .source
  | target, k => k = .target ∨ ∃ digits, k = .targetForm digits

/-- Whether a line of the keyword may stand behind the first line of a part. -/
def GoesOnWith : Slot → Keyword → Prop
  | comments, _ => False
  | context, k => k = .context
  | source, k => k = .source ∨ k = .sourcePlural
  | target, k => k = .target ∨ ∃ digits, k = .targetForm digits

theorem opensWith_iff {slot : Slot} {k : Keyword} :
    slot.OpensWith k ↔ k.lineKind = slot.opening := by
  cases slot <;> cases k <;> simp [OpensWith, opening, Keyword.lineKind]

theorem goesOnWith_iff {slot : Slot} {k : Keyword} :
    slot.GoesOnWith k ↔ k.lineKind ∈ slot.following := by
  cases slot <;> cases k <;> simp [GoesOnWith, following, Keyword.lineKind]

theorem isKeyword_opening {slot : Slot} (h : slot ≠ comments) : slot.opening.isKeyword = true := by
  cases slot with
  | comments => exact absurd rfl h
  | _ => rfl

/-- A line that goes on in a field continues it or has a keyword. -/
theorem mem_following_iff {slot : Slot} (h : slot ≠ comments) {kind : LineKind} :
    kind ∈ slot.following ↔
      kind = .continuation ∨ kind.isKeyword = true ∧ kind ∈ slot.following := by
  cases slot with
  | comments => exact absurd rfl h
  | _ => cases kind <;> decide

end Slot

/-- The lines of a field: the first has a keyword that the part may begin with, and each of the others
begins with a quote or has a keyword that may follow there. -/
def IsFieldText (slot : Slot) (ls : List Text) : Prop :=
  ∃ line rest, ls = line :: rest ∧ (∃ k, slot.OpensWith k ∧ k.Begins line) ∧
    ∀ l ∈ rest, l.head? = some '"' ∨ ∃ k, slot.GoesOnWith k ∧ k.Begins l

namespace LineKind

variable {slot : Slot} {line : Text}

theorem ofLine_eq_opening_iff (h : slot ≠ .comments) :
    ofLine line = slot.opening ↔ ∃ k, slot.OpensWith k ∧ k.Begins line := by
  simp only [ofLine_eq_iff (Slot.isKeyword_opening h), Slot.opensWith_iff]

theorem ofLine_mem_following_iff (h : slot ≠ .comments) :
    ofLine line ∈ slot.following ↔
      line.head? = some '"' ∨ ∃ k, slot.GoesOnWith k ∧ k.Begins line := by
  rw [Slot.mem_following_iff h, ofLine_eq_continuation_iff]
  apply or_congr_right
  constructor
  · rintro ⟨hkeyword, hmem⟩
    obtain ⟨k, hk, hbegins⟩ := (ofLine_eq_iff hkeyword).mp rfl
    exact ⟨k, Slot.goesOnWith_iff.mpr (hk ▸ hmem), hbegins⟩
  · rintro ⟨k, hk, hbegins⟩
    rw [ofLine_of_begins hbegins]
    exact ⟨isKeyword_lineKind k, Slot.goesOnWith_iff.mp hk⟩

end LineKind

/-- The kinds of lines make a field exactly if the text on them does. -/
theorem isField_iff {slot : Slot} (h : slot ≠ .comments) {ls : List Text} :
    IsField slot ls ↔ IsFieldText slot ls := by
  cases ls with
  | nil => simp [IsField, IsFieldText]
  | cons line rest =>
      simp only [IsField, IsFieldText, LineKind.ofLine_eq_opening_iff h,
        LineKind.ofLine_mem_following_iff h]
      constructor
      · exact fun hfield => ⟨line, rest, rfl, hfield⟩
      · rintro ⟨_, _, heq, hfield⟩
        cases heq
        exact hfield

namespace Catalog

/-- Only at the end of a catalog in shape can an entry stand without a target. -/
theorem Shaped.eq_nil_of_target_eq_nil {c : Catalog} (h : c.Shaped) {init rest : List Entry}
    {e : Entry} (hentries : c.entries = init ++ e :: rest) (htarget : e.target = []) :
    rest = [] ∧ c.trailing = [] := by
  have hmem : e ∈ c.entries := by simp [hentries]
  constructor
  · by_contra hrest
    refine h.targets e ?_ htarget
    rw [hentries, List.dropLast_append_of_ne_nil (List.cons_ne_nil e rest),
      List.dropLast_cons_of_ne_nil hrest]
    simp
  · by_contra htrailing
    exact h.targets_of_trailing htrailing e hmem htarget

/-- Whatever the text, every entry that is read from it has a source; its context and its target are
fields or missing, and the target is missing only in an entry with nothing behind it. Comments are
comments with single empty lines between and after them, above every entry and at the end of the
catalog, where a context without a source may follow them. -/
theorem ofText_parts (t : Text) :
    (∀ e ∈ (ofText t).entries,
        IsFieldText .source e.source ∧
        (e.context = [] ∨ IsFieldText .context e.context) ∧
        (e.target = [] ∨ IsFieldText .target e.target) ∧
        IsCommentBlock e.comments) ∧
      (∀ init e rest, (ofText t).entries = init ++ e :: rest → e.target = [] →
        rest = [] ∧ (ofText t).trailing = []) ∧
      (∃ comments context, (ofText t).trailing = comments ++ context ∧ IsCommentBlock comments ∧
        (context = [] ∨ IsFieldText .context context)) ∧
      (ofText t).trailing.getLast? ≠ some [] := by
  have hshaped := ofText_shaped t
  obtain ⟨comments, context, htrailing, hcomments, hcontext, hlast⟩ := hshaped.trailing
  refine ⟨fun e he => ?_, fun init e rest => hshaped.eq_nil_of_target_eq_nil, ?_, hlast⟩
  · have hentry := hshaped.entries e he
    exact ⟨(isField_iff (by decide)).mp hentry.source,
      hentry.context.imp_right (isField_iff (by decide)).mp,
      hentry.target.imp_right (isField_iff (by decide)).mp, hentry.comments⟩
  · exact ⟨comments, context, htrailing, hcomments, hcontext.imp_right (isField_iff (by decide)).mp⟩

end Catalog

end GettextFill
