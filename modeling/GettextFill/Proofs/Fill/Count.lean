import GettextFill.Proofs.Fill.Refill
import GettextFill.Proofs.Table

/-!
# Counting before and after a fill

`Catalog.status` counts entries one by one, in an order of questions of its own: it asks for the
source first, while a fill asks for the plural first. The two come to the same decision about every
entry, since a table that is accepted has no target for the empty source.

`Status.Balanced` is what the counts of one catalog have in common, `Status.Advanced` how the counts
before a fill and after it lie to each other. Both are kept by every entry that is counted, before
the fill and after it at once (`Status.Advanced.count`), and so hold of whole catalogs
(`Catalog.status_fill`). A fill is counted as a gain only if the target that was written reads back
as something (`Entry.Gains`).
-/

namespace GettextFill

variable {table : Table} {language : Text}

/-- The counts of entries add up, and no entry is fillable that has a target. -/
structure Status.Balanced (s : Status) : Prop where
  entries : s.entries = s.translated + s.untranslated + s.plural
  fillable : s.fillable ≤ s.untranslated

/-- The counts after a fill, from those before: `filled` entries were filled, and of these `gained`
have a target that reads back as something. -/
structure Status.Advanced (before after : Status) (filled gained : Nat) : Prop where
  due : before.fillable = filled
  entries : after.entries = before.entries
  plural : after.plural = before.plural
  translated : after.translated = before.translated + gained
  untranslated : after.untranslated + gained = before.untranslated
  fillable : after.fillable + gained = filled

/-- Whether the table holds a target for the source of an entry that is not empty and has no
separator in it. -/
def Entry.Gains (table : Table) (language : Text) (e : Entry) : Prop :=
  ∃ v ∈ table.lookup language e.sourceText, v ≠ [] ∧ v.any Text.isSeparator = false

instance (table : Table) (language : Text) : DecidablePred (Entry.Gains table language) :=
  fun e => inferInstanceAs (Decidable (∃ v ∈ table.lookup language e.sourceText,
    v ≠ [] ∧ v.any Text.isSeparator = false))

/-- The number of entries that a fill gives a target that reads back as something. -/
def Catalog.gained (c : Catalog) (table : Table) (language : Text) : Nat :=
  (c.entries.filter fun e => e.IsDue table language).countP fun e => e.Gains table language

namespace Status

/-! ### One entry -/

theorem count_header {e : Entry} (h : e.sourceText = []) (s : Status) :
    s.count table language e = s := by
  rw [count, h]
  rfl

theorem count_plural {e : Entry} (hsource : e.sourceText ≠ []) (h : e.isPlural = true) (s : Status) :
    s.count table language e = { s with entries := s.entries + 1, plural := s.plural + 1 } := by
  simp [count, hsource, h]

theorem count_translated {e : Entry} (hsource : e.sourceText ≠ []) (hplural : e.isPlural = false)
    (h : e.targetText ≠ []) (s : Status) :
    s.count table language e =
      { s with entries := s.entries + 1, translated := s.translated + 1 } := by
  simp [count, hsource, hplural, h]

theorem count_missing {e : Entry} (hsource : e.sourceText ≠ []) (hplural : e.isPlural = false)
    (htarget : e.targetText = []) (h : table.lookup language e.sourceText = none) (s : Status) :
    s.count table language e =
      { s with entries := s.entries + 1, untranslated := s.untranslated + 1 } := by
  simp [count, hsource, hplural, htarget, h]

theorem count_due {e : Entry} (hsource : e.sourceText ≠ []) (h : e.IsDue table language)
    (s : Status) :
    s.count table language e =
      { s with
        entries := s.entries + 1, untranslated := s.untranslated + 1,
        fillable := s.fillable + 1 } := by
  simp [count, hsource, h.1, h.2.1, h.2.2]

/-- Counting an entry keeps the balance. -/
theorem Balanced.count {s : Status} (h : s.Balanced) (e : Entry) :
    (s.count table language e).Balanced := by
  obtain ⟨hentries, hfillable⟩ := h
  unfold Status.count
  split
  · exact ⟨hentries, hfillable⟩
  · split
    · exact ⟨by dsimp only; omega, hfillable⟩
    · split
      · exact ⟨by dsimp only; omega, hfillable⟩
      · refine ⟨by dsimp only; omega, ?_⟩
        dsimp only
        split <;> omega

/-- An entry that is not due is counted alike before and after a fill. -/
theorem Advanced.count_of_not_isDue {before after : Status} {filled gained : Nat}
    (h : before.Advanced after filled gained) {e : Entry} (hdue : ¬ e.IsDue table language) :
    (before.count table language e).Advanced (after.count table language e) filled gained := by
  obtain ⟨hdues, hentries, hplural, htranslated, huntranslated, hfillable⟩ := h
  by_cases hsource : e.sourceText = []
  · rw [count_header hsource, count_header hsource]
    exact ⟨hdues, hentries, hplural, htranslated, huntranslated, hfillable⟩
  · cases hp : e.isPlural with
    | true =>
        rw [count_plural hsource hp, count_plural hsource hp]
        exact ⟨hdues, congrArg (· + 1) hentries, congrArg (· + 1) hplural, htranslated,
          huntranslated, hfillable⟩
    | false =>
        by_cases htarget : e.targetText = []
        · have hmissing : table.lookup language e.sourceText = none := by
            rw [← Option.not_isSome_iff_eq_none]
            exact fun hsome => hdue ⟨hp, htarget, hsome⟩
          rw [count_missing hsource hp htarget hmissing, count_missing hsource hp htarget hmissing]
          refine ⟨hdues, congrArg (· + 1) hentries, hplural, htranslated, ?_, hfillable⟩
          dsimp only
          omega
        · rw [count_translated hsource hp htarget, count_translated hsource hp htarget]
          refine ⟨hdues, congrArg (· + 1) hentries, hplural, ?_, huntranslated, hfillable⟩
          dsimp only
          omega

/-- An entry that is due is fillable before the fill. After it the entry is translated, if the
target reads back as something, and otherwise as fillable as before. -/
theorem Advanced.count_of_isDue {before after : Status} {filled gained : Nat}
    (h : before.Advanced after filled gained) {e : Entry} (hsource : e.sourceText ≠ [])
    (hdue : e.IsDue table language) :
    (before.count table language e).Advanced
      (after.count table language (e.fill table language)) (filled + 1)
      (if e.Gains table language then gained + 1 else gained) := by
  obtain ⟨hdues, hentries, hplural, htranslated, huntranslated, hfillable⟩ := h
  obtain ⟨v, hv⟩ := hdue.exists_lookup
  have hsource' : (e.fill table language).sourceText ≠ [] := by
    rwa [Entry.sourceText_fill]
  rw [count_due hsource hdue]
  split
  · next hgains =>
    obtain ⟨w, hw, hne, hseparator⟩ := hgains
    rw [Option.mem_def.mp hw, Option.some.injEq] at hv
    subst hv
    have hplural' : (e.fill table language).isPlural = false := by
      rw [Entry.fill_of_lookup hdue hw]
      exact Entry.isPlural_of_target_line hdue.1 w
    have htarget' : (e.fill table language).targetText ≠ [] := by
      rw [Entry.fill_of_lookup hdue hw]
      refine fun hnil => ?_
      rcases (Field.decode_encode_target_eq_nil_iff w).mp hnil with h | h
      · exact hne h
      · rw [hseparator] at h
        exact Bool.false_ne_true h
    rw [count_translated hsource' hplural' htarget']
    exact ⟨by dsimp only; omega, by dsimp only; omega, hplural, by dsimp only; omega,
      by dsimp only; omega, by dsimp only; omega⟩
  · next hgains =>
    -- the target was written but reads back as nothing, so the entry is due again
    have hdue' : (e.fill table language).IsDue table language := by
      refine (Entry.isDue_fill_iff e).mpr ⟨hdue, v, hv, ?_⟩
      by_contra hkept
      rw [not_or, Bool.not_eq_true] at hkept
      exact hgains ⟨v, hv, hkept⟩
    rw [count_due hsource' hdue']
    exact ⟨by dsimp only; omega, by dsimp only; omega, hplural, htranslated,
      by dsimp only; omega, by dsimp only; omega⟩

/-! ### All entries -/

/-- The counts of entries and those of the same entries after a fill. -/
theorem Advanced.foldl {before after : Status} {filled gained : Nat}
    (h : before.Advanced after filled gained) (hheader : table.lookup language [] = none)
    (es : List Entry) :
    (es.foldl (fun s e => s.count table language e) before).Advanced
      ((es.map fun e => e.fill table language).foldl (fun s e => s.count table language e) after)
      (filled + (es.filter fun e => e.IsDue table language).length)
      (gained + (es.filter fun e => e.IsDue table language).countP fun e =>
        e.Gains table language) := by
  induction es generalizing before after filled gained with
  | nil => exact h
  | cons e es ih =>
      rw [List.foldl_cons, List.map_cons, List.foldl_cons]
      by_cases hdue : e.IsDue table language
      · -- the header is never due: a table that is accepted has nothing for the empty source
        have hsource : e.sourceText ≠ [] := by
          intro hnil
          have hsome := hdue.2.2
          rw [hnil, hheader] at hsome
          cases hsome
        have hstep := ih (h.count_of_isDue hsource hdue)
        rw [List.filter_cons_of_pos (by simpa using hdue), List.length_cons, List.countP_cons]
        convert hstep using 1
        · omega
        · simp only [decide_eq_true_eq]
          split <;> omega
      · rw [List.filter_cons_of_neg (by simpa using hdue), Entry.fill_of_not_isDue hdue]
        exact ih (h.count_of_not_isDue hdue)

end Status

namespace Catalog

theorem status_balanced (c : Catalog) (table : Table) (language : Text) :
    (c.status table language).Balanced :=
  List.foldlRecOn c.entries _ ⟨rfl, Nat.le_refl 0⟩ fun _ h e _ => h.count e

/-- The counts of a catalog add up before a fill and after it, the entries that are filled are those
that were fillable, and every fill that reads back as something, and no other, is counted as a
translation. -/
theorem status_fill {d : Document} (htable : Table.ofDocument d = .ok table) (c : Catalog)
    (language : Text) :
    (c.status table language).Balanced ∧
      ((c.fill table language).status table language).Balanced ∧
      (c.status table language).Advanced ((c.fill table language).status table language)
        (c.outcome table language).filled (c.gained table language) := by
  refine ⟨status_balanced c table language, status_balanced _ table language, ?_⟩
  have hinit : ({} : Status).Advanced {} 0 0 := ⟨rfl, rfl, rfl, rfl, rfl, rfl⟩
  have hrun := hinit.foldl (Table.lookup_nil htable language) c.entries
  rw [Nat.zero_add, Nat.zero_add] at hrun
  rw [Outcome.filled, filledSources_outcome, List.length_map]
  exact hrun

/-- A header, a translation that reads back, one with a separator in it, an entry that is not in
the table, one with a target and a plural one. -/
theorem status_fill_separated :
    let t : Text := "msgid \"\"\nmsgstr \"\"\n\nmsgid \"a\"\nmsgstr \"\"\nmsgid \"b\"\nmsgstr \"\"\n\n" ++
        "msgid \"c\"\nmsgstr \"\"\n\nmsgid \"d\"\nmsgstr \"D\"\n\nmsgid \"e\"\nmsgid_plural \"f\"\n"
    let d : Document := .object [("fr", .object [("a", .text "A"), ("b", .text "x\u2028y"),
      ("d", .text "E"), ("e", .text "E")])]
    let table : Table :=
      { sections := [("fr", [("a", "A"), ("b", "x\u2028y"), ("d", "E"), ("e", "E")])] }
    let before := (ofText t).status table "fr"
    let after := ((ofText t).fill table "fr").status table "fr"
    Table.ofDocument d = .ok table ∧ before.Balanced ∧ after.Balanced ∧
      before.Advanced after ((ofText t).outcome table "fr").filled ((ofText t).gained table "fr") ∧
      ((ofText t).outcome table "fr").filled = 2 ∧ (ofText t).gained table "fr" = 1 := by
  intro t d table before after
  have htable : Table.ofDocument d = .ok table := rfl
  obtain ⟨hbefore, hafter, hadvanced⟩ := status_fill htable (ofText t) "fr"
  exact ⟨htable, hbefore, hafter, hadvanced, by decide +kernel, by decide +kernel⟩

end Catalog

end GettextFill
