import GettextFill.Proofs.Catalog.Shape
import GettextFill.Proofs.Text.Lines

/-!
# Texts one after the other

A blank line between two texts keeps them apart: the catalog of both is the catalog of the first and
the catalog of the second one after the other, with the lines of the second numbered on
(`Catalog.ofText_append`). The second text may be anything. The first must not leave anything open,
which its catalog shows: nothing trails, and no entry waits for its target.

Two things are needed for that. What is read before a text does not bear on how the text is read
(`Draft.feedAll_behind`), and a catalog that shows nothing open comes from a draft that a blank line
takes back to the beginning (`Draft.Shaped.feed_nil`).
-/

namespace GettextFill

namespace Draft

/-! ### Reading on behind other lines -/

/-- A draft with what was read before it: other entries come first, and so many lines have gone by
that every number is higher. -/
def behind (d earlier : Draft) (shift : Nat) : Draft :=
  { d with
    entries := earlier.entries ++ d.entries
    ignored := earlier.ignored ++ d.ignored.map (· + shift)
    moved := earlier.moved ++ d.moved.map (· + shift) }

variable (d earlier : Draft) (shift number : Nat)

theorem closed_behind : (d.behind earlier shift).closed = d.closed.behind earlier shift := by
  simp [closed, complete, behind]

theorem resume_behind (kind : LineKind) :
    (d.behind earlier shift).resume kind = (d.resume kind).behind earlier shift := by
  have hstage : (d.behind earlier shift).stage = d.stage := rfl
  rw [resume, resume, hstage]
  split
  · exact closed_behind d earlier shift
  · rfl

theorem meet_behind (fate : Fate) (line : Text) :
    (d.behind earlier shift).meet fate (number + shift) line =
      (d.meet fate number line).behind earlier shift := by
  cases fate with
  | skip => rfl
  | hold => rfl
  | ignore => simp [meet, behind]
  | store slot moved => cases moved <;> simp [meet, store, behind]

/-- A line is taken as if nothing had been read before. -/
theorem feed_behind (line : Text) :
    (d.behind earlier shift).feed (number + shift) line =
      (d.feed number line).behind earlier shift := by
  rw [feed_eq_meet, feed_eq_meet, resume_behind]
  have hstage : (d.behind earlier shift).stage = d.stage := rfl
  rw [hstage, meet_behind]
  rfl

theorem feedAll_behind (ls : List Text) :
    (d.behind earlier shift).feedAll (number + shift) ls =
      (d.feedAll number ls).behind earlier shift := by
  induction ls generalizing d number with
  | nil => rfl
  | cons line ls ih =>
      have hnumber : number + shift + 1 = number + 1 + shift := by omega
      rw [feedAll_cons, feed_behind, hnumber, ih, feedAll_cons]

/-- What is left at the end is left in the same way. -/
theorem finish_behind (ending : LineEnding) (marked : Bool) :
    (d.behind earlier shift).finish ending marked =
      { d.finish ending marked with
        entries := earlier.entries ++ (d.finish ending marked).entries
        ignored := earlier.ignored ++ (d.finish ending marked).ignored.map (· + shift)
        moved := earlier.moved ++ (d.finish ending marked).moved.map (· + shift) } := by
  have hpending : (d.behind earlier shift).pending = d.pending := rfl
  rw [finish, finish, hpending]
  split <;> simp [behind]

/-- The terminator and the mark are only passed on. -/
theorem finish_eq (ending : LineEnding) (marked : Bool) (ending' : LineEnding) (marked' : Bool) :
    d.finish ending marked = { d.finish ending' marked' with ending, marked } := by
  rw [finish, finish]
  split <;> rfl

/-! ### Nothing left open -/

variable {d} {ending : LineEnding} {marked : Bool}

/-- At the beginning of an entry nothing is gathered. -/
theorem Shaped.eq_of_idle (h : d.Shaped) (hstage : d.stage = .idle) :
    d = { entries := d.entries, ignored := d.ignored, moved := d.moved } := by
  have hempty (slot : Slot) : d.pending.part slot = [] := by
    apply h.pending.beyond slot
    rw [hstage]
    cases slot <;> decide
  have hpending : d.pending = {} := by
    have hparts : d.pending = ⟨d.pending.part .comments, d.pending.part .context,
      d.pending.part .source, d.pending.part .target⟩ := rfl
    rw [hparts, hempty, hempty, hempty, hempty]
  have hheld : d.blankHeld = false := by
    cases hb : d.blankHeld with
    | false => rfl
    | true =>
        have hcomments := h.held hb
        rw [hstage] at hcomments
        cases hcomments
  cases d
  dsimp only at hpending hheld hstage ⊢
  rw [hpending, hheld, hstage]

/-- Where nothing trails and no entry waits for its target, the draft is between two entries or in a
target. -/
theorem Shaped.idle_or_target (h : d.Shaped) (htrailing : (d.finish ending marked).trailing = [])
    (htargets : ∀ e ∈ (d.finish ending marked).entries, e.target ≠ []) :
    d.stage = .idle ∨ d.stage = .target := by
  have hpart (slot : Slot) (hslot : slot.stage = d.stage) : d.pending.part slot ≠ [] :=
    h.pending.within slot hslot
  by_cases hsource : d.pending.source = []
  · -- comments and a context would trail
    have hnone : d.pending.comments = [] ∧ d.pending.context = [] := by
      simpa [Draft.finish, hsource] using htrailing
    cases hstage : d.stage with
    | idle => exact Or.inl rfl
    | comments => exact absurd hnone.1 (hpart .comments hstage.symm)
    | context => exact absurd hnone.2 (hpart .context hstage.symm)
    | source => exact absurd hsource (hpart .source hstage.symm)
    | target => exact Or.inr rfl
  · -- the entry would be the last one
    have htarget : d.pending.part .target ≠ [] :=
      htargets d.pending (by simp [Draft.finish, hsource])
    right
    by_contra hstage
    apply htarget
    apply h.pending.beyond
    cases hs : d.stage with
    | target => exact absurd hs hstage
    | _ => decide

/-- A blank line then takes the draft back to the beginning. -/
theorem Shaped.feed_nil (h : d.Shaped) (htrailing : (d.finish ending marked).trailing = [])
    (htargets : ∀ e ∈ (d.finish ending marked).entries, e.target ≠ []) :
    d.feed number [] = ({} : Draft).behind
      { entries := (d.finish ending marked).entries, ignored := d.ignored, moved := d.moved }
      shift := by
  rcases h.idle_or_target htrailing htargets with hstage | hstage
  · rw [h.eq_of_idle hstage]
    simp [Draft.feed, Stage.transition, meet, Draft.finish, behind]
  · have hsource : d.pending.source ≠ [] := h.pending.source hstage
    simp [Draft.feed, hstage, Stage.transition, meet, complete, Draft.finish, behind, hsource]

/-- Behind lines that leave nothing open and a blank line, others are read as if they came first. -/
theorem feedAll_apart {ls : List Text}
    (htrailing : ((({} : Draft).feedAll 1 ls).finish ending marked).trailing = [])
    (htargets : ∀ e ∈ ((({} : Draft).feedAll 1 ls).finish ending marked).entries, e.target ≠ [])
    (ms : List Text) :
    ({} : Draft).feedAll 1 (ls ++ [] :: ms) =
      (({} : Draft).feedAll 1 ms).behind
        { entries := ((({} : Draft).feedAll 1 ls).finish ending marked).entries
          ignored := (({} : Draft).feedAll 1 ls).ignored
          moved := (({} : Draft).feedAll 1 ls).moved }
        (ls.length + 1) := by
  have hshaped : (({} : Draft).feedAll 1 ls).Shaped := Shaped.init.feedAll 1 ls
  have hnumber : 1 + ls.length + 1 = 1 + (ls.length + 1) := by omega
  rw [feedAll_append, feedAll_cons, hshaped.feed_nil (ls.length + 1) _ htrailing htargets, hnumber,
    feedAll_behind]

end Draft

/-- Only the first of two texts can have a mark, and a blank line between them is a line. -/
theorem Text.lines_dropMark_append {t : Text} (h : t.getLast? ≠ some '\r') (u : Text) :
    lines (dropMark (t ++ ['\n', '\n'] ++ u)) = lines (dropMark t) ++ [] :: lines u := by
  have hbody : dropMark (t ++ ['\n', '\n'] ++ u) = dropMark t ++ '\n' :: '\n' :: u := by
    rw [List.append_assoc]
    exact dropMark_append_newline t _
  rw [hbody, lines_append_newline (getLast?_dropMark_ne h), lines_newline_cons]

namespace Catalog

/-- The catalog of a text, a blank line and another text holds what the catalogs of both hold, if the
first one leaves nothing open: its last line must not end in a carriage return, nothing may trail in
it, and every entry needs a target. -/
theorem ofText_append {t : Text} (hreturn : t.getLast? ≠ some '\r')
    (htrailing : (ofText t).trailing = []) (htargets : ∀ e ∈ (ofText t).entries, e.target ≠ [])
    {u : Text} (hmark : u.head? ≠ some Text.byteOrderMark) :
    let c := ofText (t ++ ['\n', '\n'] ++ u)
    let shift := (t.splitOn '\n').length + 1
    c.entries = (ofText t).entries ++ (ofText u).entries ∧
      c.trailing = (ofText u).trailing ∧
      c.ignored = (ofText t).ignored ++ (ofText u).ignored.map (· + shift) ∧
      c.moved = (ofText t).moved ++ (ofText u).moved.map (· + shift) := by
  intro c shift
  have hread : ({} : Draft).feedAll 1 (Text.lines (Text.dropMark (t ++ ['\n', '\n'] ++ u))) =
      (({} : Draft).feedAll 1 (Text.lines (Text.dropMark u))).behind
        { entries := (ofText t).entries, ignored := (ofText t).ignored, moved := (ofText t).moved }
        shift := by
    rw [Text.lines_dropMark_append hreturn, Text.dropMark_of_head?_ne hmark,
      Draft.feedAll_apart htrailing htargets, Text.length_lines_dropMark, ofText,
      Draft.finish_ignored, Draft.finish_moved]
  have hc : c = _ := congrArg (Draft.finish · _ _) hread
  rw [hc, Draft.finish_behind, Draft.finish_eq _ _ _ (LineEnding.ofText (Text.dropMark u))
    (u.head? = some Text.byteOrderMark)]
  exact ⟨rfl, rfl, rfl, rfl⟩

/-- Two texts that each have a line to ignore and a comment to move; the last entry of the first is
ended by the blank line alone, and the second ends in lines that trail. -/
theorem ofText_append_damaged :
    let t : Text := "stray\nmsgid \"a\"\n# moved\nmsgstr \"A\"\n\"B\""
    let u : Text := "\"x\"\n# b\n\nmsgid \"b\"\n# moved\nmsgstr \"\"\n\n# end\nmsgctxt \"m\""
    let c := ofText (t ++ ['\n', '\n'] ++ u)
    t.getLast? ≠ some '\r' ∧ (ofText t).trailing = [] ∧ (∀ e ∈ (ofText t).entries, e.target ≠ []) ∧
      u.head? ≠ some Text.byteOrderMark ∧ c.entries = (ofText t).entries ++ (ofText u).entries ∧
      c.entries.length = 2 ∧ c.trailing = ["# end", "msgctxt \"m\""] ∧ c.ignored = [1, 7] ∧
      c.moved = [3, 11] := by
  intro t u c
  have hreturn : t.getLast? ≠ some '\r' := by decide
  have htrailing : (ofText t).trailing = [] := by decide
  have htargets : ∀ e ∈ (ofText t).entries, e.target ≠ [] := by decide
  have hmark : u.head? ≠ some Text.byteOrderMark := by decide
  obtain ⟨hentries, htrailing', hignored, hmoved⟩ := ofText_append hreturn htrailing htargets hmark
  refine ⟨hreturn, htrailing, htargets, hmark, hentries, ?_, ?_, ?_, ?_⟩
  · rw [hentries]
    decide
  · rw [htrailing']
    decide
  · rw [hignored]
    decide
  · rw [hmoved]
    decide

end Catalog

end GettextFill
