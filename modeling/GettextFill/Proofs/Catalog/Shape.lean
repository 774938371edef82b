import GettextFill.Proofs.Catalog.Keyword
import GettextFill.Proofs.Catalog.Move
import Mathlib.Data.List.Chain

/-!
# The shape of a catalog

What a catalog looks like once it is read. A field begins with the line that its part of the entry
calls for and goes on with lines that may follow there (`IsField`). Above the fields stand comments,
among which single empty lines may stand (`IsCommentBlock`). Every entry has a source; only the last
one may lack a target, and then nothing trails.

`Catalog.ofText_shaped` says that a catalog read from any text is of this shape. While it is read,
the stage tells which parts of the entry in the making may hold lines, which is the invariant
`Draft.Shaped` that every step keeps.
-/

namespace GettextFill

/-- The lines of a part of an entry. -/
def Entry.part (e : Entry) : Slot → List Text
  | .comments => e.comments
  | .context => e.context
  | .source => e.source
  | .target => e.target

theorem Entry.part_push (e : Entry) (slot other : Slot) (line : Text) :
    (e.push slot line).part other = if slot = other then e.part other ++ [line] else e.part other := by
  cases slot <;> cases other <;> rfl

/-- A field: a line that opens it and lines that go on in it. -/
def IsField (slot : Slot) : List Text → Prop
  | [] => False
  | line :: rest => LineKind.ofLine line = slot.opening ∧
      ∀ l ∈ rest, LineKind.ofLine l ∈ slot.following

/-- Comments with single empty lines between and after them. -/
structure IsCommentBlock (ls : List Text) : Prop where
  eq_nil_or_comment : ∀ l ∈ ls, l = [] ∨ l.head? = some '#'
  head?_ne_nil : ls.head? ≠ some []
  chain : ls.IsChain fun l m => l ≠ [] ∨ m ≠ []

/-- An entry whose parts are what they are meant to be. -/
structure Entry.Shaped (e : Entry) : Prop where
  comments : IsCommentBlock e.comments
  context : e.context = [] ∨ IsField .context e.context
  source : IsField .source e.source
  target : e.target = [] ∨ IsField .target e.target

/-- Comments and the lines of a context that belong to no entry. -/
def IsTrailing (ls : List Text) : Prop :=
  ∃ comments context, ls = comments ++ context ∧ IsCommentBlock comments ∧
    (context = [] ∨ IsField .context context) ∧ ls.getLast? ≠ some []

/-- A catalog of entries in shape, which can be told apart when they are written one after the
other. -/
structure Catalog.Shaped (c : Catalog) : Prop where
  entries : ∀ e ∈ c.entries, e.Shaped
  targets : ∀ e ∈ c.entries.dropLast, e.target ≠ []
  targets_of_trailing : c.trailing ≠ [] → ∀ e ∈ c.entries, e.target ≠ []
  trailing : IsTrailing c.trailing

/-- The lines that a catalog holds. -/
def Catalog.stored (c : Catalog) : List Text := c.entries.flatMap Entry.lines ++ c.trailing

/-! The shape of fields, blocks and entries can be checked. -/

instance (slot : Slot) : DecidablePred (IsField slot)
  | [] => isFalse id
  | line :: rest => inferInstanceAs (Decidable (LineKind.ofLine line = slot.opening ∧
      ∀ l ∈ rest, LineKind.ofLine l ∈ slot.following))

instance (ls : List Text) : Decidable (IsCommentBlock ls) :=
  decidable_of_iff ((∀ l ∈ ls, l = [] ∨ l.head? = some '#') ∧ ls.head? ≠ some [] ∧
      ls.IsChain fun l m => l ≠ [] ∨ m ≠ [])
    ⟨fun h => ⟨h.1, h.2.1, h.2.2⟩, fun h => ⟨h.1, h.2, h.3⟩⟩

instance (e : Entry) : Decidable e.Shaped :=
  decidable_of_iff (IsCommentBlock e.comments ∧ (e.context = [] ∨ IsField .context e.context) ∧
      IsField .source e.source ∧ (e.target = [] ∨ IsField .target e.target))
    ⟨fun h => ⟨h.1, h.2.1, h.2.2.1, h.2.2.2⟩, fun h => ⟨h.1, h.2, h.3, h.4⟩⟩

/-! ### Kinds of lines -/

namespace LineKind

theorem ne_nil_of_ofLine_ne_blank {line : Text} (h : ofLine line ≠ .blank) : line ≠ [] := by
  rintro rfl
  exact h ofLine_nil

end LineKind

/-! ### Fields and comments that grow -/

theorem IsField.ne_nil {slot : Slot} {ls : List Text} (h : IsField slot ls) : ls ≠ [] := by
  rintro rfl
  exact h

theorem IsField.singleton {slot : Slot} {line : Text} (h : LineKind.ofLine line = slot.opening) :
    IsField slot [line] :=
  ⟨h, fun _ hl => absurd hl List.not_mem_nil⟩

theorem IsField.append_singleton {slot : Slot} {ls : List Text} {line : Text}
    (h : IsField slot ls) (hline : LineKind.ofLine line ∈ slot.following) :
    IsField slot (ls ++ [line]) := by
  cases ls with
  | nil => exact h.elim
  | cons first rest =>
      refine ⟨h.1, ?_⟩
      intro l hl
      rcases List.mem_append.mp hl with hl | hl
      · exact h.2 l hl
      · rw [List.mem_singleton.mp hl]
        exact hline

/-- No line of a field is blank. -/
theorem IsField.ofLine_ne_blank {slot : Slot} {ls : List Text} (h : IsField slot ls) :
    ∀ l ∈ ls, LineKind.ofLine l ≠ .blank := by
  cases ls with
  | nil => exact h.elim
  | cons first rest =>
      intro l hl
      rcases List.mem_cons.mp hl with rfl | hl
      · rw [h.1]
        exact slot.opening_ne_blank
      · exact Slot.ne_blank_of_mem_following (h.2 l hl)

theorem IsField.nil_not_mem {slot : Slot} {ls : List Text} (h : IsField slot ls) : [] ∉ ls :=
  fun hmem => h.ofLine_ne_blank [] hmem LineKind.ofLine_nil

theorem IsField.nil_not_mem_of_or {slot : Slot} {ls : List Text} (h : ls = [] ∨ IsField slot ls) :
    [] ∉ ls := by
  rcases h with rfl | h
  · exact List.not_mem_nil
  · exact h.nil_not_mem

theorem IsCommentBlock.nil : IsCommentBlock [] := ⟨by simp, by simp, .nil⟩

theorem IsCommentBlock.append_comment {ls : List Text} {line : Text} (h : IsCommentBlock ls)
    (hline : line.head? = some '#') : IsCommentBlock (ls ++ [line]) := by
  have hne : line ≠ [] := by
    rintro rfl
    exact absurd hline (by simp)
  refine ⟨?_, ?_, ?_⟩
  · intro l hl
    rcases List.mem_append.mp hl with hl | hl
    · exact h.eq_nil_or_comment l hl
    · rw [List.mem_singleton.mp hl]
      exact Or.inr hline
  · cases ls with
    | nil => simpa using hne
    | cons first rest => exact h.head?_ne_nil
  · rw [List.isChain_append]
    exact ⟨h.chain, .singleton _, fun _ _ m hm => Or.inr (by
      rw [List.head?_cons, Option.mem_some_iff] at hm
      exact hm ▸ hne)⟩

/-- An empty line goes after a comment. -/
theorem IsCommentBlock.append_nil {ls : List Text} (h : IsCommentBlock ls) (hne : ls ≠ [])
    (hlast : ls.getLast? ≠ some []) : IsCommentBlock (ls ++ [[]]) := by
  refine ⟨?_, ?_, ?_⟩
  · intro l hl
    rcases List.mem_append.mp hl with hl | hl
    · exact h.eq_nil_or_comment l hl
    · exact Or.inl (List.mem_singleton.mp hl)
  · cases ls with
    | nil => exact absurd rfl hne
    | cons first rest => exact h.head?_ne_nil
  · rw [List.isChain_append]
    refine ⟨h.chain, .singleton _, fun l hl _ _ => Or.inl ?_⟩
    rintro rfl
    exact hlast hl

/-! ### The draft while it is read -/

/-- What an entry in the making holds at a stage: nothing beyond the part that is open, something
in that part, and a block or a field in each part that holds anything. -/
structure Entry.ShapedAt (e : Entry) (stage : Stage) : Prop where
  comments : IsCommentBlock (e.part .comments)
  fields : ∀ slot, slot ≠ .comments → e.part slot = [] ∨ IsField slot (e.part slot)
  beyond : ∀ slot : Slot, stage.rank < slot.stage.rank → e.part slot = []
  within : ∀ slot : Slot, slot.stage = stage → e.part slot ≠ []
  source : stage = .target → e.part .source ≠ []

/-- What is known of a draft: the closed entries are in shape and have targets, and the entry being
gathered is what the stage says. Only comments can have a blank line held back behind them. -/
structure Draft.Shaped (d : Draft) : Prop where
  entries : ∀ e ∈ d.entries, e.Shaped ∧ e.target ≠ []
  pending : d.pending.ShapedAt d.stage
  held : d.blankHeld = true → d.stage = .comments
  last : d.stage = .comments → d.pending.comments.getLast? ≠ some []

namespace Entry

theorem ShapedAt.init : ({} : Entry).ShapedAt .idle where
  comments := .nil
  fields := fun slot _ => Or.inl (by cases slot <;> rfl)
  beyond := fun slot _ => by cases slot <;> rfl
  within := fun slot h => by cases slot <;> exact absurd h (by decide)
  source := fun h => absurd h (by decide)

/-- An entry is in shape as soon as it has a source. -/
theorem ShapedAt.shaped {e : Entry} {stage : Stage} (h : e.ShapedAt stage) (hsource : e.source ≠ []) :
    e.Shaped where
  comments := h.comments
  context := h.fields .context (by decide)
  source := (h.fields .source (by decide)).resolve_left hsource
  target := h.fields .target (by decide)

theorem part_push_of_ne {slot other : Slot} (h : other ≠ slot) (e : Entry) (line : Text) :
    (e.push slot line).part other = e.part other := by
  rw [part_push, if_neg (Ne.symm h)]

theorem part_push_self (e : Entry) (slot : Slot) (line : Text) :
    (e.push slot line).part slot = e.part slot ++ [line] := by
  rw [part_push, if_pos rfl]

/-- A line that is put where nothing follows opens its part, if it leaves a block or a field there. -/
theorem ShapedAt.push {e : Entry} {stage : Stage} {slot : Slot} {line : Text}
    (h : e.ShapedAt stage) (hcomment : slot = .comments → LineKind.ofLine line = .comment)
    (hfield : slot ≠ .comments → IsField slot (e.part slot ++ [line]))
    (hbeyond : ∀ other : Slot, slot.stage.rank < other.stage.rank → e.part other = [])
    (hsource : slot = .target → e.part .source ≠ []) :
    (e.push slot line).ShapedAt slot.stage := by
  refine ⟨?_, ?_, ?_, ?_, ?_⟩
  · by_cases hs : Slot.comments = slot
    · subst hs
      rw [part_push_self]
      exact h.comments.append_comment (LineKind.ofLine_eq_comment_iff.mp (hcomment rfl))
    · rw [part_push_of_ne hs]
      exact h.comments
  · intro other hother
    by_cases hs : other = slot
    · subst hs
      rw [part_push_self]
      exact Or.inr (hfield hother)
    · rw [part_push_of_ne hs]
      exact h.fields other hother
  · intro other hother
    have hs : other ≠ slot := by
      rintro rfl
      exact absurd hother (Nat.lt_irrefl _)
    rw [part_push_of_ne hs]
    exact hbeyond other hother
  · intro other hother
    rw [Slot.stage_inj hother, part_push_self]
    simp
  · intro hstage
    have hs : slot = .target := Slot.stage_inj hstage
    subst hs
    rw [part_push_of_ne (by decide)]
    exact hsource rfl

theorem ShapedAt.enter {e : Entry} {stage : Stage} {slot : Slot} {line : Text}
    (h : e.ShapedAt stage) (hline : LineKind.ofLine line = slot.opening)
    (hrank : stage.rank < slot.stage.rank) (htarget : slot = .target → stage = .source) :
    (e.push slot line).ShapedAt slot.stage := by
  have hnil : e.part slot = [] := h.beyond slot hrank
  refine h.push ?_ ?_ ?_ ?_
  · rintro rfl
    exact hline
  · intro _
    rw [hnil]
    exact .singleton hline
  · exact fun other hother => h.beyond other (Nat.lt_trans hrank hother)
  · exact fun hs => h.within .source (htarget hs).symm

theorem ShapedAt.follow {e : Entry} {slot : Slot} {line : Text} (h : e.ShapedAt slot.stage)
    (hline : LineKind.ofLine line ∈ slot.following) :
    (e.push slot line).ShapedAt slot.stage := by
  have hne : e.part slot ≠ [] := h.within slot rfl
  refine h.push ?_ ?_ h.beyond ?_
  · rintro rfl
    exact List.mem_singleton.mp hline
  · exact fun hs => ((h.fields slot hs).resolve_left hne).append_singleton hline
  · rintro rfl
    exact h.source rfl

theorem ShapedAt.aside {e : Entry} {stage : Stage} {line : Text} (h : e.ShapedAt stage)
    (hline : LineKind.ofLine line = .comment) (hstage : stage = .context ∨ stage = .source) :
    (e.push .comments line).ShapedAt stage := by
  have hpart : ∀ other : Slot, other ≠ .comments →
      (e.push .comments line).part other = e.part other :=
    fun other hother => part_push_of_ne hother e line
  refine ⟨?_, ?_, ?_, ?_, ?_⟩
  · rw [part_push_self]
    exact h.comments.append_comment (LineKind.ofLine_eq_comment_iff.mp hline)
  · intro other hother
    rw [hpart other hother]
    exact h.fields other hother
  · intro other hother
    have hs : other ≠ .comments := by
      rintro rfl
      rcases hstage with rfl | rfl <;> exact absurd hother (by decide)
    rw [hpart other hs]
    exact h.beyond other hother
  · intro other hother
    have hs : other ≠ .comments := by
      rintro rfl
      rcases hstage with rfl | rfl <;> exact absurd hother (by decide)
    rw [hpart other hs]
    exact h.within other hother
  · intro htarget
    subst htarget
    rcases hstage with hs | hs <;> exact absurd hs (by decide)

/-- A line that is stored leaves the entry as the next stage wants it. -/
theorem ShapedAt.move {e : Entry} {stage next : Stage} {slot : Slot} {moved : Bool} {line : Text}
    (h : e.ShapedAt stage) (hm : stage.Move (LineKind.ofLine line) (.store slot moved) next) :
    (e.push slot line).ShapedAt next := by
  cases hm with
  | enter _ hkind hrank htarget => exact h.enter hkind hrank htarget
  | follow _ hkind hstage =>
      subst hstage
      exact h.follow hkind
  | aside hkind hstage => exact h.aside hkind hstage

end Entry

namespace Draft

theorem Shaped.init : ({} : Draft).Shaped where
  entries := fun _ he => absurd he List.not_mem_nil
  pending := .init
  held := fun h => absurd h (by decide)
  last := fun h => absurd h (by decide)

theorem Shaped.closed {d : Draft} (h : d.Shaped) (hstage : d.stage = .target) :
    d.closed.Shaped := by
  refine { Shaped.init with entries := ?_ }
  intro e he
  rcases List.mem_append.mp he with he | he
  · exact h.entries e he
  · rw [List.mem_singleton.mp he]
    exact ⟨h.pending.shaped (h.pending.source hstage), h.pending.within .target hstage.symm⟩

/-- A blank line that is recorded changes nothing but the comments. -/
theorem part_gathered {slot : Slot} (h : slot ≠ .comments) (d : Draft) :
    d.gathered.part slot = d.pending.part slot := by
  unfold gathered
  split
  · exact Entry.part_push_of_ne h d.pending []
  · rfl

theorem Shaped.gathered {d : Draft} (h : d.Shaped) : d.gathered.ShapedAt d.stage := by
  by_cases hheld : (d.blankHeld && !d.pending.comments.isEmpty) = true
  · have hgathered : d.gathered = d.pending.push .comments [] := by
      rw [Draft.gathered, if_pos hheld]
    rw [Bool.and_eq_true] at hheld
    have hstage : d.stage = .comments := h.held hheld.1
    refine ⟨?_, ?_, ?_, ?_, ?_⟩
    · rw [hgathered, Entry.part_push_self]
      exact h.pending.comments.append_nil (h.pending.within .comments hstage.symm) (h.last hstage)
    · intro slot hslot
      rw [part_gathered hslot]
      exact h.pending.fields slot hslot
    · intro slot hslot
      have hs : slot ≠ .comments := by
        rintro rfl
        rw [hstage] at hslot
        exact absurd hslot (by decide)
      rw [part_gathered hs]
      exact h.pending.beyond slot hslot
    · intro slot hslot
      have hs : slot = .comments := Slot.stage_inj (hslot.trans hstage)
      subst hs
      rw [hgathered, Entry.part_push_self]
      simp
    · intro htarget
      rw [hstage] at htarget
      exact absurd htarget (by decide)
  · have hgathered : d.gathered = d.pending := by
      rw [Draft.gathered, if_neg hheld]
    rw [hgathered]
    exact h.pending

/-- A stored comment is the last of the comments, and it is not empty. -/
theorem getLast?_comments_push {stage next : Stage} {slot : Slot} {moved : Bool} {line : Text}
    (e : Entry) (hm : stage.Move (LineKind.ofLine line) (.store slot moved) next)
    (hnext : next = .comments) : (e.push slot line).comments.getLast? ≠ some [] := by
  have hslot : slot = .comments := by
    cases hm with
    | enter => exact Slot.stage_inj hnext
    | follow _ _ hstage => exact Slot.stage_inj (hstage.symm.trans hnext)
    | aside => rfl
  subst hslot
  have hne : line ≠ [] := LineKind.ne_nil_of_ofLine_ne_blank hm.ne_blank
  simpa [Entry.push] using hne

theorem Shaped.feed {d : Draft} (h : d.Shaped) (number : Nat) (line : Text) :
    (d.feed number line).Shaped := by
  refine feed_preserves (fun d h hstage => Shaped.closed h hstage) ?_ h
  intro d fate next h hm
  cases fate with
  | skip =>
      cases hm
      exact h
  | hold =>
      cases hm with
      | hold _ hstage => exact { h with held := fun _ => hstage }
  | ignore =>
      cases hm
      exact ⟨h.entries, h.pending, h.held, h.last⟩
  | store slot moved =>
      exact ⟨h.entries, h.gathered.move hm, fun hheld => (Bool.false_ne_true hheld).elim,
        getLast?_comments_push d.gathered hm⟩

theorem Shaped.feedAll {d : Draft} (h : d.Shaped) (number : Nat) (ls : List Text) :
    (d.feedAll number ls).Shaped := by
  induction ls generalizing d number with
  | nil => exact h
  | cons line ls ih => exact ih (h.feed number line) (number + 1)

/-- Without a source nothing can have been taken for a target. -/
theorem Shaped.target_eq_nil {d : Draft} (h : d.Shaped) (hsource : d.pending.source = []) :
    d.pending.target = [] := by
  refine h.pending.beyond .target ?_
  cases hs : d.stage with
  | target => exact absurd hsource (h.pending.source hs)
  | _ => decide

/-- What was gathered without a source can only trail. -/
theorem Shaped.trailing {d : Draft} (h : d.Shaped) (hsource : d.pending.source = []) :
    IsTrailing (d.pending.comments ++ d.pending.context) := by
  refine ⟨_, _, rfl, h.pending.comments, h.pending.fields .context (by decide), ?_⟩
  rcases h.pending.fields .context (by decide) with hnil | hfield
  · have hcontext : d.pending.context = [] := hnil
    rw [hcontext, List.append_nil]
    intro hlast
    have hcomments : d.pending.comments ≠ [] := by
      intro hempty
      simp [hempty] at hlast
    have hstage : d.stage = .comments := by
      cases hs : d.stage with
      | comments => rfl
      | idle => exact absurd (h.pending.beyond .comments (by rw [hs]; decide)) hcomments
      | context => exact absurd hcontext (h.pending.within .context hs.symm)
      | source => exact absurd hsource (h.pending.within .source hs.symm)
      | target => exact absurd hsource (h.pending.source hs)
    exact h.last hstage hlast
  · have hne : d.pending.context ≠ [] := hfield.ne_nil
    rw [List.getLast?_append_of_ne_nil _ hne]
    exact fun hlast => hfield.nil_not_mem (List.mem_of_getLast? hlast)

theorem Shaped.finish {d : Draft} (h : d.Shaped) (ending : LineEnding) (marked : Bool) :
    (d.finish ending marked).Shaped := by
  have hall : ∀ e ∈ d.entries, e.target ≠ [] := fun e he => (h.entries e he).2
  rw [Draft.finish]
  split
  · next hempty =>
    have hsource : d.pending.source = [] := List.isEmpty_iff.mp hempty
    exact ⟨fun e he => (h.entries e he).1, fun e he => hall e (List.dropLast_subset _ he),
      fun _ => hall, h.trailing hsource⟩
  · next hempty =>
    have hsource : d.pending.source ≠ [] := fun hs => hempty (List.isEmpty_iff.mpr hs)
    refine ⟨?_, ?_, fun hne => absurd rfl hne, ⟨[], [], rfl, .nil, Or.inl rfl, by simp⟩⟩
    · intro e he
      rcases List.mem_append.mp he with he | he
      · exact (h.entries e he).1
      · rw [List.mem_singleton.mp he]
        exact h.pending.shaped hsource
    · rw [List.dropLast_concat]
      exact hall

end Draft

/-- Whatever the text, the catalog read from it is in shape. -/
theorem Catalog.ofText_shaped (t : Text) : (Catalog.ofText t).Shaped :=
  (Draft.Shaped.init.feedAll 1 _).finish _ _

end GettextFill
