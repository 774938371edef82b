import GettextFill.Catalog.Basic

/-!
# Moves of the reader

The table of steps says for each of five stages and eight kinds of lines what happens. Only six
different things do, and `Stage.Move` lists them: a blank line is passed over or held back, a line
is ignored, a line enters a later part of the entry, follows in the part that is open, or is a
comment that is put aside, above the field that it was met in. `Stage.transition_move` says that
the table holds nothing else. The proofs about the reader go by these moves and not by the table.

A step that closes an entry first is the step that the next entry would make from its beginning
(`Draft.resume`), so `Draft.feed_preserves` asks of an invariant only that it is kept by closing an
entry and by each move.
-/

namespace GettextFill

namespace Slot

/-- The stage at which a part of an entry is open. -/
def stage : Slot → Stage
  | comments => .comments
  | context => .context
  | source => .source
  | target => .target

/-- The kind of line that a part begins with. -/
def opening : Slot → LineKind
  | comments => .comment
  | context => .context
  | source => .source
  | target => .target

/-- The kinds of lines that go on in a part that is open. -/
def following : Slot → List LineKind
  | comments => [.comment]
  | context => [.context, .continuation]
  | source => [.source, .sourcePlural, .continuation]
  | target => [.target, .continuation]

theorem stage_inj {s t : Slot} (h : s.stage = t.stage) : s = t := by
  cases s <;> cases t <;> first | rfl | exact absurd h (by decide)

theorem opening_ne_blank (s : Slot) : s.opening ≠ .blank := by cases s <;> decide

theorem ne_blank_of_mem_following {s : Slot} {kind : LineKind} (h : kind ∈ s.following) :
    kind ≠ .blank := by
  rintro rfl
  cases s <;> exact absurd h (by decide)

end Slot

namespace Stage

/-- How far a stage is from the beginning of an entry. -/
def rank : Stage → Nat
  | idle => 0
  | comments => 1
  | context => 2
  | source => 3
  | target => 4

/-- What becomes of a line of a kind at a stage, and the stage that follows. An entry that the line
ends has been closed before. -/
inductive Move (stage : Stage) (kind : LineKind) : Fate → Stage → Prop
  /-- A blank line that separates nothing. -/
  | pass : kind = .blank → stage ≠ .comments → stage ≠ .target → Move stage kind .skip stage
  /-- A blank line after a comment. -/
  | hold : kind = .blank → stage = .comments → Move stage kind .hold stage
  /-- A line that no part of the entry can take. -/
  | ignore : kind ≠ .blank → Move stage kind .ignore stage
  /-- A line that opens a later part. Only a source can have a target. -/
  | enter (slot : Slot) : kind = slot.opening → stage.rank < slot.stage.rank →
      (slot = .target → stage = .source) → Move stage kind (.store slot false) slot.stage
  /-- A line that goes on in the part that is open. -/
  | follow (slot : Slot) : kind ∈ slot.following → stage = slot.stage →
      Move stage kind (.store slot false) stage
  /-- A comment inside a field. -/
  | aside : kind = .comment → stage = .context ∨ stage = .source →
      Move stage kind (.store .comments true) stage

/-- A line that is stored is not blank. -/
theorem Move.ne_blank {stage next : Stage} {kind : LineKind} {slot : Slot} {moved : Bool}
    (h : stage.Move kind (.store slot moved) next) : kind ≠ .blank := by
  cases h with
  | enter _ hkind => exact hkind ▸ slot.opening_ne_blank
  | follow _ hkind => exact Slot.ne_blank_of_mem_following hkind
  | aside hkind => exact hkind ▸ by decide

/-- What is stored among the comments is a comment. -/
theorem Move.comment {stage next : Stage} {kind : LineKind} {moved : Bool}
    (h : stage.Move kind (.store .comments moved) next) : kind = .comment := by
  cases h with
  | enter _ hkind => exact hkind
  | follow _ hkind => exact List.mem_singleton.mp hkind
  | aside hkind => exact hkind

/-- Every place of the table is one of the moves, made from the beginning of an entry if the one
before is sealed. -/
theorem transition_move (stage : Stage) (kind : LineKind) :
    Move (if (stage.transition kind).seals then idle else stage) kind
      (stage.transition kind).fate (stage.transition kind).next := by
  cases stage <;> cases kind <;>
    first
    | exact .pass rfl (by decide) (by decide)
    | exact .hold rfl rfl
    | exact .ignore (by decide)
    | exact .enter _ rfl (by decide) (by decide)
    | exact .follow _ (by decide) rfl
    | exact .aside rfl (by decide)

/-- Only an entry with a target is sealed. -/
theorem eq_target_of_seals {stage : Stage} {kind : LineKind}
    (h : (stage.transition kind).seals = true) : stage = target := by
  cases stage with
  | target => rfl
  | _ => cases kind <;> exact absurd h (by decide)

end Stage

namespace Draft

/-- The draft after the entry being gathered is closed. -/
def closed (d : Draft) : Draft := { d.complete with stage := .idle }

/-- The draft in which a line of the given kind makes its move. -/
def resume (d : Draft) (kind : LineKind) : Draft :=
  if (d.stage.transition kind).seals then d.closed else d

/-- The entry being gathered, with the blank line that is held back if it has one to record. -/
def gathered (d : Draft) : Entry :=
  if d.blankHeld && !d.pending.comments.isEmpty then d.pending.push .comments [] else d.pending

theorem gathered_of_not_held {d : Draft} (h : d.blankHeld = false) : d.gathered = d.pending := by
  simp [gathered, h]

theorem feed_eq_meet (d : Draft) (number : Nat) (line : Text) :
    d.feed number line =
      { (d.resume (LineKind.ofLine line)).meet
          (d.stage.transition (LineKind.ofLine line)).fate number line with
        stage := (d.stage.transition (LineKind.ofLine line)).next } := by
  simp only [feed, resume]
  split
  · cases (d.stage.transition (LineKind.ofLine line)).fate <;> rfl
  · rfl

theorem stage_resume (d : Draft) (kind : LineKind) :
    (d.resume kind).stage = if (d.stage.transition kind).seals then .idle else d.stage := by
  unfold resume
  split <;> rfl

/-- What holds after a line is taken: it is enough that closing an entry keeps what is known before
and that every move from there leads to it. -/
theorem feed_preserves {P Q : Draft → Prop} {number : Nat} {line : Text}
    (hclosed : ∀ d : Draft, P d → d.stage = .target → P d.closed)
    (hmove : ∀ (d : Draft) (fate : Fate) (next : Stage), P d →
      d.stage.Move (LineKind.ofLine line) fate next →
      Q { d.meet fate number line with stage := next })
    {d : Draft} (h : P d) : Q (d.feed number line) := by
  have hresume : P (d.resume (LineKind.ofLine line)) := by
    unfold resume
    split
    · next hs => exact hclosed d h (Stage.eq_target_of_seals hs)
    · exact h
  have hm := Stage.transition_move d.stage (LineKind.ofLine line)
  rw [← stage_resume] at hm
  rw [feed_eq_meet]
  exact hmove _ _ _ hresume hm

/-! ### The end -/

theorem finish_ignored (d : Draft) (ending : LineEnding) (marked : Bool) :
    (d.finish ending marked).ignored = d.ignored := by
  rw [finish]
  split <;> rfl

theorem finish_moved (d : Draft) (ending : LineEnding) (marked : Bool) :
    (d.finish ending marked).moved = d.moved := by
  rw [finish]
  split <;> rfl

end Draft

end GettextFill
