import GettextFill.Proofs.Catalog.Shape
import GettextFill.Proofs.Text.Lines

/-!
# Reading the lines of a catalog

The lines that a catalog in shape is written as read back as the catalog, which is
`Catalog.finish_feedAll_lines`. The proof follows the reader through them: the comments of an entry,
of which an empty line at the end is held back (`Draft.ofComments`), its fields one after the other
(`Draft.feedAll_field`), and the empty line that closes it. No line is ignored or moved on the way,
so the draft in between is given by its closed entries alone.
-/

namespace GettextFill

/-! ### The table, read forwards -/

namespace Stage

theorem transition_opening {stage : Stage} {slot : Slot} (hrank : stage.rank < slot.stage.rank)
    (htarget : slot = .target → stage = .source) :
    stage.transition slot.opening = { fate := .store slot false, next := slot.stage } := by
  cases slot with
  | target => rw [htarget rfl]; rfl
  | _ => cases stage <;> first | rfl | exact absurd hrank (by decide)

theorem transition_following {slot : Slot} {kind : LineKind} (h : kind ∈ slot.following) :
    slot.stage.transition kind = { fate := .store slot false, next := slot.stage } := by
  cases slot <;> cases kind <;> first | rfl | exact absurd h (by decide)

end Stage

/-! ### Fields -/

/-- An entry with more lines in a part. -/
def Entry.extend (e : Entry) (slot : Slot) (ls : List Text) : Entry :=
  match slot with
  | .comments => { e with comments := e.comments ++ ls }
  | .context => { e with context := e.context ++ ls }
  | .source => { e with source := e.source ++ ls }
  | .target => { e with target := e.target ++ ls }

@[simp] theorem Entry.extend_nil (e : Entry) (slot : Slot) : e.extend slot [] = e := by
  cases slot <;> simp [extend]

theorem Entry.extend_cons (e : Entry) (slot : Slot) (line : Text) (ls : List Text) :
    e.extend slot (line :: ls) = (e.push slot line).extend slot ls := by
  cases slot <;> simp [extend, push]

namespace Draft

theorem feed_of_transition {d : Draft} {slot : Slot} {next : Stage} {line : Text}
    (h : d.stage.transition (LineKind.ofLine line) = { fate := .store slot false, next })
    (number : Nat) :
    d.feed number line =
      { d with pending := d.gathered.push slot line, stage := next, blankHeld := false } := by
  simp only [feed, h]
  rfl

theorem feedAll_following {slot : Slot} {ls : List Text}
    (h : ∀ l ∈ ls, LineKind.ofLine l ∈ slot.following) {d : Draft} (hstage : d.stage = slot.stage)
    (hheld : d.blankHeld = false) (number : Nat) :
    d.feedAll number ls = { d with pending := d.pending.extend slot ls } := by
  induction ls generalizing d number with
  | nil => rw [feedAll_nil, Entry.extend_nil]
  | cons line ls ih =>
      have hline : LineKind.ofLine line ∈ slot.following := h line List.mem_cons_self
      have hstep : d.feed number line = { d with pending := d.pending.push slot line } := by
        have ht := Stage.transition_following hline
        rw [← hstage] at ht
        rw [feed_of_transition ht, gathered_of_not_held hheld]
        rw [← hheld]
      rw [feedAll_cons, hstep, Entry.extend_cons]
      refine ih (fun l hl => h l (List.mem_cons_of_mem _ hl)) ?_ ?_ (number + 1)
      · exact hstage
      · exact hheld

/-- The lines of a field are taken into their part. -/
theorem feedAll_field {slot : Slot} {ls : List Text} (h : IsField slot ls) {d : Draft}
    (hrank : d.stage.rank < slot.stage.rank) (htarget : slot = .target → d.stage = .source)
    (number : Nat) :
    d.feedAll number ls =
      { d with pending := d.gathered.extend slot ls, stage := slot.stage, blankHeld := false } := by
  cases ls with
  | nil => exact h.elim
  | cons line rest =>
      obtain ⟨hopening, hfollowing⟩ := h
      have ht := Stage.transition_opening hrank htarget
      rw [← hopening] at ht
      rw [feedAll_cons, feed_of_transition ht, feedAll_following hfollowing rfl rfl,
        Entry.extend_cons]

/-! ### Comments -/

/-- The draft in which comments have been gathered. An empty line at their end is held back. -/
def ofComments (es : List Entry) (ls : List Text) : Draft :=
  if ls.getLast? = some [] then
    { entries := es, pending := { comments := ls.dropLast }, stage := .comments,
      blankHeld := true }
  else
    { entries := es, pending := { comments := ls },
      stage := if ls.isEmpty then .idle else .comments }

theorem ofComments_append_nil (es : List Entry) (ls : List Text) :
    ofComments es (ls ++ [[]]) =
      { entries := es, pending := { comments := ls }, stage := .comments, blankHeld := true } := by
  simp [ofComments]

theorem ofComments_append_singleton (es : List Entry) (ls : List Text) {line : Text}
    (h : line ≠ []) :
    ofComments es (ls ++ [line]) =
      { entries := es, pending := { comments := ls ++ [line] }, stage := .comments } := by
  simp [ofComments, h]

theorem rank_ofComments (es : List Entry) (ls : List Text) :
    (ofComments es ls).stage.rank < Stage.context.rank := by
  unfold ofComments
  split
  · exact show Stage.comments.rank < Stage.context.rank by decide
  · cases ls <;> simp [Stage.rank]

end Draft

theorem IsCommentBlock.of_append {ls ms : List Text} (h : IsCommentBlock (ls ++ ms)) :
    IsCommentBlock ls := by
  refine ⟨fun l hl => h.eq_nil_or_comment l (List.mem_append_left _ hl), ?_,
    (List.isChain_append.mp h.chain).1⟩
  cases ls with
  | nil => simp
  | cons line ls => exact h.head?_ne_nil

/-- An empty line stands after a comment. -/
theorem IsCommentBlock.getLast?_ne_nil {ls : List Text} (h : IsCommentBlock (ls ++ [[]])) :
    ls ≠ [] ∧ ls.getLast? ≠ some [] := by
  refine ⟨?_, ?_⟩
  · rintro rfl
    exact h.head?_ne_nil rfl
  · intro hlast
    have hchain := (List.isChain_append.mp h.chain).2.2 [] hlast [] rfl
    exact hchain.elim (fun hne => hne rfl) fun hne => hne rfl

namespace Draft

theorem gathered_ofComments (es : List Entry) {ls : List Text} (h : IsCommentBlock ls) :
    (ofComments es ls).gathered = { comments := ls } := by
  rcases List.eq_nil_or_concat ls with rfl | ⟨init, line, rfl⟩
  · rfl
  · rw [List.concat_eq_append] at h ⊢
    by_cases hline : line = []
    · subst hline
      have hne : init ≠ [] := h.getLast?_ne_nil.1
      rw [ofComments_append_nil]
      simp [gathered, hne, Entry.push]
    · rw [ofComments_append_singleton es init hline]
      rfl

/-- A block of comments is gathered as it is, but for an empty line at its end. -/
theorem feedAll_comments (es : List Entry) {ls : List Text} (h : IsCommentBlock ls)
    (number : Nat) :
    ({ entries := es } : Draft).feedAll number ls = ofComments es ls := by
  induction ls using List.reverseRecOn with
  | nil => rfl
  | append_singleton init line ih =>
      rw [feedAll_append, ih h.of_append, feedAll_cons, feedAll_nil]
      rcases h.eq_nil_or_comment line (by simp) with rfl | hcomment
      · obtain ⟨hne, hlast⟩ := h.getLast?_ne_nil
        have hinit : ofComments es init =
            { entries := es, pending := { comments := init }, stage := .comments } := by
          simp [ofComments, hlast, hne]
        rw [hinit, ofComments_append_nil]
        rfl
      · have hkind : LineKind.ofLine line = Slot.comments.opening :=
          LineKind.ofLine_eq_comment_iff.mpr hcomment
        have hstage : (ofComments es init).stage = .idle ∨ (ofComments es init).stage = .comments := by
          unfold ofComments
          split
          · exact Or.inr rfl
          · cases init <;> simp
        have ht : (ofComments es init).stage.transition (LineKind.ofLine line) =
            { fate := .store .comments false, next := .comments } := by
          rw [hkind]
          rcases hstage with hs | hs <;> rw [hs] <;> rfl
        have hne : line ≠ [] := by
          rintro rfl
          exact absurd hcomment (by simp)
        rw [feed_of_transition ht, gathered_ofComments es h.of_append,
          ofComments_append_singleton es init hne]
        unfold ofComments
        split <;> rfl

/-! ### Entries -/

/-- The draft in which comments and a context have been gathered. -/
def ofHead (es : List Entry) (comments context : List Text) : Draft :=
  if context.isEmpty then ofComments es comments
  else { entries := es, pending := { comments, context }, stage := .context }

theorem feedAll_head (es : List Entry) {comments context : List Text}
    (hcomments : IsCommentBlock comments) (hcontext : context = [] ∨ IsField .context context)
    (number : Nat) :
    ({ entries := es } : Draft).feedAll number (comments ++ context) =
      ofHead es comments context := by
  rw [feedAll_append, feedAll_comments es hcomments]
  rcases hcontext with rfl | hcontext
  · rfl
  · have hempty : context.isEmpty = false := by simpa using hcontext.ne_nil
    rw [feedAll_field hcontext (rank_ofComments es comments) nofun,
      gathered_ofComments es hcomments, ofHead, hempty]
    unfold ofComments
    split <;> rfl

theorem gathered_ofHead (es : List Entry) {comments : List Text} (h : IsCommentBlock comments)
    (context : List Text) : (ofHead es comments context).gathered = { comments, context } := by
  cases context with
  | nil => exact gathered_ofComments es h
  | cons line rest => rfl

theorem rank_ofHead (es : List Entry) (comments context : List Text) :
    (ofHead es comments context).stage.rank < Stage.source.rank := by
  cases context with
  | nil => exact Nat.lt_trans (rank_ofComments es comments) (by decide)
  | cons line rest => exact show Stage.context.rank < Stage.source.rank by decide

theorem ofHead_eq (es : List Entry) (comments context : List Text) :
    ofHead es comments context =
      { entries := es, pending := (ofHead es comments context).pending,
        stage := (ofHead es comments context).stage,
        blankHeld := (ofHead es comments context).blankHeld } := by
  cases context with
  | nil =>
      have hhead : ofHead es comments [] = ofComments es comments := rfl
      rw [hhead]
      unfold ofComments
      split <;> rfl
  | cons line rest => rfl

/-- An entry is gathered up to its source. -/
theorem feedAll_source (es : List Entry) {e : Entry} (h : e.Shaped) (number : Nat) :
    ({ entries := es } : Draft).feedAll number (e.comments ++ e.context ++ e.source) =
      { entries := es, pending := { e with target := [] }, stage := .source } := by
  rw [feedAll_append, feedAll_head es h.comments h.context,
    feedAll_field h.source (rank_ofHead es e.comments e.context) nofun,
    gathered_ofHead es h.comments, ofHead_eq]
  rfl

theorem feedAll_entry (es : List Entry) {e : Entry} (h : e.Shaped) (htarget : e.target ≠ [])
    (number : Nat) :
    ({ entries := es } : Draft).feedAll number e.lines =
      { entries := es, pending := e, stage := .target } := by
  have hfield : IsField .target e.target := h.target.resolve_left htarget
  have hrank : Stage.source.rank < Slot.target.stage.rank := by decide
  rw [Entry.lines, feedAll_append, feedAll_source es h, feedAll_field hfield hrank fun _ => rfl]
  rfl

/-- The empty line behind an entry with a target closes it. -/
theorem feedAll_entry_nil (es : List Entry) {e : Entry} (h : e.Shaped) (htarget : e.target ≠ [])
    (number : Nat) :
    ({ entries := es } : Draft).feedAll number (e.lines ++ [[]]) = { entries := es ++ [e] } := by
  rw [feedAll_append, feedAll_entry es h htarget]
  rfl

theorem feedAll_entries (es fs : List Entry) (h : ∀ e ∈ fs, e.Shaped ∧ e.target ≠ [])
    (number : Nat) :
    ({ entries := es } : Draft).feedAll number (fs.flatMap fun e => e.lines ++ [[]]) =
      { entries := es ++ fs } := by
  induction fs generalizing es number with
  | nil => rw [List.flatMap_nil, feedAll_nil, List.append_nil]
  | cons e fs ih =>
      obtain ⟨hshaped, htarget⟩ := h e List.mem_cons_self
      rw [List.flatMap_cons, feedAll_append, feedAll_entry_nil es hshaped htarget,
        ih _ fun f hf => h f (List.mem_cons_of_mem _ hf), List.append_assoc]
      rfl

/-! ### The end -/

/-- A last entry that has no target is closed by the end of the text. -/
theorem finish_feedAll_last (es : List Entry) {e : Entry} (h : e.Shaped) (number : Nat)
    (ending : LineEnding) (marked : Bool) :
    (({ entries := es } : Draft).feedAll number (e.lines ++ [[]])).finish ending marked =
      { entries := es ++ [e], ending, marked } := by
  by_cases htarget : e.target = []
  · have hlines : e.lines = e.comments ++ e.context ++ e.source := by
      rw [Entry.lines, htarget, List.append_nil]
    have hentry : ({ e with target := [] } : Entry) = e := by rw [← htarget]
    have hsource : e.source.isEmpty = false := by simpa using h.source.ne_nil
    have hpass : ({ entries := es, pending := e, stage := .source } : Draft).feed
        (number + e.lines.length) [] = { entries := es, pending := e, stage := .source } := rfl
    rw [feedAll_append, feedAll_cons, feedAll_nil, hlines, feedAll_source es h, hentry, ← hlines,
      hpass]
    simp [finish, hsource]
  · rw [feedAll_entry_nil es h htarget]
    simp [finish]

/-- What trails is gathered and stays without a source. -/
theorem finish_feedAll_trailing (es : List Entry) {ls : List Text} (h : IsTrailing ls)
    (number : Nat) (ending : LineEnding) (marked : Bool) :
    (({ entries := es } : Draft).feedAll number (ls ++ [[]])).finish ending marked =
      { entries := es, trailing := ls, ending, marked } := by
  obtain ⟨comments, context, rfl, hcomments, hcontext, hlast⟩ := h
  rw [feedAll_append, feedAll_head es hcomments hcontext, feedAll_cons, feedAll_nil]
  cases context with
  | cons line rest => rfl
  | nil =>
      rw [List.append_nil] at hlast ⊢
      change ((ofComments es comments).feed _ []).finish ending marked = _
      rw [ofComments, if_neg hlast]
      cases comments with
      | nil => rfl
      | cons line rest => simp [feed, Stage.transition, meet, finish]

end Draft

/-! ### Blocks -/

namespace Catalog

theorem blocks_ne_nil {c : Catalog} (h : c.entries ≠ [] ∨ c.trailing ≠ []) : c.blocks ≠ [] := by
  rcases h with h | h <;> simp [blocks, h]

theorem mem_stored_of_mem_blocks {c : Catalog} {block : List Text} (hblock : block ∈ c.blocks)
    {line : Text} (hline : line ∈ block) : line ∈ c.stored := by
  rw [stored, List.mem_append, List.mem_flatMap]
  rcases List.mem_append.mp hblock with hblock | hblock
  · obtain ⟨e, he, rfl⟩ := List.mem_map.mp hblock
    exact Or.inl ⟨e, he, hline⟩
  · split at hblock
    · exact absurd hblock List.not_mem_nil
    · rw [List.mem_singleton.mp hblock] at hline
      exact Or.inr hline

theorem lines_append_nil {c : Catalog} (h : c.blocks ≠ []) :
    c.lines ++ [[]] = c.blocks.flatMap (· ++ [[]]) :=
  Text.intercalate_append_self [[]] h

/-- Every line that is written is held by the catalog or stands between blocks. -/
theorem mem_stored_or_eq_nil {c : Catalog} {line : Text} (h : line ∈ c.lines) :
    line ∈ c.stored ∨ line = [] := by
  have hne : c.blocks ≠ [] := by
    intro hnil
    rw [lines, hnil] at h
    exact absurd h List.not_mem_nil
  have hmem : line ∈ c.blocks.flatMap (· ++ [[]]) := by
    rw [← lines_append_nil hne]
    exact List.mem_append_left _ h
  obtain ⟨block, hblock, hline⟩ := List.mem_flatMap.mp hmem
  rcases List.mem_append.mp hline with hline | hline
  · exact Or.inl (mem_stored_of_mem_blocks hblock hline)
  · exact Or.inr (List.mem_singleton.mp hline)

/-- The lines of a catalog in shape read back as the catalog. -/
theorem finish_feedAll_lines {c : Catalog} (h : c.Shaped) (hne : c.blocks ≠ [])
    (ending : LineEnding) (marked : Bool) :
    (({} : Draft).feedAll 1 (c.lines ++ [[]])).finish ending marked =
      { entries := c.entries, trailing := c.trailing, ending, marked } := by
  rw [lines_append_nil hne]
  by_cases htrailing : c.trailing = []
  · rcases List.eq_nil_or_concat c.entries with hentries | ⟨init, last, hentries⟩
    · exact absurd (by simp [blocks, hentries, htrailing]) hne
    · rw [List.concat_eq_append] at hentries
      have hblocks : c.blocks.flatMap (· ++ [[]]) =
          (init.flatMap fun e => e.lines ++ [[]]) ++ (last.lines ++ [[]]) := by
        simp [blocks, hentries, htrailing, List.flatMap_map]
      have hinit : ∀ e ∈ init, e.Shaped ∧ e.target ≠ [] := by
        intro e he
        refine ⟨h.entries e (by simp [hentries, he]), h.targets e ?_⟩
        rw [hentries, List.dropLast_concat]
        exact he
      have hlast : last.Shaped := h.entries last (by simp [hentries])
      rw [hblocks, Draft.feedAll_append, Draft.feedAll_entries [] init hinit,
        Draft.finish_feedAll_last _ hlast, htrailing, hentries]
      rfl
  · have hblocks : c.blocks.flatMap (· ++ [[]]) =
        (c.entries.flatMap fun e => e.lines ++ [[]]) ++ (c.trailing ++ [[]]) := by
      simp [blocks, htrailing, List.flatMap_map]
    have hentries : ∀ e ∈ c.entries, e.Shaped ∧ e.target ≠ [] :=
      fun e he => ⟨h.entries e he, h.targets_of_trailing htrailing e he⟩
    rw [hblocks, Draft.feedAll_append, Draft.feedAll_entries [] c.entries hentries,
      Draft.finish_feedAll_trailing _ h.trailing]
    rfl

end Catalog

end GettextFill
