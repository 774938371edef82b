import GettextFill.Proofs.Catalog.Shape
import GettextFill.Proofs.Text.Lines

/-!
# The account of lines

What becomes of every line of a text that is read. The reader keeps no numbers with the lines it
stores, so a layout stands beside the catalog: for each entry, and for what trails, the stored lines
with the numbers of the lines they come from (`Placed`). `Layout` says that a layout accounts for
the numbered lines of a text: each line that is not blank is stored once or ignored, and stored
lines stand in the order of their numbers, but for comments that were moved up.

A step of the reader stores lines in at most one place of the entry being gathered, which is
`Layout.insert`; a held blank line is such a line as well. `Draft.Account` is what the steps keep,
and `Catalog.ofText_account` is what is left of it when the text is read.
-/

namespace GettextFill

/-- A stored line with the number of the line that it comes from. A comment that was met inside a
field is moved. -/
structure Placed where
  number : Nat
  line : Text
  moved : Bool := false
  deriving DecidableEq

namespace Placed

/-- The order of the lines of one entry: that of their numbers, except that a line that was moved
may stand before a line that was not. -/
def Before (p q : Placed) : Prop := p.number < q.number ∨ p.moved = true ∧ q.moved = false

/-- What a placed line has to do with the numbered lines it comes from. -/
structure ComesFrom (numbered : List (Text × Nat)) (p : Placed) : Prop where
  /-- A line is stored as it is. -/
  verbatim : p.line ≠ [] → (p.line, p.number) ∈ numbered
  /-- An empty line stands for a blank one. -/
  blank : p.line = [] → ∃ line, (line, p.number) ∈ numbered ∧ LineKind.ofLine line = .blank
  /-- Only comments move. -/
  comment : p.moved = true → LineKind.ofLine p.line = .comment

end Placed

/-- The numbers of the placed lines that were moved. -/
def movedNumbers (ps : List Placed) : List Nat := (ps.filter Placed.moved).map Placed.number

/-- The placed lines that hold something, each with its number. -/
def storedLines (ps : List Placed) : List (Text × Nat) :=
  (ps.filter fun p => p.line ≠ []).map fun p => (p.line, p.number)

/-- The lines that have to be stored: neither blank nor ignored. -/
def dueLines (numbered : List (Text × Nat)) (ignored : List Nat) : List (Text × Nat) :=
  numbered.filter fun l => LineKind.ofLine l.1 ≠ .blank ∧ l.2 ∉ ignored

/-- Blocks of placed lines that account for numbered lines. -/
structure Layout (numbered : List (Text × Nat)) (ignored moved : List Nat)
    (blocks : List (List Placed)) : Prop where
  /-- The lines that are neither blank nor ignored are stored, each once, and no other line is. -/
  stored : (storedLines blocks.flatten).Perm (dueLines numbered ignored)
  source : ∀ p ∈ blocks.flatten, p.ComesFrom numbered
  /-- Only lines that are not blank are ignored. -/
  ignored_mem : ∀ n ∈ ignored, ∃ line, (line, n) ∈ numbered ∧ LineKind.ofLine line ≠ .blank
  ignored_lt : ignored.Pairwise (· < ·)
  moved_eq : movedNumbers blocks.flatten = moved
  /-- No line moves out of its block. -/
  apart : blocks.Pairwise fun s t => ∀ p ∈ s, ∀ q ∈ t, p.number < q.number
  /-- In a block only lines that are moved leave their places. -/
  within : ∀ block ∈ blocks, block.Pairwise Placed.Before

/-! ### Layouts -/

theorem movedNumbers_append (ps qs : List Placed) :
    movedNumbers (ps ++ qs) = movedNumbers ps ++ movedNumbers qs := by
  rw [movedNumbers, List.filter_append, List.map_append]
  rfl

theorem storedLines_append (ps qs : List Placed) :
    storedLines (ps ++ qs) = storedLines ps ++ storedLines qs := by
  rw [storedLines, List.filter_append, List.map_append]
  rfl

theorem storedLines_perm {ps qs : List Placed} (h : ps.Perm qs) :
    (storedLines ps).Perm (storedLines qs) :=
  (h.filter _).map _

theorem storedLines_cons {p : Placed} (h : p.line ≠ []) (ps : List Placed) :
    storedLines (p :: ps) = (p.line, p.number) :: storedLines ps := by
  rw [storedLines, List.filter_cons_of_pos (by simp [h]), List.map_cons]
  rfl

theorem dueLines_append (s t : List (Text × Nat)) (ignored : List Nat) :
    dueLines (s ++ t) ignored = dueLines s ignored ++ dueLines t ignored :=
  List.filter_append ..

/-- A number that is not in use can be ignored without effect. -/
theorem dueLines_ignore {numbered : List (Text × Nat)} {number : Nat}
    (h : ∀ l ∈ numbered, l.2 < number) (ignored : List Nat) :
    dueLines numbered (ignored ++ [number]) = dueLines numbered ignored := by
  refine List.filter_congr fun l hl => ?_
  have hne : l.2 ≠ number := Nat.ne_of_lt (h l hl)
  simp [hne]

/-! ### Blocks with one more line in the last -/

theorem flatten_concat (closed : List (List Placed)) (block : List Placed) :
    (closed ++ [block]).flatten = closed.flatten ++ block := by
  rw [List.flatten_append, List.flatten_singleton]

theorem flatten_insert_perm (closed : List (List Placed)) (front back : List Placed) (p : Placed) :
    (closed ++ [front ++ p :: back]).flatten.Perm (p :: (closed ++ [front ++ back]).flatten) := by
  rw [flatten_concat, flatten_concat, ← List.append_assoc, ← List.append_assoc]
  exact List.perm_middle

/-- A line that moved is the last of those that did if it stands before lines that did not. -/
theorem movedNumbers_insert {front back : List Placed} {p : Placed}
    (hback : ∀ q ∈ back, q.moved = false) :
    movedNumbers (front ++ p :: back) =
      if p.moved then movedNumbers (front ++ back) ++ [p.number]
      else movedNumbers (front ++ back) := by
  have hnone : movedNumbers back = [] := by
    rw [movedNumbers, List.map_eq_nil_iff, List.filter_eq_nil_iff]
    intro q hq
    simp [hback q hq]
  have hsingle : movedNumbers [p] = if p.moved then [p.number] else [] := by
    cases hp : p.moved <;> simp [movedNumbers, hp]
  rw [← List.singleton_append, movedNumbers_append, movedNumbers_append, movedNumbers_append,
    hnone, hsingle]
  split <;> simp

theorem apart_insert {closed : List (List Placed)} {front back : List Placed} {p : Placed}
    (h : (closed ++ [front ++ back]).Pairwise fun s t => ∀ q ∈ s, ∀ r ∈ t, q.number < r.number)
    (hlt : ∀ q ∈ closed.flatten, q.number < p.number) :
    (closed ++ [front ++ p :: back]).Pairwise
      fun s t => ∀ q ∈ s, ∀ r ∈ t, q.number < r.number := by
  rw [List.pairwise_append] at h ⊢
  refine ⟨h.1, List.pairwise_singleton _ _, ?_⟩
  intro s hs t ht q hq r hr
  have hold : ∀ r ∈ front ++ back, q.number < r.number :=
    h.2.2 s hs _ (List.mem_singleton_self _) q hq
  rw [List.mem_singleton.mp ht, List.mem_append, List.mem_cons] at hr
  rcases hr with hr | rfl | hr
  · exact hold r (List.mem_append_left _ hr)
  · exact hlt q (List.mem_flatten_of_mem hs hq)
  · exact hold r (List.mem_append_right _ hr)

namespace Placed

theorem ComesFrom.mono {numbered more : List (Text × Nat)} (hsub : numbered ⊆ more) {p : Placed}
    (h : p.ComesFrom numbered) : p.ComesFrom more where
  verbatim := fun hne => hsub (h.verbatim hne)
  blank := fun hnil => by
    obtain ⟨line, hmem, hkind⟩ := h.blank hnil
    exact ⟨line, hsub hmem, hkind⟩
  comment := h.comment

theorem ComesFrom.number_mem {numbered : List (Text × Nat)} {p : Placed}
    (h : p.ComesFrom numbered) : ∃ line, (line, p.number) ∈ numbered := by
  by_cases hline : p.line = []
  · obtain ⟨line, hmem, -⟩ := h.blank hline
    exact ⟨line, hmem⟩
  · exact ⟨p.line, h.verbatim hline⟩

/-- A line moves past lines that were not moved and keeps its place with the rest. -/
theorem pairwise_before_insert {front back : List Placed} {p : Placed}
    (h : (front ++ back).Pairwise Before) (hlt : ∀ q ∈ front, q.number < p.number)
    (hback : ∀ q ∈ back, p.moved = true ∧ q.moved = false) :
    (front ++ p :: back).Pairwise Before := by
  rw [List.pairwise_append] at h ⊢
  refine ⟨h.1, List.pairwise_cons.mpr ⟨fun q hq => Or.inr (hback q hq), h.2.1⟩, ?_⟩
  intro q hq r hr
  rcases List.mem_cons.mp hr with rfl | hr
  · exact Or.inl (hlt q hq)
  · exact h.2.2 q hq r hr

end Placed

namespace Layout

variable {numbered : List (Text × Nat)} {ignored moved : List Nat} {blocks : List (List Placed)}

theorem init : Layout [] [] [] [[]] where
  stored := .refl _
  source := fun _ h => absurd h List.not_mem_nil
  ignored_mem := fun _ h => absurd h List.not_mem_nil
  ignored_lt := .nil
  moved_eq := rfl
  apart := List.pairwise_singleton _ _
  within := fun _ h => by
    rw [List.mem_singleton.mp h]
    exact .nil

theorem number_lt (h : Layout numbered ignored moved blocks) {number : Nat}
    (hlt : ∀ l ∈ numbered, l.2 < number) : ∀ p ∈ blocks.flatten, p.number < number := by
  intro p hp
  obtain ⟨line, hmem⟩ := (h.source p hp).number_mem
  exact hlt _ hmem

theorem ignored_lt_number (h : Layout numbered ignored moved blocks) {number : Nat}
    (hlt : ∀ l ∈ numbered, l.2 < number) : ∀ n ∈ ignored, n < number := by
  intro n hn
  obtain ⟨line, hmem, -⟩ := h.ignored_mem n hn
  exact hlt _ hmem

/-- A blank line changes nothing. -/
theorem blank (h : Layout numbered ignored moved blocks) {line : Text}
    (hline : LineKind.ofLine line = .blank) (number : Nat) :
    Layout (numbered ++ [(line, number)]) ignored moved blocks := by
  have hsub : numbered ⊆ numbered ++ [(line, number)] := List.subset_append_left _ _
  refine { h with stored := ?_, source := ?_, ignored_mem := ?_ }
  · have hdue : dueLines [(line, number)] ignored = [] := by
      rw [dueLines, List.filter_singleton]
      simp [hline]
    rw [dueLines_append, hdue, List.append_nil]
    exact h.stored
  · exact fun p hp => (h.source p hp).mono hsub
  · intro n hn
    obtain ⟨l, hmem, hkind⟩ := h.ignored_mem n hn
    exact ⟨l, hsub hmem, hkind⟩

/-- A line can be ignored. -/
theorem ignore (h : Layout numbered ignored moved blocks) {line : Text} {number : Nat}
    (hlt : ∀ l ∈ numbered, l.2 < number) (hline : LineKind.ofLine line ≠ .blank) :
    Layout (numbered ++ [(line, number)]) (ignored ++ [number]) moved blocks := by
  have hsub : numbered ⊆ numbered ++ [(line, number)] := List.subset_append_left _ _
  refine { h with stored := ?_, source := ?_, ignored_mem := ?_, ignored_lt := ?_ }
  · have hdue : dueLines [(line, number)] (ignored ++ [number]) = [] := by
      rw [dueLines, List.filter_singleton]
      simp
    rw [dueLines_append, hdue, List.append_nil, dueLines_ignore hlt]
    exact h.stored
  · exact fun p hp => (h.source p hp).mono hsub
  · intro n hn
    rcases List.mem_append.mp hn with hn | hn
    · obtain ⟨l, hmem, hkind⟩ := h.ignored_mem n hn
      exact ⟨l, hsub hmem, hkind⟩
    · rw [List.mem_singleton.mp hn]
      exact ⟨line, List.mem_append_right _ (List.mem_singleton_self _), hline⟩
  · rw [List.pairwise_append]
    refine ⟨h.ignored_lt, List.pairwise_singleton _ _, ?_⟩
    intro n hn m hm
    rw [List.mem_singleton.mp hm]
    exact h.ignored_lt_number hlt n hn

/-- The next block begins. -/
theorem close (h : Layout numbered ignored moved blocks) :
    Layout numbered ignored moved (blocks ++ [[]]) := by
  have hflatten : (blocks ++ [[]]).flatten = blocks.flatten := by
    rw [flatten_concat, List.append_nil]
  refine ⟨hflatten ▸ h.stored, hflatten ▸ h.source, h.ignored_mem, h.ignored_lt, hflatten ▸ h.moved_eq,
    ?_, ?_⟩
  · rw [List.pairwise_append]
    refine ⟨h.apart, List.pairwise_singleton _ _, ?_⟩
    intro s _ t ht p _ q hq
    rw [List.mem_singleton.mp ht] at hq
    exact absurd hq List.not_mem_nil
  · intro block hblock
    rcases List.mem_append.mp hblock with hblock | hblock
    · exact h.within block hblock
    · rw [List.mem_singleton.mp hblock]
      exact .nil

/-- A line of a higher number than all that are stored is stored in the last block: at its end, or
before lines that it may move past. -/
theorem insert {closed : List (List Placed)} {front back : List Placed}
    (h : Layout numbered ignored moved (closed ++ [front ++ back])) {more : List (Text × Nat)}
    (hsub : numbered ⊆ more) {p : Placed} (hsource : p.ComesFrom more)
    (hstored : (storedLines [p] ++ dueLines numbered ignored).Perm (dueLines more ignored))
    (hlt : ∀ q ∈ (closed ++ [front ++ back]).flatten, q.number < p.number)
    (hback : ∀ q ∈ back, p.moved = true ∧ q.moved = false) :
    Layout more ignored (if p.moved then moved ++ [p.number] else moved)
      (closed ++ [front ++ p :: back]) := by
  have hperm := flatten_insert_perm closed front back p
  refine ⟨?_, ?_, ?_, h.ignored_lt, ?_, ?_, ?_⟩
  · have hcons : storedLines (p :: (closed ++ [front ++ back]).flatten) =
        storedLines [p] ++ storedLines (closed ++ [front ++ back]).flatten := by
      rw [← storedLines_append, List.singleton_append]
    refine (storedLines_perm hperm).trans ?_
    rw [hcons]
    exact (h.stored.append_left _).trans hstored
  · intro q hq
    rcases List.mem_cons.mp (hperm.mem_iff.mp hq) with rfl | hq
    · exact hsource
    · exact (h.source q hq).mono hsub
  · intro n hn
    obtain ⟨line, hmem, hkind⟩ := h.ignored_mem n hn
    exact ⟨line, hsub hmem, hkind⟩
  · rw [← h.moved_eq, flatten_concat, flatten_concat, ← List.append_assoc, ← List.append_assoc]
    exact movedNumbers_insert fun q hq => (hback q hq).2
  · exact apart_insert h.apart fun q hq => hlt q (by
      rw [flatten_concat]
      exact List.mem_append_left _ hq)
  · intro block hblock
    rcases List.mem_append.mp hblock with hblock | hblock
    · exact h.within block (List.mem_append_left _ hblock)
    · rw [List.mem_singleton.mp hblock]
      refine Placed.pairwise_before_insert (h.within _ List.mem_concat_self) ?_ hback
      intro q hq
      refine hlt q ?_
      rw [flatten_concat]
      exact List.mem_append_right _ (List.mem_append_left _ hq)

/-- The line that comes next can be stored. -/
theorem store {closed : List (List Placed)} {front back : List Placed}
    (h : Layout numbered ignored moved (closed ++ [front ++ back])) {p : Placed}
    (hlt : ∀ l ∈ numbered, l.2 < p.number) (hline : LineKind.ofLine p.line ≠ .blank)
    (hcomment : p.moved = true → LineKind.ofLine p.line = .comment)
    (hback : ∀ q ∈ back, p.moved = true ∧ q.moved = false) :
    Layout (numbered ++ [(p.line, p.number)]) ignored
      (if p.moved then moved ++ [p.number] else moved) (closed ++ [front ++ p :: back]) := by
  have hne : p.line ≠ [] := LineKind.ne_nil_of_ofLine_ne_blank hline
  have hnot : p.number ∉ ignored := fun hmem =>
    absurd (h.ignored_lt_number hlt _ hmem) (Nat.lt_irrefl _)
  refine h.insert (List.subset_append_left _ _) ⟨?_, ?_, hcomment⟩ ?_ (h.number_lt hlt) hback
  · exact fun _ => List.mem_append_right _ (List.mem_singleton_self _)
  · exact fun hnil => absurd hnil hne
  · have hdue : dueLines [(p.line, p.number)] ignored = storedLines [p] := by
      rw [storedLines_cons hne, dueLines, List.filter_cons_of_pos (by simp [hline, hnot])]
      rfl
    rw [dueLines_append, hdue]
    exact List.perm_append_comm

/-- A blank line that was held can be recorded as an empty one. -/
theorem record {closed : List (List Placed)} {front : List Placed}
    (h : Layout numbered ignored moved (closed ++ [front])) {line : Text} {number : Nat}
    (hmem : (line, number) ∈ numbered) (hline : LineKind.ofLine line = .blank)
    (hlt : ∀ q ∈ (closed ++ [front]).flatten, q.number < number) :
    Layout numbered ignored moved (closed ++ [front ++ [⟨number, [], false⟩]]) := by
  rw [← List.append_nil front] at h hlt
  exact h.insert (List.Subset.refl _) (p := ⟨number, [], false⟩)
    ⟨fun hne => absurd rfl hne, fun _ => ⟨line, hmem, hline⟩, fun hm => absurd hm Bool.false_ne_true⟩
    (.refl _) hlt (fun _ hq => absurd hq List.not_mem_nil)

end Layout

/-! ### The draft and its layout -/

/-- The lines of an entry below its comments. -/
def Entry.fields (e : Entry) : List Text := e.context ++ e.source ++ e.target

theorem Entry.lines_eq (e : Entry) : e.lines = e.comments ++ e.fields := by
  simp only [lines, fields, List.append_assoc]

/-- A line that is put where nothing follows comes last. -/
theorem Entry.fields_push {slot : Slot} (hslot : slot ≠ .comments) {e : Entry}
    (h : ∀ other : Slot, slot.stage.rank < other.stage.rank → e.part other = []) (line : Text) :
    (e.push slot line).fields = e.fields ++ [line] := by
  cases slot with
  | comments => exact absurd rfl hslot
  | context =>
      have hsource : e.source = [] := h .source (by decide)
      have htarget : e.target = [] := h .target (by decide)
      simp [fields, push, hsource, htarget]
  | source =>
      have htarget : e.target = [] := h .target (by decide)
      simp [fields, push, htarget]
  | target => simp [fields, push]

namespace Draft

/-- A layout of the draft: what is closed, and of the entry being gathered the comments and the
lines below them. -/
structure Account (d : Draft) (numbered : List (Text × Nat)) (closed : List (List Placed))
    (above below : List Placed) : Prop where
  layout : Layout numbered d.ignored d.moved (closed ++ [above ++ below])
  entries : closed.map (·.map Placed.line) = d.entries.map Entry.lines
  comments : above.map Placed.line = d.pending.comments
  fields : below.map Placed.line = d.pending.fields
  /-- Nothing moves into a field. -/
  unmoved : ∀ p ∈ below, p.moved = false
  /-- The blank line that is held back has come after all stored lines. -/
  held : d.blankHeld = true → ∃ line number, (line, number) ∈ numbered ∧
    LineKind.ofLine line = .blank ∧ ∀ p ∈ (closed ++ [above ++ below]).flatten, p.number < number

/-- The parts beyond one that takes a line where it stands are empty. -/
theorem Shaped.later_nil {d : Draft} (h : d.Shaped) {slot : Slot} {kind : LineKind} {next : Stage}
    (hm : d.stage.Move kind (.store slot false) next) :
    ∀ other : Slot, slot.stage.rank < other.stage.rank → d.pending.part other = [] := by
  intro other hother
  cases hm with
  | enter _ _ hrank => exact h.pending.beyond other (Nat.lt_trans hrank hother)
  | follow _ _ hstage => exact h.pending.beyond other (hstage ▸ hother)

theorem fields_gathered (d : Draft) : d.gathered.fields = d.pending.fields := by
  unfold gathered
  split <;> rfl

variable {d : Draft} {numbered : List (Text × Nat)} {closed : List (List Placed)}
variable {above below : List Placed}

namespace Account

theorem init : Account {} [] [] [] [] where
  layout := .init
  entries := rfl
  comments := rfl
  fields := rfl
  unmoved := fun _ h => absurd h List.not_mem_nil
  held := fun h => absurd h (by decide)

theorem map_opened (h : d.Account numbered closed above below) :
    (above ++ below).map Placed.line = d.pending.lines := by
  rw [List.map_append, h.comments, h.fields, Entry.lines_eq]

theorem close (h : d.Account numbered closed above below) :
    d.closed.Account numbered (closed ++ [above ++ below]) [] [] where
  layout := h.layout.close
  entries := by
    show _ = (d.entries ++ [d.pending]).map Entry.lines
    rw [List.map_append, List.map_append, h.entries, List.map_singleton, List.map_singleton,
      h.map_opened]
  comments := rfl
  fields := rfl
  unmoved := fun _ h => absurd h List.not_mem_nil
  held := fun h => absurd h Bool.false_ne_true

theorem below_eq_nil (h : d.Account numbered closed above below)
    (hlater : ∀ other : Slot, Slot.comments.stage.rank < other.stage.rank →
      d.pending.part other = []) : below = [] := by
  have hcontext : d.pending.context = [] := hlater .context (by decide)
  have hsource : d.pending.source = [] := hlater .source (by decide)
  have htarget : d.pending.target = [] := hlater .target (by decide)
  have hfields := h.fields
  rw [Entry.fields, hcontext, hsource, htarget] at hfields
  exact List.map_eq_nil_iff.mp hfields

/-- A layout of the entry with the blank line that is held back recorded. -/
theorem gathered (h : d.Account numbered closed above below) (hd : d.Shaped) :
    ∃ above, Layout numbered d.ignored d.moved (closed ++ [above ++ below]) ∧
      above.map Placed.line = d.gathered.comments := by
  by_cases hheld : (d.blankHeld && !d.pending.comments.isEmpty) = true
  · obtain ⟨line, number, hmem, hline, hlt⟩ := h.held ((Bool.and_eq_true _ _).mp hheld).1
    -- a blank line is held back only among comments, where there is nothing below yet
    have hstage : d.stage = .comments := hd.held ((Bool.and_eq_true _ _).mp hheld).1
    have hbelow : below = [] := h.below_eq_nil (fun other hother =>
      hd.pending.beyond other (hstage ▸ hother))
    have hlayout := h.layout
    rw [hbelow, List.append_nil] at hlayout hlt
    refine ⟨above ++ [⟨number, [], false⟩], ?_, ?_⟩
    · rw [hbelow, List.append_nil]
      exact hlayout.record hmem hline hlt
    · rw [List.map_append, h.comments, Draft.gathered, if_pos hheld]
      rfl
  · refine ⟨above, h.layout, ?_⟩
    rw [h.comments, Draft.gathered, if_neg hheld]

theorem hold (h : d.Account numbered closed above below) {number : Nat}
    (hlt : ∀ l ∈ numbered, l.2 < number) {line : Text} (hline : LineKind.ofLine line = .blank) :
    Account { d with blankHeld := true } (numbered ++ [(line, number)]) closed above below :=
  { h with
    layout := h.layout.blank hline number
    held := fun _ => ⟨line, number, List.mem_append_right _ (List.mem_singleton_self _), hline,
      h.layout.number_lt hlt⟩ }

theorem held_append (h : d.Account numbered closed above below) (l : Text × Nat) :
    d.blankHeld = true → ∃ line number, (line, number) ∈ numbered ++ [l] ∧
      LineKind.ofLine line = .blank ∧
      ∀ p ∈ (closed ++ [above ++ below]).flatten, p.number < number := by
  intro hheld
  obtain ⟨line, number, hmem, hrest⟩ := h.held hheld
  exact ⟨line, number, List.mem_append_left _ hmem, hrest⟩

/-- A comment goes after the comments, above the field that it is met in. -/
theorem store_comment (h : d.Account numbered closed above below) (hd : d.Shaped) {number : Nat}
    (hlt : ∀ l ∈ numbered, l.2 < number) {line : Text} (hline : LineKind.ofLine line = .comment)
    {moved : Bool} (hbelow : moved = false → below = []) (next : Stage) :
    ∃ above below, Account { d.meet (.store .comments moved) number line with stage := next }
      (numbered ++ [(line, number)]) closed above below := by
  obtain ⟨above', hlayout, hcomments⟩ := h.gathered hd
  refine ⟨above' ++ [⟨number, line, moved⟩], below, ?_, h.entries, ?_, ?_, h.unmoved,
    fun hheld => absurd hheld Bool.false_ne_true⟩
  · rw [List.append_assoc]
    refine hlayout.store (p := ⟨number, line, moved⟩) hlt (by rw [hline]; decide)
      (fun _ => hline) fun q hq => ?_
    cases moved with
    | true => exact ⟨rfl, h.unmoved q hq⟩
    | false => exact absurd (hbelow rfl ▸ hq) List.not_mem_nil
  · rw [List.map_append, hcomments]
    rfl
  · rw [h.fields, ← fields_gathered]
    rfl

/-- A line of a field goes below all that is there. -/
theorem store_field (h : d.Account numbered closed above below) (hd : d.Shaped) {number : Nat}
    (hlt : ∀ l ∈ numbered, l.2 < number) {line : Text} (hline : LineKind.ofLine line ≠ .blank)
    {slot : Slot} (hslot : slot ≠ .comments)
    (hlater : ∀ other : Slot, slot.stage.rank < other.stage.rank → d.pending.part other = [])
    (next : Stage) :
    ∃ above below, Account { d.meet (.store slot false) number line with stage := next }
      (numbered ++ [(line, number)]) closed above below := by
  obtain ⟨above', hlayout, hcomments⟩ := h.gathered hd
  have hlater' : ∀ other : Slot, slot.stage.rank < other.stage.rank →
      d.gathered.part other = [] := by
    intro other hother
    have hne : other ≠ .comments := by
      rintro rfl
      cases slot <;> exact absurd hother (by decide)
    rw [part_gathered hne]
    exact hlater other hother
  refine ⟨above', below ++ [⟨number, line, false⟩], ?_, h.entries, ?_, ?_, ?_,
    fun hheld => absurd hheld Bool.false_ne_true⟩
  · rw [← List.append_nil (above' ++ below)] at hlayout
    rw [← List.append_assoc]
    exact hlayout.store (p := ⟨number, line, false⟩) hlt hline
      (fun hp => absurd hp Bool.false_ne_true) fun _ hq => absurd hq List.not_mem_nil
  · rw [hcomments]
    exact (Entry.part_push_of_ne (Ne.symm hslot) d.gathered line).symm
  · rw [List.map_append, h.fields, ← fields_gathered]
    exact (Entry.fields_push hslot hlater' line).symm
  · intro q hq
    rcases List.mem_append.mp hq with hq | hq
    · exact h.unmoved q hq
    · rw [List.mem_singleton.mp hq]

theorem store (h : d.Account numbered closed above below) (hd : d.Shaped) {number : Nat}
    (hlt : ∀ l ∈ numbered, l.2 < number) {line : Text} {slot : Slot} {moved : Bool} {next : Stage}
    (hm : d.stage.Move (LineKind.ofLine line) (.store slot moved) next) :
    ∃ above below, Account { d.meet (.store slot moved) number line with stage := next }
      (numbered ++ [(line, number)]) closed above below := by
  cases moved with
  | true =>
      cases hm with
      | aside hline _ => exact h.store_comment hd hlt hline (fun hf => absurd hf (by decide)) _
  | false =>
      have hlater := hd.later_nil hm
      by_cases hslot : slot = .comments
      · subst hslot
        exact h.store_comment hd hlt hm.comment (fun _ => h.below_eq_nil hlater) next
      · exact h.store_field hd hlt hm.ne_blank hslot hlater next

/-- One step of the reader: whatever becomes of the line, the layout accounts for it. -/
theorem feed (h : d.Account numbered closed above below) (hd : d.Shaped) {number : Nat}
    (hlt : ∀ l ∈ numbered, l.2 < number) (line : Text) :
    ∃ closed above below,
      (d.feed number line).Account (numbered ++ [(line, number)]) closed above below := by
  refine feed_preserves
    (P := fun d => d.Shaped ∧ ∃ closed above below, d.Account numbered closed above below)
    (Q := fun d => ∃ closed above below,
      d.Account (numbered ++ [(line, number)]) closed above below)
    ?_ ?_ ⟨hd, closed, above, below, h⟩
  · rintro d ⟨hd, closed, above, below, h⟩ hstage
    exact ⟨hd.closed hstage, _, _, _, h.close⟩
  · rintro d fate next ⟨hd, closed, above, below, h⟩ hm
    cases fate with
    | skip =>
        cases hm with
        | pass hline =>
            exact ⟨closed, above, below, h.layout.blank hline number, h.entries, h.comments,
              h.fields, h.unmoved, h.held_append _⟩
    | hold =>
        cases hm with
        | hold hline => exact ⟨closed, above, below, h.hold hlt hline⟩
    | ignore =>
        cases hm with
        | ignore hline =>
            exact ⟨closed, above, below, h.layout.ignore hlt hline, h.entries, h.comments,
              h.fields, h.unmoved, h.held_append _⟩
    | store slot moved => exact ⟨closed, h.store hd hlt hm⟩

/-- A whole run of the reader. -/
theorem feedAll (h : d.Account numbered closed above below) (hd : d.Shaped) {number : Nat}
    (hlt : ∀ l ∈ numbered, l.2 < number) (ls : List Text) :
    ∃ closed above below,
      (d.feedAll number ls).Account (numbered ++ ls.zipIdx number) closed above below := by
  induction ls generalizing d numbered closed above below number with
  | nil =>
      rw [List.zipIdx_nil, List.append_nil]
      exact ⟨closed, above, below, h⟩
  | cons line ls ih =>
      -- numbers go up, so the next number is again above all that are in use
      obtain ⟨closed', above', below', hnext⟩ := h.feed hd hlt line
      rw [List.zipIdx_cons, List.append_cons]
      refine ih hnext (hd.feed number line) ?_
      intro l hl
      rcases List.mem_append.mp hl with hl | hl
      · exact Nat.lt_succ_of_lt (hlt l hl)
      · rw [List.mem_singleton.mp hl]
        exact Nat.lt_succ_self number

end Account

/-- At the end of the lines what is gathered is the last entry, or it trails. -/
theorem Account.finish (h : d.Account numbered closed above below) (hd : d.Shaped) (ending : LineEnding)
    (marked : Bool) :
    ∃ blocks, Layout numbered d.ignored d.moved blocks ∧ blocks.map (·.map Placed.line) =
      (d.finish ending marked).entries.map Entry.lines ++ [(d.finish ending marked).trailing] := by
  rw [Draft.finish]
  split
  · next hempty =>
    have hsource : d.pending.source = [] := List.isEmpty_iff.mp hempty
    have htarget : d.pending.target = [] := hd.target_eq_nil hsource
    refine ⟨_, h.layout, ?_⟩
    rw [List.map_append, h.entries, List.map_singleton, h.map_opened, Entry.lines, hsource,
      htarget, List.append_nil, List.append_nil]
  · refine ⟨_, h.close.layout, ?_⟩
    rw [List.map_append, h.close.entries]
    rfl

end Draft

namespace Layout

variable {numbered : List (Text × Nat)} {ignored moved : List Nat} {blocks : List (List Placed)}

/-- Lines that move keep their order. -/
theorem moved_lt (h : Layout numbered ignored moved blocks) : moved.Pairwise (· < ·) := by
  have hbefore : blocks.flatten.Pairwise Placed.Before :=
    List.pairwise_flatten.mpr ⟨h.within, h.apart.imp fun hst p hp q hq => Or.inl (hst p hp q hq)⟩
  rw [← h.moved_eq, movedNumbers, List.pairwise_map, List.pairwise_filter]
  refine hbefore.imp fun hpq _ hq => hpq.resolve_right fun hmoved => ?_
  rw [hmoved.2] at hq
  exact Bool.false_ne_true hq

/-- No line that moves is ignored. -/
theorem not_mem_ignored (h : Layout numbered ignored moved blocks) : ∀ n ∈ moved, n ∉ ignored := by
  intro n hn
  rw [← h.moved_eq, movedNumbers, List.mem_map] at hn
  obtain ⟨p, hp, rfl⟩ := hn
  rw [List.mem_filter] at hp
  have hcomment : LineKind.ofLine p.line = .comment := (h.source p hp.1).comment hp.2
  have hne : p.line ≠ [] := LineKind.ne_nil_of_ofLine_ne_blank (by rw [hcomment]; decide)
  have hmem : (p.line, p.number) ∈ storedLines blocks.flatten :=
    List.mem_map_of_mem (List.mem_filter.mpr ⟨hp.1, decide_eq_true hne⟩)
  have hdue := h.stored.mem_iff.mp hmem
  rw [dueLines, List.mem_filter, decide_eq_true_eq] at hdue
  exact hdue.2.2

end Layout

/-- The layout of a catalog that was read from a text. -/
theorem Catalog.ofText_layout (t : Text) :
    ∃ blocks, Layout ((Text.lines (Text.dropMark t)).zipIdx 1) (ofText t).ignored (ofText t).moved
        blocks ∧
      blocks.map (·.map Placed.line) = (ofText t).entries.map Entry.lines ++ [(ofText t).trailing] := by
  have hnone : ∀ l ∈ ([] : List (Text × Nat)), l.2 < 1 := fun _ hl => absurd hl List.not_mem_nil
  obtain ⟨closed, above, below, h⟩ :=
    Draft.Account.init.feedAll .init hnone (Text.lines (Text.dropMark t))
  obtain ⟨blocks, hlayout, hlines⟩ := h.finish (.feedAll .init 1 _)
    (LineEnding.ofText (Text.dropMark t)) (t.head? = some Text.byteOrderMark)
  rw [List.nil_append, ← Draft.finish_ignored, ← Draft.finish_moved] at hlayout
  exact ⟨blocks, hlayout, hlines⟩

/-- A line that a catalog stores is a line of the text that it was read from, or empty. -/
theorem Catalog.mem_lines_of_mem_stored {t l : Text} (h : l ∈ (ofText t).stored) :
    l ∈ Text.lines (Text.dropMark t) ∨ l = [] := by
  obtain ⟨blocks, hlayout, hlines⟩ := ofText_layout t
  have hflatten : blocks.flatten.map Placed.line = (ofText t).stored := by
    rw [stored, List.map_flatten, hlines, List.flatten_append, List.flatten_singleton, List.flatMap_def]
  rw [← hflatten, List.mem_map] at h
  obtain ⟨p, hp, rfl⟩ := h
  by_cases hline : p.line = []
  · exact Or.inr hline
  · exact Or.inl (List.fst_mem_of_mem_zipIdx ((hlayout.source p hp).verbatim hline))

theorem Catalog.newline_not_mem_of_mem_stored {t l : Text} (h : l ∈ (ofText t).stored) :
    '\n' ∉ l := by
  rcases mem_lines_of_mem_stored h with h | rfl
  · exact Text.newline_not_mem_of_mem_lines h
  · exact List.not_mem_nil

/-- How a catalog accounts for the numbered lines that it was read from. -/
structure Catalog.Account (c : Catalog) (numbered : List (Text × Nat))
    (blocks : List (List Placed)) : Prop where
  layout : Layout numbered c.ignored c.moved blocks
  /-- The blocks are the lines of the entries, each in its parts, and what trails. -/
  lines : blocks.map (·.map Placed.line) = c.entries.map Entry.lines ++ [c.trailing]
  /-- Empty lines stand only among comments. -/
  entries : ∀ e ∈ c.entries, IsCommentBlock e.comments ∧ [] ∉ e.context ∧ [] ∉ e.source ∧
    [] ∉ e.target
  trailing : ∃ comments context, c.trailing = comments ++ context ∧ IsCommentBlock comments ∧
    [] ∉ context
  moved_lt : c.moved.Pairwise (· < ·)
  disjoint : ∀ n ∈ c.moved, n ∉ c.ignored

/-- Whatever the text, every line of it that is not blank is ignored or stored once, and only
comments inside fields leave their places, for places above in the same entry. -/
theorem Catalog.ofText_account (t : Text) :
    ∃ blocks, (ofText t).Account ((Text.lines (Text.dropMark t)).zipIdx 1) blocks := by
  obtain ⟨blocks, hlayout, hlines⟩ := ofText_layout t
  have hshaped := ofText_shaped t
  refine ⟨blocks, hlayout, hlines, ?_, ?_, hlayout.moved_lt, hlayout.not_mem_ignored⟩
  · intro e he
    have hentry := hshaped.entries e he
    exact ⟨hentry.comments, IsField.nil_not_mem_of_or hentry.context, hentry.source.nil_not_mem,
      IsField.nil_not_mem_of_or hentry.target⟩
  · obtain ⟨comments, context, heq, hcomments, hcontext, -⟩ := hshaped.trailing
    exact ⟨comments, context, heq, hcomments, IsField.nil_not_mem_of_or hcontext⟩

end GettextFill
