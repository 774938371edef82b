import GettextFill.Proofs.Catalog.Reading

/-!
# Reading back a written catalog

A catalog in shape that is written as a text and read again is the same catalog. On the way its lines
have to survive their terminators, and the first of them must not be taken for a byte order mark
(`Catalog.dropMark_toText`).

`Catalog.ofText_toText_eq` covers every catalog in shape. A line may come back without the carriage
return at its end, but the catalog keeps its entries as long as no line changes its kind by that.
`Catalog.ofText_toText` is the case without line feeds and carriage returns in the lines, in which
nothing changes at all.
-/

namespace GettextFill

/-! ### The first line -/

/-- A line with a byte order mark before it is of no use in a catalog. -/
theorem LineKind.ofLine_mark_cons (t : Text) :
    ofLine (Text.byteOrderMark :: t) = .blank ∨ ofLine (Text.byteOrderMark :: t) = .unknown := by
  unfold ofLine
  split
  · exact Or.inl rfl
  · exact Or.inr rfl

theorem head?_ne_mark_of_opening {line : Text} {slot : Slot}
    (h : LineKind.ofLine line = slot.opening) (rest : Text) :
    (line ++ rest).head? ≠ some Text.byteOrderMark := by
  cases line with
  | nil => exact absurd h (by cases slot <;> decide)
  | cons c t =>
      intro hhead
      have hc : c = Text.byteOrderMark := by simpa using hhead
      subst hc
      rcases LineKind.ofLine_mark_cons t with hk | hk <;> rw [hk] at h <;> cases slot <;>
        exact absurd h (by decide)

/-- Lines that begin with a line that opens a part. -/
def Opens (ls : List Text) : Prop :=
  ∃ line rest slot, ls = line :: rest ∧ LineKind.ofLine line = Slot.opening slot

theorem Opens.append {ls : List Text} (h : Opens ls) (ms : List Text) : Opens (ls ++ ms) := by
  obtain ⟨line, rest, slot, rfl, hline⟩ := h
  exact ⟨line, rest ++ ms, slot, rfl, hline⟩

theorem IsField.opens {slot : Slot} {ls : List Text} (h : IsField slot ls) : Opens ls := by
  cases ls with
  | nil => exact h.elim
  | cons line rest => exact ⟨line, rest, slot, rfl, h.1⟩

theorem IsCommentBlock.opens {ls : List Text} (h : IsCommentBlock ls) (hne : ls ≠ []) :
    Opens ls := by
  cases ls with
  | nil => exact absurd rfl hne
  | cons line rest =>
      rcases h.eq_nil_or_comment line List.mem_cons_self with rfl | hline
      · exact absurd rfl h.head?_ne_nil
      · exact ⟨line, rest, .comments, rfl, LineKind.ofLine_eq_comment_iff.mpr hline⟩

theorem Entry.Shaped.opens {e : Entry} (h : e.Shaped) : Opens e.lines := by
  rw [Entry.lines]
  refine Opens.append ?_ e.target
  by_cases hcomments : e.comments = []
  · rw [hcomments, List.nil_append]
    rcases h.context with hcontext | hcontext
    · rw [hcontext, List.nil_append]
      exact h.source.opens
    · exact hcontext.opens.append e.source
  · exact ((h.comments.opens hcomments).append e.context).append e.source

theorem IsTrailing.opens {ls : List Text} (h : IsTrailing ls) (hne : ls ≠ []) : Opens ls := by
  obtain ⟨comments, context, rfl, hcomments, hcontext, -⟩ := h
  by_cases hnil : comments = []
  · subst hnil
    rw [List.nil_append] at hne ⊢
    exact (hcontext.resolve_left hne).opens
  · exact (hcomments.opens hnil).append context

namespace Catalog

theorem Shaped.opens {c : Catalog} (h : c.Shaped) (hne : c.blocks ≠ []) : Opens c.lines := by
  have hblock : ∀ block ∈ c.blocks, Opens block := by
    intro block hblock
    rcases List.mem_append.mp hblock with hblock | hblock
    · obtain ⟨e, he, rfl⟩ := List.mem_map.mp hblock
      exact (h.entries e he).opens
    · split at hblock
      · exact absurd hblock List.not_mem_nil
      · next hempty =>
        rw [List.mem_singleton.mp hblock]
        exact h.trailing.opens fun hnil => hempty (List.isEmpty_iff.mpr hnil)
  rw [lines]
  cases hblocks : c.blocks with
  | nil => exact absurd hblocks hne
  | cons block blocks =>
      have hopens : Opens block := hblock block (by rw [hblocks]; exact List.mem_cons_self)
      by_cases hrest : blocks = []
      · subst hrest
        simpa using hopens
      · rw [List.intercalate_cons_of_ne_nil hrest]
        exact (hopens.append _).append _

/-! ### Texts -/

theorem toText_eq {c : Catalog} (hne : c.blocks ≠ []) :
    c.toText = (if c.marked then [Text.byteOrderMark] else []) ++
      c.lines.flatMap (· ++ c.ending.text) := by
  have hempty : c.blocks.isEmpty = false := by simpa using hne
  simp [toText, hempty, Text.join_append_singleton]

/-- The mark of a written catalog is told from its first line. -/
theorem dropMark_toText {c : Catalog} (h : c.Shaped) (hne : c.blocks ≠ []) :
    Text.dropMark c.toText = c.lines.flatMap (· ++ c.ending.text) ∧
      (c.toText.head? = some Text.byteOrderMark ↔ c.marked = true) := by
  rw [toText_eq hne]
  cases c.marked with
  | true => exact ⟨rfl, by simp⟩
  | false =>
      obtain ⟨line, rest, slot, hlines, hline⟩ := h.opens hne
      have hhead : (c.lines.flatMap (· ++ c.ending.text)).head? ≠ some Text.byteOrderMark := by
        rw [hlines, List.flatMap_cons, List.append_assoc]
        exact head?_ne_mark_of_opening hline _
      exact ⟨Text.dropMark_of_head?_ne hhead, by simpa using hhead⟩

end Catalog

/-! ### Lines that change on the way -/

/-- An entry with every line changed. -/
def Entry.mapLines (f : Text → Text) (e : Entry) : Entry :=
  { comments := e.comments.map f, context := e.context.map f, source := e.source.map f,
    target := e.target.map f }

/-- A catalog with every line changed. -/
def Catalog.mapLines (f : Text → Text) (c : Catalog) : Catalog :=
  { c with entries := c.entries.map (Entry.mapLines f), trailing := c.trailing.map f }

theorem Entry.lines_mapLines (f : Text → Text) (e : Entry) :
    (e.mapLines f).lines = e.lines.map f := by
  simp [Entry.mapLines, Entry.lines]

theorem Entry.mapLines_eq_self {f : Text → Text} {e : Entry} (h : ∀ l ∈ e.lines, f l = l) :
    e.mapLines f = e := by
  have hmap (ls : List Text) (hls : ∀ l ∈ ls, l ∈ e.lines) : ls.map f = ls :=
    (List.map_congr_left fun l hl => h l (hls l hl)).trans (List.map_id' ls)
  have hlines (l : Text) : l ∈ e.lines ↔
      ((l ∈ e.comments ∨ l ∈ e.context) ∨ l ∈ e.source) ∨ l ∈ e.target := by
    simp only [Entry.lines, List.mem_append]
  rw [mapLines, hmap e.comments fun l hl => (hlines l).mpr (.inl (.inl (.inl hl))),
    hmap e.context fun l hl => (hlines l).mpr (.inl (.inl (.inr hl))),
    hmap e.source fun l hl => (hlines l).mpr (.inl (.inr hl)),
    hmap e.target fun l hl => (hlines l).mpr (.inr hl)]

theorem Catalog.mapLines_eq_self {f : Text → Text} {c : Catalog} (h : ∀ l ∈ c.stored, f l = l) :
    c.mapLines f = c := by
  have hentries : c.entries.map (Entry.mapLines f) = c.entries := by
    refine (List.map_congr_left fun e he => ?_).trans (List.map_id' _)
    refine Entry.mapLines_eq_self fun l hl => h l ?_
    exact List.mem_append_left _ (List.mem_flatMap.mpr ⟨e, he, hl⟩)
  have htrailing : c.trailing.map f = c.trailing :=
    (List.map_congr_left fun l hl => h l (List.mem_append_right _ hl)).trans (List.map_id' _)
  rw [mapLines, hentries, htrailing]

/-- A change of lines that leaves empty lines empty and every line of the kind that it is. -/
structure KeepsKinds (f : Text → Text) (ls : List Text) : Prop where
  nil : f [] = []
  kind : ∀ l ∈ ls, LineKind.ofLine (f l) = LineKind.ofLine l

theorem KeepsKinds.of_subset {f : Text → Text} {ls ms : List Text} (h : KeepsKinds f ls)
    (hsub : ∀ l ∈ ms, l ∈ ls) : KeepsKinds f ms :=
  ⟨h.nil, fun l hl => h.kind l (hsub l hl)⟩

theorem IsField.map {slot : Slot} {ls : List Text} {f : Text → Text} (h : IsField slot ls)
    (hf : KeepsKinds f ls) : IsField slot (ls.map f) := by
  cases ls with
  | nil => exact h.elim
  | cons line rest =>
      refine ⟨by rw [hf.kind line List.mem_cons_self]; exact h.1, ?_⟩
      intro l hl
      obtain ⟨m, hm, rfl⟩ := List.mem_map.mp hl
      rw [hf.kind m (List.mem_cons_of_mem _ hm)]
      exact h.2 m hm

theorem IsCommentBlock.map {ls : List Text} {f : Text → Text} (h : IsCommentBlock ls)
    (hf : KeepsKinds f ls) : IsCommentBlock (ls.map f) := by
  have hcomment : ∀ l ∈ ls, l ≠ [] → (f l).head? = some '#' := by
    intro l hl hne
    have hkind := (h.eq_nil_or_comment l hl).resolve_left hne
    rw [← LineKind.ofLine_eq_comment_iff, hf.kind l hl]
    exact LineKind.ofLine_eq_comment_iff.mpr hkind
  have hne : ∀ l ∈ ls, l ≠ [] → f l ≠ [] := by
    intro l hl hl' hnil
    exact absurd (hcomment l hl hl') (by simp [hnil])
  refine ⟨?_, ?_, ?_⟩
  · intro l hl
    obtain ⟨m, hm, rfl⟩ := List.mem_map.mp hl
    by_cases hm' : m = []
    · subst hm'
      exact Or.inl hf.nil
    · exact Or.inr (hcomment m hm hm')
  · cases ls with
    | nil => simp
    | cons line rest =>
        have hline : line ≠ [] := by
          rintro rfl
          exact h.head?_ne_nil rfl
        simpa using hne line List.mem_cons_self hline
  · rw [List.isChain_map]
    refine h.chain.imp_of_mem_imp fun l m hl hm hlm => ?_
    exact hlm.imp (hne l hl) (hne m hm)

theorem Entry.Shaped.mapLines {e : Entry} {f : Text → Text} (h : e.Shaped)
    (hf : KeepsKinds f e.lines) : (e.mapLines f).Shaped where
  comments := h.comments.map (hf.of_subset fun l hl => by simp [Entry.lines, hl])
  context := h.context.imp (fun hnil => by rw [Entry.mapLines, hnil]; rfl)
    fun hfield => hfield.map (hf.of_subset fun l hl => by simp [Entry.lines, hl])
  source := h.source.map (hf.of_subset fun l hl => by simp [Entry.lines, hl])
  target := h.target.imp (fun hnil => by rw [Entry.mapLines, hnil]; rfl)
    fun hfield => hfield.map (hf.of_subset fun l hl => by simp [Entry.lines, hl])

theorem IsTrailing.map {ls : List Text} {f : Text → Text} (h : IsTrailing ls)
    (hf : KeepsKinds f ls) : IsTrailing (ls.map f) := by
  obtain ⟨comments, context, rfl, hcomments, hcontext, hlast⟩ := h
  refine ⟨comments.map f, context.map f, List.map_append, ?_, ?_, ?_⟩
  · exact hcomments.map (hf.of_subset fun l hl => List.mem_append_left _ hl)
  · refine hcontext.imp (fun hnil => by rw [hnil]; rfl) fun hfield => ?_
    exact hfield.map (hf.of_subset fun l hl => List.mem_append_right _ hl)
  · rw [List.getLast?_map]
    intro hmap
    obtain ⟨line, hline, hnil⟩ := Option.map_eq_some_iff.mp hmap
    have hmem : line ∈ comments ++ context := List.mem_of_getLast? hline
    have hkind : LineKind.ofLine line = .blank := by
      rw [← hf.kind line hmem, hnil]
      rfl
    rcases List.mem_append.mp hmem with hc | hx
    · rcases hcomments.eq_nil_or_comment line hc with rfl | hhead
      · exact hlast hline
      · rw [LineKind.ofLine_eq_comment_iff.mpr hhead] at hkind
        exact absurd hkind (by decide)
    · rcases hcontext with rfl | hfield
      · exact absurd hx List.not_mem_nil
      · exact hfield.ofLine_ne_blank line hx hkind

namespace Catalog

theorem Shaped.mapLines {c : Catalog} {f : Text → Text} (h : c.Shaped)
    (hf : KeepsKinds f c.stored) : (c.mapLines f).Shaped := by
  have hentry : ∀ e ∈ c.entries, KeepsKinds f e.lines := fun e he =>
    hf.of_subset fun l hl => List.mem_append_left _ (List.mem_flatMap.mpr ⟨e, he, hl⟩)
  have htarget : ∀ e : Entry, e.target ≠ [] → (e.mapLines f).target ≠ [] :=
    fun e hne hnil => hne (List.map_eq_nil_iff.mp hnil)
  refine ⟨?_, ?_, ?_, ?_⟩
  · intro _ hmem
    obtain ⟨e, he, rfl⟩ := List.mem_map.mp hmem
    exact (h.entries e he).mapLines (hentry e he)
  · intro _ hmem
    rw [Catalog.mapLines, ← List.map_dropLast] at hmem
    obtain ⟨e, he, rfl⟩ := List.mem_map.mp hmem
    exact htarget e (h.targets e he)
  · intro hne _ hmem
    obtain ⟨e, he, rfl⟩ := List.mem_map.mp hmem
    have htrailing : c.trailing ≠ [] := fun hnil => hne (by simp [Catalog.mapLines, hnil])
    exact htarget e (h.targets_of_trailing htrailing e he)
  · exact h.trailing.map (hf.of_subset fun l hl => List.mem_append_right _ hl)

theorem blocks_mapLines (f : Text → Text) (c : Catalog) :
    (c.mapLines f).blocks = c.blocks.map (List.map f) := by
  by_cases h : c.trailing = [] <;>
    simp [blocks, Catalog.mapLines, h, Function.comp_def, Entry.lines_mapLines]

theorem lines_mapLines {f : Text → Text} (hnil : f [] = []) {c : Catalog} (hne : c.blocks ≠ []) :
    (c.mapLines f).lines ++ [[]] = c.lines.map f ++ [[]] := by
  have hne' : (c.mapLines f).blocks ≠ [] := by simpa [blocks_mapLines] using hne
  have hmap : c.lines.map f ++ [[]] = (c.lines ++ [[]]).map f := by simp [hnil]
  rw [hmap, lines_append_nil hne, lines_append_nil hne', blocks_mapLines, List.map_flatMap,
    List.flatMap_map]
  simp [hnil]

/-! ### The round trip -/

/-- A catalog in shape reads back with every line as it was reread, if that changes no kind. -/
theorem ofText_toText_eq {c : Catalog} (h : c.Shaped) (hne : c.blocks ≠ [])
    (hn : ∀ l ∈ c.stored, '\n' ∉ l)
    (hkind : ∀ l ∈ c.stored, LineKind.ofLine (c.ending.reread l) = LineKind.ofLine l) :
    ofText c.toText =
      { c.mapLines c.ending.reread with
        ending := LineEnding.ofText (c.lines.flatMap (· ++ c.ending.text)),
        ignored := [], moved := [] } := by
  obtain ⟨hbody, hmark⟩ := dropMark_toText h hne
  have hnil : c.ending.reread [] = [] := c.ending.reread_nil
  have hnewline : ∀ l ∈ c.lines, '\n' ∉ l := by
    intro l hl
    rcases mem_stored_or_eq_nil hl with hl | rfl
    · exact hn l hl
    · exact List.not_mem_nil
  have hshaped : (c.mapLines c.ending.reread).Shaped := h.mapLines ⟨hnil, hkind⟩
  have hne' : (c.mapLines c.ending.reread).blocks ≠ [] := by simpa [blocks_mapLines] using hne
  have hmarked : decide (c.toText.head? = some Text.byteOrderMark) = c.marked :=
    Bool.eq_iff_iff.mpr (by simpa using hmark)
  rw [ofText, hbody, Text.lines_terminated c.ending c.lines hnewline, ← lines_mapLines hnil hne,
    finish_feedAll_lines hshaped hne', hmarked]
  rfl

/-- A catalog in shape reads back as it is if no terminator can be mistaken. -/
theorem ofText_toText_of_clean {c : Catalog} (h : c.Shaped) (hne : c.blocks ≠ [])
    (hn : ∀ l ∈ c.stored, '\n' ∉ l)
    (hreturn : c.ending = .lf → ∀ l ∈ c.stored, l.getLast? ≠ some '\r') :
    ofText c.toText = { c with ignored := [], moved := [] } := by
  have hreread : ∀ l ∈ c.stored, c.ending.reread l = l :=
    fun l hl => LineEnding.reread_eq_self fun hlf => hreturn hlf l hl
  have hlines : ∀ l ∈ c.lines, '\n' ∉ l ∧ (c.ending = .lf → l.getLast? ≠ some '\r') := by
    intro l hl
    rcases mem_stored_or_eq_nil hl with hl | rfl
    · exact ⟨hn l hl, fun hlf => hreturn hlf l hl⟩
    · exact ⟨List.not_mem_nil, fun _ => by simp⟩
  have hlinesne : c.lines ≠ [] := by
    obtain ⟨line, rest, slot, hl, -⟩ := h.opens hne
    simp [hl]
  have hending : LineEnding.ofText (c.lines.flatMap (· ++ c.ending.text)) = c.ending :=
    LineEnding.ofText_terminated c.ending c.lines hlinesne (fun l hl => (hlines l hl).1)
      fun hlf l hl => (hlines l hl).2 hlf
  rw [ofText_toText_eq h hne hn fun l hl => by rw [hreread l hl], hending,
    mapLines_eq_self hreread]

/-- A catalog that can be written: in shape, and without a part of a terminator in a line. -/
structure WellFormed (c : Catalog) : Prop where
  shaped : c.Shaped
  unbroken : ∀ l ∈ c.stored, '\n' ∉ l ∧ '\r' ∉ l

/-- A well-formed catalog that holds anything reads back as it was written, with its entries, what
trails, its terminator and its mark; no line is ignored or moved. -/
theorem ofText_toText {c : Catalog} (h : c.WellFormed) (hne : c.entries ≠ [] ∨ c.trailing ≠ []) :
    ofText c.toText = { c with ignored := [], moved := [] } := by
  refine ofText_toText_of_clean h.shaped (blocks_ne_nil hne) (fun l hl => (h.unbroken l hl).1) ?_
  intro _ l hl hlast
  exact (h.unbroken l hl).2 (List.mem_of_getLast? hlast)

/-- A catalog with everything that a well-formed one may have: a mark, blank lines among comments,
contexts, plural forms and lines that trail. -/
theorem ofText_toText_marked :
    let c : Catalog :=
      { entries :=
          [{ comments := ["# a" , []], context := ["msgctxt \"m\""],
             source := ["msgid \"a\"", "\"b\""], target := ["msgstr \"c\""] },
           { source := ["msgid \"x\"", "msgid_plural \"y\""],
             target := ["msgstr[0] \"\"", "msgstr[1] \"\""] }],
        trailing := ["#~ msgid \"z\"", [], "msgctxt \"n\""], ending := .crlf, marked := true }
    c.WellFormed ∧ c.entries ≠ [] ∧ ofText c.toText = { c with ignored := [], moved := [] } := by
  intro c
  have hshaped : c.Shaped :=
    ⟨by decide, by decide, fun _ => by decide,
      ["#~ msgid \"z\"", []], ["msgctxt \"n\""], rfl, by decide, by decide, by decide⟩
  have h : c.WellFormed := ⟨hshaped, by decide⟩
  have hne : c.entries ≠ [] := by decide
  exact ⟨h, hne, ofText_toText h (Or.inl hne)⟩

end Catalog

end GettextFill
