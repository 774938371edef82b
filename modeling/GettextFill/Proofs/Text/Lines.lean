import GettextFill.Catalog.Basic

/-!
# Lines of a text that was written

A text that is written line by line, each line with its terminator, reads back as the same lines
and one empty line after them. What a single line reads back as is `LineEnding.reread`: a line that
ends in a carriage return loses it to a line feed after it, because the two are a terminator
together. `Text.lines_terminated` states this for whole texts and `LineEnding.ofText_terminated`
says when the terminator itself is recognised again.

A text is *paired* if every carriage return in it stands before a line feed. The lines of a paired
text are free of both characters.
-/

namespace GettextFill

/-- What a line reads back as when it is written with a terminator after it. -/
def LineEnding.reread : LineEnding → Text → Text
  | .lf => Text.dropReturn
  | .crlf => id

@[simp] theorem LineEnding.reread_nil (ending : LineEnding) : ending.reread [] = [] := by
  cases ending <;> rfl

/-- A line loses nothing if it has no carriage return at its end or if it gets one of its own. -/
theorem LineEnding.reread_eq_self {ending : LineEnding} {line : Text}
    (h : ending = .lf → line.getLast? ≠ some '\r') : ending.reread line = line := by
  cases ending with
  | lf => exact Text.dropReturn_of_getLast?_ne (h rfl)
  | crlf => rfl

namespace Text

/-! ### Dropping carriage returns -/

theorem dropReturn_eq_self_or (line : Text) :
    dropReturn line = line ∨ line = dropReturn line ++ ['\r'] := by
  by_cases h : line.getLast? = some '\r'
  · right
    obtain ⟨init, rfl⟩ := List.getLast?_eq_some_iff.mp h
    rw [dropReturn_append_return]
  · exact Or.inl (dropReturn_of_getLast?_ne h)

theorem mem_of_mem_dropReturn {line : Text} {c : Char} (h : c ∈ dropReturn line) : c ∈ line := by
  rcases dropReturn_eq_self_or line with hline | hline
  · rwa [hline] at h
  · rw [hline]
    exact List.mem_append_left _ h

theorem dropReturns_cons (line : Text) {rest : List Text} (h : rest ≠ []) :
    dropReturns (line :: rest) = dropReturn line :: dropReturns rest := by
  cases rest with
  | nil => exact absurd rfl h
  | cons next rest => rfl

/-- Every line before the last loses its carriage return. -/
theorem dropReturns_append (ls : List Text) {ms : List Text} (h : ms ≠ []) :
    dropReturns (ls ++ ms) = ls.map dropReturn ++ dropReturns ms := by
  induction ls with
  | nil => rfl
  | cons line ls ih =>
      rw [List.cons_append, dropReturns_cons line (by simp [h]), ih]
      rfl

/-! ### Reading back what was written -/

/-- A separator behind pieces that it already stands between. -/
theorem intercalate_append_self {α : Type} (separator : List α) {pieces : List (List α)}
    (h : pieces ≠ []) :
    separator.intercalate pieces ++ separator = pieces.flatMap (· ++ separator) := by
  induction pieces with
  | nil => exact absurd rfl h
  | cons piece pieces ih =>
      by_cases hp : pieces = []
      · subst hp
        simp
      · rw [List.intercalate_cons_of_ne_nil hp, List.append_assoc, ih hp, List.flatMap_cons,
          List.append_assoc]

/-- Pieces with a separator between them are pieces that each have the separator behind them, up to
the last. -/
theorem join_append_singleton (separator : Text) (ls : List Text) (last : Text) :
    join separator (ls ++ [last]) = ls.flatMap (· ++ separator) ++ last := by
  have hjoin := intercalate_append_self separator (List.concat_ne_nil last ls)
  refine List.append_cancel_right (hjoin.trans ?_)
  simp

theorem splitOn_terminated (ls : List Text) (h : ∀ line ∈ ls, '\n' ∉ line) :
    (ls.flatMap (· ++ ['\n'])).splitOn '\n' = ls ++ [[]] := by
  induction ls with
  | nil => rfl
  | cons line ls ih =>
      have hline : '\n' ∉ line := h line List.mem_cons_self
      have hrest : ∀ l ∈ ls, '\n' ∉ l := fun l hl => h l (List.mem_cons_of_mem _ hl)
      rw [List.flatMap_cons, List.append_assoc, List.singleton_append,
        List.splitOn_append_cons_self_of_not_mem hline, ih hrest, List.cons_append]

/-- Lines that end in a carriage return and a line feed are lines with a carriage return that end
in a line feed. -/
theorem flatMap_crlf (ls : List Text) :
    ls.flatMap (· ++ LineEnding.crlf.text) = (ls.map (· ++ ['\r'])).flatMap (· ++ ['\n']) := by
  rw [List.flatMap_map]
  congr 1
  funext line
  simp [LineEnding.text]

theorem splitOn_crlf (ls : List Text) (h : ∀ line ∈ ls, '\n' ∉ line) :
    (ls.flatMap (· ++ LineEnding.crlf.text)).splitOn '\n' = ls.map (· ++ ['\r']) ++ [[]] := by
  rw [flatMap_crlf]
  apply splitOn_terminated
  intro line hline
  obtain ⟨l, hl, rfl⟩ := List.mem_map.mp hline
  simp [h l hl]

/-- Lines that were written with terminators read back one by one, and an empty line follows. -/
theorem lines_terminated (ending : LineEnding) (ls : List Text) (h : ∀ line ∈ ls, '\n' ∉ line) :
    lines (ls.flatMap (· ++ ending.text)) = ls.map ending.reread ++ [[]] := by
  cases ending with
  | lf =>
      rw [lines, LineEnding.text, splitOn_terminated ls h, dropReturns_append _ (List.cons_ne_nil _ _)]
      rfl
  | crlf =>
      rw [lines, splitOn_crlf ls h, dropReturns_append _ (List.cons_ne_nil _ _), List.map_map]
      congr 2
      funext line
      exact dropReturn_append_return line

end Text

/-- The terminator of written lines is recognised if there is a line and none of them could be
taken for one with the other terminator. -/
theorem LineEnding.ofText_terminated (ending : LineEnding) (ls : List Text) (hne : ls ≠ [])
    (h : ∀ line ∈ ls, '\n' ∉ line)
    (hreturn : ending = .lf → ∀ line ∈ ls, line.getLast? ≠ some '\r') :
    LineEnding.ofText (ls.flatMap (· ++ ending.text)) = ending := by
  cases ending with
  | lf =>
      have hcount : ls.countP (fun line => line.getLast? = some '\r') = 0 := by
        rw [List.countP_eq_zero]
        intro line hline
        simpa using hreturn rfl line hline
      simp [LineEnding.ofText, LineEnding.text, Text.splitOn_terminated ls h, hcount]
  | crlf =>
      have hcount : (ls.map (· ++ ['\r'])).countP (fun line => line.getLast? = some '\r') =
          ls.length := by
        rw [List.countP_map, List.countP_eq_length]
        intro line _
        simp
      simp [LineEnding.ofText, Text.splitOn_crlf ls h, hcount, hne]

namespace Text

/-! ### Lines of any text -/

/-- A character before the first line is new to that line only. -/
theorem not_mem_of_mem_modifyHead {c d : Char} (hne : d ≠ c) {ls : List Text}
    (h : ∀ line ∈ ls, d ∉ line) : ∀ line ∈ ls.modifyHead (c :: ·), d ∉ line := by
  cases ls with
  | nil => exact h
  | cons first rest =>
      rw [List.modifyHead_cons]
      intro line hline
      rcases List.mem_cons.mp hline with rfl | hline
      · exact List.not_mem_cons_of_ne_of_not_mem hne (h first List.mem_cons_self)
      · exact h line (List.mem_cons_of_mem _ hline)

/-- The pieces of a text do not have what it was split at in them. -/
theorem not_mem_of_mem_splitOn (separator : Char) (t : Text) :
    ∀ piece ∈ t.splitOn separator, separator ∉ piece := by
  induction t with
  | nil => simp
  | cons c t ih =>
      rw [List.splitOn_cons_eq_if_modifyHead]
      split
      · simpa using ih
      · next hc =>
        have hne : separator ≠ c := fun e => hc (by simpa using e.symm)
        exact not_mem_of_mem_modifyHead hne ih

theorem mem_dropReturns {line : Text} {ls : List Text} (h : line ∈ dropReturns ls) :
    ∃ l ∈ ls, ∀ c ∈ line, c ∈ l := by
  induction ls with
  | nil => exact absurd h List.not_mem_nil
  | cons first rest ih =>
      by_cases hrest : rest = []
      · subst hrest
        exact ⟨line, h, fun _ hc => hc⟩
      · rw [dropReturns_cons first hrest] at h
        rcases List.mem_cons.mp h with rfl | h
        · exact ⟨first, List.mem_cons_self, fun c hc => mem_of_mem_dropReturn hc⟩
        · obtain ⟨l, hl, hsub⟩ := ih h
          exact ⟨l, List.mem_cons_of_mem _ hl, hsub⟩

/-- No line has a line feed in it. -/
theorem newline_not_mem_of_mem_lines {t line : Text} (h : line ∈ lines t) : '\n' ∉ line := by
  obtain ⟨l, hl, hsub⟩ := mem_dropReturns h
  exact fun hmem => not_mem_of_mem_splitOn '\n' t l hl (hsub '\n' hmem)

/-- The pieces of a text are its lines and carriage returns, if the last line has none. -/
theorem map_dropReturn_splitOn {t : Text} (h : t.getLast? ≠ some '\r') :
    (t.splitOn '\n').map dropReturn = lines t := by
  obtain ⟨init, last, hsplit⟩ : ∃ init last, t.splitOn '\n' = init ++ [last] :=
    ⟨_, _, (List.dropLast_concat_getLast (List.splitOn_ne_nil '\n' t)).symm⟩
  have ht : t = init.flatMap (· ++ ['\n']) ++ last := by
    rw [← join_append_singleton, ← hsplit]
    exact (List.intercalate_splitOn '\n').symm
  have hlast : last.getLast? ≠ some '\r' := by
    intro hr
    apply h
    simp [ht, List.getLast?_append, hr]
  rw [lines, hsplit, dropReturns_append init (List.cons_ne_nil _ _), List.map_append]
  simp [dropReturns, dropReturn_of_getLast?_ne hlast]

/-- A line feed between two texts ends the last line of the first. A carriage return there would be
taken for a part of the terminator. -/
theorem lines_append_newline {t : Text} (h : t.getLast? ≠ some '\r') (u : Text) :
    lines (t ++ '\n' :: u) = lines t ++ lines u := by
  rw [lines, List.splitOn_append_cons_self, dropReturns_append _ (List.splitOn_ne_nil '\n' u),
    map_dropReturn_splitOn h]
  rfl

theorem lines_newline_cons (t : Text) : lines ('\n' :: t) = [] :: lines t :=
  lines_append_newline (t := []) (by simp) t

theorem lines_crlf_cons (t : Text) : lines ('\r' :: '\n' :: t) = [] :: lines t := by
  have hsplit : ('\r' :: '\n' :: t).splitOn '\n' = ['\r'] :: t.splitOn '\n' := by
    rw [List.splitOn_cons_eq_if_modifyHead, List.splitOn_cons_eq_if_modifyHead]
    simp
  rw [lines, hsplit, dropReturns_cons ['\r'] (List.splitOn_ne_nil '\n' t)]
  rfl

/-- A character that is no part of a terminator stands at the beginning of the first line. -/
theorem lines_cons {c : Char} (hc : c ≠ '\n') (hr : c ≠ '\r') (t : Text) :
    lines (c :: t) = (lines t).modifyHead (c :: ·) := by
  obtain ⟨first, rest, hsplit⟩ := List.exists_cons_of_ne_nil (List.splitOn_ne_nil '\n' t)
  have hsplit' : (c :: t).splitOn '\n' = (c :: first) :: rest := by
    rw [List.splitOn_cons_eq_if_modifyHead, hsplit]
    simp [hc]
  rw [lines, lines, hsplit', hsplit]
  by_cases hrest : rest = []
  · subst hrest
    rfl
  · rw [dropReturns_cons _ hrest, dropReturns_cons _ hrest, List.modifyHead_cons]
    congr 1
    cases first with
    | nil => simp [dropReturn, hr]
    | cons d first =>
        rw [dropReturn, dropReturn, List.getLast?_cons_cons]
        split <;> rfl

/-! ### A mark before the first line -/

theorem dropMark_of_head?_ne {t : Text} (h : t.head? ≠ some byteOrderMark) : dropMark t = t := by
  cases t with
  | nil => rfl
  | cons c t =>
      have hc : c ≠ byteOrderMark := by simpa using h
      simp [dropMark, hc]

theorem dropMark_append_newline (t u : Text) :
    dropMark (t ++ '\n' :: u) = dropMark t ++ '\n' :: u := by
  cases t with
  | nil => rfl
  | cons c t =>
      rw [List.cons_append, dropMark, dropMark]
      split <;> rfl

theorem getLast?_dropMark_ne {t : Text} {c : Char} (h : t.getLast? ≠ some c) :
    (dropMark t).getLast? ≠ some c := by
  cases t with
  | nil => exact h
  | cons d t =>
      rw [dropMark]
      split
      · intro ht
        apply h
        simp [List.getLast?_cons, ht]
      · exact h

theorem length_dropReturns (ls : List Text) : (dropReturns ls).length = ls.length := by
  induction ls with
  | nil => rfl
  | cons line ls ih =>
      by_cases h : ls = []
      · subst h
        rfl
      · rw [dropReturns_cons line h, List.length_cons, List.length_cons, ih]

/-- There are as many lines as there are pieces between line feeds; a mark makes no difference. -/
theorem length_lines_dropMark (t : Text) :
    (lines (dropMark t)).length = (t.splitOn '\n').length := by
  rw [lines, length_dropReturns]
  cases t with
  | nil => rfl
  | cons c t =>
      rw [dropMark]
      split
      · next hc =>
        subst hc
        rw [List.splitOn_cons_eq_if_modifyHead, if_neg (by decide), List.length_modifyHead]
      · rfl

/-! ### Paired carriage returns -/

/-- Whether every carriage return of a text stands directly before a line feed. -/
def returnsPaired : Text → Bool
  | [] => true
  | c :: t => (c ≠ '\r' || t.head? = some '\n') && returnsPaired t

theorem returnsPaired_dropMark {t : Text} (h : returnsPaired t = true) :
    returnsPaired (dropMark t) = true := by
  cases t with
  | nil => rfl
  | cons c t =>
      rw [dropMark]
      split
      · rw [returnsPaired, Bool.and_eq_true] at h
        exact h.2
      · exact h

/-- The lines of a paired text have no carriage return in them. -/
theorem return_not_mem_of_mem_lines {t : Text} (h : returnsPaired t = true) :
    ∀ line ∈ lines t, '\r' ∉ line := by
  induction t with
  | nil =>
      intro line hline
      have : line = [] := by simpa [lines, dropReturns] using hline
      simp [this]
  | cons c t ih =>
      rw [returnsPaired, Bool.and_eq_true] at h
      obtain ⟨hc, ht⟩ := h
      by_cases hn : c = '\n'
      · subst hn
        rw [lines_newline_cons]
        intro line hline
        rcases List.mem_cons.mp hline with rfl | hline
        · exact List.not_mem_nil
        · exact ih ht line hline
      · by_cases hr : c = '\r'
        · subst hr
          -- the line feed behind it takes it away, so it is on no line
          obtain ⟨u, rfl⟩ : ∃ u, t = '\n' :: u := by
            cases t with
            | nil => simp at hc
            | cons d u => exact ⟨u, by simpa using hc⟩
          rw [lines_newline_cons] at ih
          rw [lines_crlf_cons]
          exact ih ht
        · rw [lines_cons hn hr]
          exact not_mem_of_mem_modifyHead (Ne.symm hr) (ih ht)

end Text

end GettextFill
