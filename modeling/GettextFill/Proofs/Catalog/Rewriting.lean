import GettextFill.Proofs.Catalog.Account
import GettextFill.Proofs.Catalog.Reread
import Mathlib.Data.Finset.Max
import Mathlib.Data.Finset.Dedup

/-!
# Writing a catalog again

A text is put into normal form by reading it and writing the catalog. Doing so again should change
nothing, and `Catalog.toText_ofText_toText_iff` says when that is so. A catalog with the long
terminator always stays as it is. One with the short terminator does if none of its lines ends in a
carriage return, since such a line takes a part of its terminator along.

There is one more case: if all lines end in a carriage return, they read back with the long
terminator and are written with it, which comes to the same text. No line may be a keyword and a
carriage return alone, because the line that is left is no keyword line and is lost.
-/

namespace GettextFill

/-! ### Terminators of written lines -/

/-- Lines with a carriage return at each end come to the same text as the lines without, written
with the long terminator. -/
theorem flatMap_crlf_map_dropReturn {ls : List Text} (h : ∀ l ∈ ls, l.getLast? = some '\r') :
    (ls.map Text.dropReturn).flatMap (· ++ LineEnding.crlf.text) =
      ls.flatMap (· ++ LineEnding.lf.text) := by
  rw [Text.flatMap_crlf, List.map_map]
  have hmap : ls.map ((· ++ ['\r']) ∘ Text.dropReturn) = ls := by
    refine (List.map_congr_left fun l hl => ?_).trans (List.map_id' ls)
    obtain ⟨init, rfl⟩ := List.getLast?_eq_some_iff.mp (h l hl)
    rw [Function.comp_apply, Text.dropReturn_append_return]
  rw [hmap]
  rfl

/-- The long terminator is recognised where every line takes a carriage return along. -/
theorem LineEnding.ofText_of_getLast?_eq {ls : List Text} (hne : ls ≠ [])
    (hn : ∀ l ∈ ls, '\n' ∉ l) (h : ∀ l ∈ ls, l.getLast? = some '\r') :
    LineEnding.ofText (ls.flatMap (· ++ LineEnding.lf.text)) = .crlf := by
  rw [← flatMap_crlf_map_dropReturn h]
  refine LineEnding.ofText_terminated .crlf _ (by simpa using hne) ?_ nofun
  intro l hl
  obtain ⟨m, hm, rfl⟩ := List.mem_map.mp hl
  exact fun hmem => hn m hm (Text.mem_of_mem_dropReturn hmem)

/-- Lines can be told from the text that they are written as. -/
theorem flatMap_terminated_inj {ls ms : List Text} (hl : ∀ l ∈ ls, '\n' ∉ l)
    (hm : ∀ m ∈ ms, '\n' ∉ m)
    (h : ls.flatMap (· ++ LineEnding.lf.text) = ms.flatMap (· ++ LineEnding.lf.text)) : ls = ms := by
  have hsplit := congrArg (List.splitOn '\n') h
  rw [LineEnding.text, Text.splitOn_terminated ls hl, Text.splitOn_terminated ms hm] at hsplit
  exact List.append_cancel_right hsplit

/-- If every line with a carriage return at its end is what is left of another line, there is no
such line: each would be shorter than the next. -/
theorem getLast?_ne_return_of_subset_dropReturn {ls : List Text}
    (h : ∀ l ∈ ls, l.getLast? = some '\r' → l ∈ ls.map Text.dropReturn) :
    ∀ l ∈ ls, l.getLast? ≠ some '\r' := by
  intro l hl hlast
  let returned := ls.toFinset.filter fun l => l.getLast? = some '\r'
  have hmem (m : Text) : m ∈ returned ↔ m ∈ ls ∧ m.getLast? = some '\r' := by
    simp [returned]
  obtain ⟨m, hm, hmax⟩ := returned.exists_max_image List.length ⟨l, (hmem l).mpr ⟨hl, hlast⟩⟩
  obtain ⟨hmls, hmlast⟩ := (hmem m).mp hm
  obtain ⟨longer, hlonger, hdrop⟩ := List.mem_map.mp (h m hmls hmlast)
  have hlast' : longer.getLast? = some '\r' := by
    rcases Text.dropReturn_eq_self_or longer with heq | heq
    · rwa [← heq, hdrop]
    · rw [heq]
      simp
  have hle := hmax longer ((hmem longer).mpr ⟨hlonger, hlast'⟩)
  obtain ⟨init, rfl⟩ := List.getLast?_eq_some_iff.mp hlast'
  rw [Text.dropReturn_append_return] at hdrop
  subst hdrop
  rw [List.length_append, List.length_singleton] at hle
  omega

/-! ### Lines that are lost -/

namespace Keyword

/-- A keyword line that loses its only blank is of no use in a catalog any more. -/
theorem ofLine_of_isBareReturn {line : Text} (h : IsBareReturn (line ++ ['\r'])) :
    LineKind.ofLine line = .unknown := by
  obtain ⟨k, hk, hline⟩ := isBareReturn_iff.mp h
  obtain ⟨rfl, -⟩ := List.append_inj' hline rfl
  have hhead : k.text.head? = some 'm' := k.head?_text
  have hread : read? k.text = some (k, []) := by
    simpa using read?_text_append (t := []) hk (by simp)
  have hkeyword : ofLine? k.text = none := by
    rw [ofLine?, split?, hread]
    rfl
  have hblank : k.text.all Text.isBlank = false := LineKind.not_blank_of_head? hhead (by decide)
  simp [LineKind.ofLine, hblank, hhead, hkeyword]

end Keyword

theorem IsField.ofLine_ne_unknown {slot : Slot} {ls : List Text} (h : IsField slot ls) :
    ∀ l ∈ ls, LineKind.ofLine l ≠ .unknown := by
  cases ls with
  | nil => exact h.elim
  | cons first rest =>
      intro l hl hunknown
      rcases List.mem_cons.mp hl with rfl | hl
      · have hopening := h.1
        rw [hunknown] at hopening
        cases slot <;> cases hopening
      · have hfollowing := h.2 l hl
        rw [hunknown] at hfollowing
        cases slot <;> simp [Slot.following] at hfollowing

theorem IsCommentBlock.ofLine_ne_unknown {ls : List Text} (h : IsCommentBlock ls) :
    ∀ l ∈ ls, LineKind.ofLine l ≠ .unknown := by
  intro l hl
  rcases h.eq_nil_or_comment l hl with rfl | hcomment
  · simp
  · rw [LineKind.ofLine_eq_comment_iff.mpr hcomment]
    decide

namespace Catalog

/-- A catalog in shape holds no line that it could not have read. -/
theorem Shaped.ofLine_ne_unknown {c : Catalog} (h : c.Shaped) :
    ∀ l ∈ c.stored, LineKind.ofLine l ≠ .unknown := by
  have hfield {slot : Slot} {ls : List Text} (hls : ls = [] ∨ IsField slot ls) {l : Text}
      (hl : l ∈ ls) : LineKind.ofLine l ≠ .unknown := by
    rcases hls with rfl | hls
    · exact absurd hl List.not_mem_nil
    · exact hls.ofLine_ne_unknown l hl
  intro l hl
  rcases List.mem_append.mp hl with hl | hl
  · obtain ⟨e, he, hl⟩ := List.mem_flatMap.mp hl
    have hentry := h.entries e he
    simp only [Entry.lines, List.mem_append] at hl
    rcases hl with ((hl | hl) | hl) | hl
    · exact hentry.comments.ofLine_ne_unknown l hl
    · exact hfield hentry.context hl
    · exact hentry.source.ofLine_ne_unknown l hl
    · exact hfield hentry.target hl
  · obtain ⟨comments, context, heq, hcomments, hcontext, -⟩ := h.trailing
    rw [heq] at hl
    rcases List.mem_append.mp hl with hl | hl
    · exact hcomments.ofLine_ne_unknown l hl
    · exact hfield hcontext hl

/-! ### Reading and writing once more -/

theorem flatten_blocks (c : Catalog) : c.blocks.flatten = c.stored := by
  by_cases h : c.trailing = [] <;> simp [blocks, stored, h, List.flatMap_def]

theorem mem_lines_or_eq_nil {c : Catalog} {l : Text} (h : l ∈ c.stored) : l ∈ c.lines ∨ l = [] := by
  rw [← flatten_blocks, List.mem_flatten] at h
  obtain ⟨block, hblock, hl⟩ := h
  have hmem : l ∈ c.lines ++ [[]] := by
    rw [lines_append_nil (List.ne_nil_of_mem hblock)]
    exact List.mem_flatMap.mpr ⟨block, hblock, List.mem_append_left _ hl⟩
  exact (List.mem_append.mp hmem).imp_right List.mem_singleton.mp

theorem newline_not_mem_of_mem_written {t l : Text} (h : l ∈ (ofText t).lines) : '\n' ∉ l := by
  rcases mem_stored_or_eq_nil h with h | rfl
  · exact newline_not_mem_of_mem_stored h
  · exact List.not_mem_nil

variable {t : Text}

/-- A catalog whose terminators cannot be mistaken is written as before. -/
theorem toText_ofText_toText_of_clean (hne : (ofText t).blocks ≠ [])
    (h : (ofText t).ending = .lf → ∀ l ∈ (ofText t).lines, l.getLast? ≠ some '\r') :
    (ofText (ofText t).toText).toText = (ofText t).toText := by
  rw [ofText_toText_of_clean (ofText_shaped t) hne fun l hl => newline_not_mem_of_mem_stored hl]
  · rfl
  · intro hlf l hl
    rcases mem_lines_or_eq_nil hl with hl | rfl
    · exact h hlf l hl
    · simp

/-- Carriage returns at the ends of all lines become a part of the terminators. -/
theorem toText_ofText_toText_of_returns (hne : (ofText t).blocks ≠ [])
    (hlf : (ofText t).ending = .lf)
    (h : ∀ l ∈ (ofText t).lines, l.getLast? = some '\r' ∧ ¬ Keyword.IsBareReturn l) :
    (ofText (ofText t).toText).toText = (ofText t).toText := by
  have hkind : ∀ l ∈ (ofText t).stored,
      LineKind.ofLine ((ofText t).ending.reread l) = LineKind.ofLine l := by
    intro l hl
    rcases mem_lines_or_eq_nil hl with hl | rfl
    · exact (LineEnding.sameReading_reread fun _ => (h l hl).2).kind
    · rw [LineEnding.reread_nil]
  have hlines : (ofText t).lines ≠ [] := by
    obtain ⟨line, rest, slot, hlines, -⟩ := (ofText_shaped t).opens hne
    rw [hlines]
    exact List.cons_ne_nil _ _
  have hending : LineEnding.ofText
      ((ofText t).lines.flatMap (· ++ (ofText t).ending.text)) = .crlf := by
    rw [hlf]
    exact LineEnding.ofText_of_getLast?_eq hlines (fun l hl => newline_not_mem_of_mem_written hl)
      fun l hl => (h l hl).1
  rw [ofText_toText_eq (ofText_shaped t) hne (fun l hl => newline_not_mem_of_mem_stored hl) hkind,
    hending]
  have hblocks : ((ofText t).mapLines (ofText t).ending.reread).blocks ≠ [] := by
    simpa [blocks_mapLines] using hne
  have hmap := List.append_cancel_right (lines_mapLines (ofText t).ending.reread_nil hne)
  rw [toText_eq hne, toText_eq (c := { (ofText t).mapLines (ofText t).ending.reread with
    ending := .crlf, ignored := [], moved := [] }) hblocks]
  refine congrArg₂ (· ++ ·) rfl ?_
  change ((ofText t).mapLines (ofText t).ending.reread).lines.flatMap _ = _
  rw [hmap, hlf]
  exact flatMap_crlf_map_dropReturn fun l hl => (h l hl).1

/-- A line that is written is what is left of a line of the text before, or empty. -/
theorem mem_map_dropReturn_of_mem_written (hne : (ofText t).blocks ≠ [])
    (hlf : (ofText t).ending = .lf) {l : Text} (h : l ∈ (ofText (ofText t).toText).lines)
    (hl : l ≠ []) : l ∈ (ofText t).lines.map Text.dropReturn := by
  have hmem := mem_lines_of_mem_stored ((mem_stored_or_eq_nil h).resolve_right hl)
  rw [(dropMark_toText (ofText_shaped t) hne).1, Text.lines_terminated _ _
    fun l hl => newline_not_mem_of_mem_written hl, hlf] at hmem
  simpa [hl, LineEnding.reread] using hmem

/-- A text of a catalog with the short terminator stays as it is only if no line of it ends in a
carriage return or all of them do. -/
theorem getLast?_of_toText_eq (hne : (ofText t).blocks ≠ []) (hlf : (ofText t).ending = .lf)
    (h : (ofText (ofText t).toText).toText = (ofText t).toText) :
    (∀ l ∈ (ofText t).lines, l.getLast? ≠ some '\r') ∨
      ∀ l ∈ (ofText t).lines, l.getLast? = some '\r' ∧ ¬ Keyword.IsBareReturn l := by
  set c := ofText t with hc
  set c' := ofText c.toText with hc'
  have hshaped' : c'.Shaped := ofText_shaped _
  have hbody := (dropMark_toText (ofText_shaped t) hne).1
  have hne' : c'.blocks ≠ [] := by
    intro hnil
    obtain ⟨line, rest, slot, hlines, -⟩ := (ofText_shaped t).opens hne
    have hempty : c.toText = [] := by
      rw [← h, toText, hnil]
      rfl
    rw [← hc, hempty, hlines, hlf] at hbody
    simp [Text.dropMark, LineEnding.text] at hbody
  have hbody' := (dropMark_toText hshaped' hne').1
  rw [h, hbody, hlf] at hbody'
  have hn : ∀ l ∈ c.lines, '\n' ∉ l := fun l hl => newline_not_mem_of_mem_written hl
  have hn' : ∀ l ∈ c'.lines, '\n' ∉ l := fun l hl => newline_not_mem_of_mem_written hl
  cases hending : c'.ending with
  | lf =>
      left
      rw [hending] at hbody'
      have hsame : c.lines = c'.lines := flatMap_terminated_inj hn hn' hbody'
      refine getLast?_ne_return_of_subset_dropReturn fun l hl hlast => ?_
      have hl' : l ≠ [] := by
        rintro rfl
        cases hlast
      exact mem_map_dropReturn_of_mem_written hne hlf (hsame ▸ hl) hl'
  | crlf =>
      right
      rw [hending, Text.flatMap_crlf] at hbody'
      have hsame : c.lines = c'.lines.map (· ++ ['\r']) := by
        refine flatMap_terminated_inj hn ?_ hbody'
        intro l hl
        obtain ⟨m, hm, rfl⟩ := List.mem_map.mp hl
        simpa using hn' m hm
      intro l hl
      rw [hsame] at hl
      obtain ⟨m, hm, rfl⟩ := List.mem_map.mp hl
      refine ⟨by simp, fun hbare => ?_⟩
      have hunknown := Keyword.ofLine_of_isBareReturn hbare
      rcases mem_stored_or_eq_nil hm with hm | rfl
      · exact hshaped'.ofLine_ne_unknown m hm hunknown
      · cases hunknown

/-- A text in normal form stays as it is when it is read and written again, unless a carriage return
at the end of a line is taken for a part of its terminator. -/
theorem toText_ofText_toText_iff (t : Text) :
    (ofText (ofText t).toText).toText = (ofText t).toText ↔
      (ofText t).ending = .crlf ∨ (∀ l ∈ (ofText t).lines, l.getLast? ≠ some '\r') ∨
        ∀ l ∈ (ofText t).lines, l.getLast? = some '\r' ∧ ¬ Keyword.IsBareReturn l := by
  by_cases hne : (ofText t).blocks = []
  · -- nothing is written, and nothing is read again
    have hlines : (ofText t).lines = [] := by
      rw [lines, hne]
      rfl
    have htext : (ofText t).toText = [] := by
      rw [toText, hne]
      rfl
    rw [hlines, htext]
    exact iff_of_true rfl (Or.inr (Or.inl fun _ hl => absurd hl List.not_mem_nil))
  constructor
  · intro h
    cases hending : (ofText t).ending with
    | crlf => exact Or.inl rfl
    | lf => exact Or.inr (getLast?_of_toText_eq hne hending h)
  · rintro (hcrlf | hclean | hreturns)
    · refine toText_ofText_toText_of_clean hne fun hlf => ?_
      exact absurd (hcrlf.symm.trans hlf) (by decide)
    · exact toText_ofText_toText_of_clean hne fun _ => hclean
    · by_cases hlf : (ofText t).ending = .lf
      · exact toText_ofText_toText_of_returns hne hlf hreturns
      · exact toText_ofText_toText_of_clean hne fun h => absurd h hlf

/-- Two texts whose normal form has another normal form: a carriage return is lost in the first, and
in the second a line as well. -/
theorem toText_ofText_toText_unstable :
    let t : Text := "msgid \"a\"\r\r\nmsgstr \"\"\n"
    let bare : Text := "msgid\r\r\nmsgid \"a\"\nmsgstr \"\"\n"
    (ofText t).toText = ("msgid \"a\"\r\nmsgstr \"\"\n" : Text) ∧
      (ofText (ofText t).toText).toText ≠ (ofText t).toText ∧
      (ofText bare).toText = ("msgid\r\nmsgid \"a\"\nmsgstr \"\"\n" : Text) ∧
      (ofText (ofText bare).toText).toText ≠ (ofText bare).toText := by
  decide

end Catalog

end GettextFill
