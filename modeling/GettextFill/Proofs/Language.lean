import GettextFill.Input
import Mathlib.Data.List.TakeWhile

/-!
# What stands in language codes

A language code is made of a few characters (`Language.mayStand`), none of which is a blank, a slash
or a point. A language that is accepted is a code with blanks around it at most. So it has no slash
and no point in it either, and it is a code itself exactly if there are no blanks to be dropped
(`Language.isCode_iff_trim_eq_self`).
-/

namespace GettextFill

namespace Text

/-! ### Trimming -/

/-- Nothing but blanks is dropped. -/
theorem isBlank_or_mem_trim {t : Text} {c : Char} (h : c ∈ t) :
    isBlank c = true ∨ c ∈ trim t := by
  have hdrop (s : Text) (hs : c ∈ s) : isBlank c = true ∨ c ∈ s.dropWhile isBlank := by
    rw [← List.takeWhile_append_dropWhile (p := isBlank) (l := s)] at hs
    exact (List.mem_append.mp hs).imp_left List.mem_takeWhile_imp
  rcases hdrop t h with hblank | hmem
  · exact Or.inl hblank
  · rw [trim, trimEnd, List.mem_reverse]
    exact hdrop _ (List.mem_reverse.mpr hmem)

theorem trim_eq_self {t : Text} (h : ∀ c ∈ t, isBlank c = false) : trim t = t := by
  have hdrop (s : Text) (hs : ∀ c ∈ s, isBlank c = false) : s.dropWhile isBlank = s := by
    cases s with
    | nil => rfl
    | cons c s => simp [hs c List.mem_cons_self]
  rw [trim, hdrop t h, trimEnd, hdrop t.reverse fun c hc => h c (List.mem_reverse.mp hc),
    List.reverse_reverse]

/-- A character is one that is split at, or it stands in one of the pieces. -/
theorem mem_splitOnP {p : Char → Bool} {t : Text} {c : Char} (h : c ∈ t) :
    p c = true ∨ ∃ piece ∈ t.splitOnP p, c ∈ piece := by
  induction t with
  | nil => exact absurd h List.not_mem_nil
  | cons d t ih =>
      obtain ⟨first, rest, hsplit⟩ := List.exists_cons_of_ne_nil (List.splitOnP_ne_nil p t)
      rw [List.splitOnP_cons_eq_if_modifyHead, hsplit, List.modifyHead_cons]
      rw [hsplit] at ih
      rcases List.mem_cons.mp h with rfl | h
      · by_cases hc : p c = true
        · exact Or.inl hc
        · right
          simp [hc]
      · refine (ih h).imp_right fun ⟨piece, hpiece, hmem⟩ => ?_
        split
        · exact ⟨piece, List.mem_cons_of_mem _ hpiece, hmem⟩
        · rcases List.mem_cons.mp hpiece with rfl | hpiece
          · exact ⟨d :: piece, List.mem_cons_self, List.mem_cons_of_mem d hmem⟩
          · exact ⟨piece, List.mem_cons_of_mem _ hpiece, hmem⟩

theorem isAlphanumeric_of_isLower {c : Char} (h : isLower c = true) : isAlphanumeric c = true := by
  rw [isAlphanumeric, h]
  rfl

end Text

namespace Language

/-- The characters that may stand in a code. -/
def mayStand (c : Char) : Bool := Text.isAlphanumeric c || isSeparator c || c = '@'

theorem mayStand_of_isAlphanumeric {c : Char} (h : Text.isAlphanumeric c = true) :
    mayStand c = true := by
  rw [mayStand, h]
  rfl

theorem toNat_lt_of_mayStand {c : Char} (h : mayStand c = true) : c.toNat < 128 := by
  simp only [mayStand, Text.isAlphanumeric, Text.isLower, Text.isUpper, Text.isDigit, isSeparator,
    Bool.or_eq_true, Bool.and_eq_true, decide_eq_true_eq, Char.le_def,
    UInt32.le_iff_toNat_le] at h
  rcases h with (((h | h) | h) | h | h) | h
  · exact Nat.lt_of_le_of_lt h.2 (by decide)
  · exact Nat.lt_of_le_of_lt h.2 (by decide)
  · exact Nat.lt_of_le_of_lt h.2 (by decide)
  · rw [h]
    decide
  · rw [h]
    decide
  · rw [h]
    decide

theorem isBlank_of_mayStand {c : Char} (h : mayStand c = true) : Text.isBlank c = false := by
  have hall : ∀ n < 128, mayStand (Char.ofNat n) = true → Text.isBlank (Char.ofNat n) = false := by
    decide
  simpa using hall c.toNat (toNat_lt_of_mayStand h) (by simpa using h)

/-! ### Codes -/

theorem mayStand_of_areSubtags {ts : List Text} (h : areSubtags ts = true) :
    ∀ t ∈ ts, ∀ c ∈ t, mayStand c = true := by
  cases ts with
  | nil => exact fun t ht => absurd ht List.not_mem_nil
  | cons primary rest =>
      rw [areSubtags, Bool.and_eq_true, List.all_eq_true] at h
      intro t ht c hc
      apply mayStand_of_isAlphanumeric
      rcases List.mem_cons.mp ht with rfl | ht
      · have hprimary := h.1
        rw [isPrimary, Bool.and_eq_true, Bool.and_eq_true, List.all_eq_true] at hprimary
        exact Text.isAlphanumeric_of_isLower (hprimary.1.1 c hc)
      · have hsubtag := h.2 t ht
        rw [isSubtag, Bool.and_eq_true, Bool.and_eq_true, List.all_eq_true] at hsubtag
        exact hsubtag.1.1 c hc

theorem mayStand_of_mem_code {t : Text} (h : isCode t = true) : ∀ c ∈ t, mayStand c = true := by
  rw [isCode, Bool.and_eq_true] at h
  obtain ⟨hsubtags, hmodifier⟩ := h
  intro c hc
  rw [← List.takeWhile_append_dropWhile (p := fun c => c ≠ '@') (l := t)] at hc
  rcases List.mem_append.mp hc with hc | hc
  · rcases Text.mem_splitOnP (p := isSeparator) hc with hseparator | ⟨piece, hpiece, hmem⟩
    · rw [mayStand, hseparator, Bool.or_true]
      rfl
    · exact mayStand_of_areSubtags hsubtags piece hpiece c hmem
  · cases hrest : t.dropWhile fun c => c ≠ '@' with
    | nil =>
        rw [hrest] at hc
        exact absurd hc List.not_mem_nil
    | cons d rest =>
        have hd : d = '@' := by
          have hhead := List.head?_dropWhile_not (fun c : Char => decide (c ≠ '@')) t
          rw [hrest] at hhead
          simpa using hhead
        rw [hrest] at hc hmodifier
        rw [isModifier, Bool.and_eq_true, List.all_eq_true] at hmodifier
        rcases List.mem_cons.mp hc with rfl | hc
        · rw [mayStand, hd]
          rfl
        · exact mayStand_of_isAlphanumeric
            (Text.isAlphanumeric_of_isLower (hmodifier.2 c hc))

/-- What is neither a blank nor stands in codes does not stand around them either. -/
theorem not_mem_of_isCode_trim {t : Text} (h : isCode (Text.trim t) = true) {c : Char}
    (hblank : Text.isBlank c = false) (hc : mayStand c = false) : c ∉ t := by
  intro hmem
  rcases Text.isBlank_or_mem_trim hmem with htrue | hmem
  · rw [hblank] at htrue
    cases htrue
  · rw [mayStand_of_mem_code h c hmem] at hc
    cases hc

/-- A text whose trimmed form is a code is one itself if there is nothing to be trimmed. -/
theorem isCode_iff_trim_eq_self {t : Text} (h : isCode (Text.trim t) = true) :
    isCode t = true ↔ Text.trim t = t := by
  constructor
  · intro hcode
    exact Text.trim_eq_self fun c hc => isBlank_of_mayStand (mayStand_of_mem_code hcode c hc)
  · intro htrim
    rwa [htrim] at h

end Language

end GettextFill
