import GettextFill.Catalog.Line

/-!
# Lines that begin with a keyword

A keyword is written in front of its field, and a blank comes behind it. `Keyword.Begins` says this
of a line without reading it: the line is the text of the keyword, a blank and anything else. The
number of a plural form is made of digits and has at least one (`Keyword.IsProper`).

`Keyword.ofLine?_eq_some_iff` says that reading finds the keyword that a line begins with, so no line
begins with two. `LineKind.ofLine_eq_iff` says the same of the kinds of lines that open a field: none
of them can be taken for a blank line, a comment or a continuation.
-/

namespace GettextFill

namespace Keyword

/-- Whether the number of a plural form, if the keyword has one, is a run of digits. -/
def IsProper : Keyword → Prop
  | targetForm digits => digits ≠ [] ∧ digits.all Text.isDigit = true
  | _ => True

instance : DecidablePred IsProper
  | targetForm digits =>
    inferInstanceAs (Decidable (digits ≠ [] ∧ digits.all Text.isDigit = true))
  | context => isTrue trivial
  | source => isTrue trivial
  | sourcePlural => isTrue trivial
  | target => isTrue trivial

/-- A line on which a blank comes behind the keyword. -/
def Begins (k : Keyword) (line : Text) : Prop :=
  k.IsProper ∧ ∃ c rest, line = k.text ++ c :: rest ∧ Text.isBlank c = true

/-! ### Plural forms -/

theorem text_targetForm (digits : Text) :
    (targetForm digits).text = ("msgstr" : Text) ++ '[' :: (digits ++ [']']) := rfl

theorem form?_eq_some_iff {t digits rest : Text} :
    form? t = some (digits, rest) ↔
      (targetForm digits).IsProper ∧ t = '[' :: digits ++ ']' :: rest := by
  constructor
  · intro h
    unfold form? at h
    split at h
    · next u =>
      have hspan := List.takeWhile_append_dropWhile (p := Text.isDigit) (l := u)
      have hall : (u.takeWhile Text.isDigit).all Text.isDigit = true := List.all_takeWhile
      split at h
      · next d ds rest' htake hdrop =>
        cases h
        rw [htake] at hspan hall
        rw [hdrop] at hspan
        exact ⟨⟨List.cons_ne_nil _ _, hall⟩, by rw [← hspan]; rfl⟩
      · cases h
    · cases h
  · rintro ⟨⟨hne, hall⟩, rfl⟩
    obtain ⟨d, ds, rfl⟩ := List.exists_cons_of_ne_nil hne
    have hdigits : ∀ c ∈ d :: ds, Text.isDigit c = true := List.all_eq_true.mp hall
    have hbracket : Text.isDigit ']' = false := by decide
    have htake : ((d :: ds) ++ ']' :: rest).takeWhile Text.isDigit = d :: ds := by
      rw [List.takeWhile_append_of_pos hdigits, List.takeWhile_cons_of_neg (by simp [hbracket]),
        List.append_nil]
    have hdrop : ((d :: ds) ++ ']' :: rest).dropWhile Text.isDigit = ']' :: rest := by
      rw [List.dropWhile_append_of_pos hdigits, List.dropWhile_cons_of_neg (by simp [hbracket])]
    rw [List.cons_append, form?, htake, hdrop]
    rfl

/-- What follows `msgstr` is a plural form only if a bracket comes first. -/
theorem form?_of_head?_ne {t : Text} (h : t.head? ≠ some '[') : form? t = none := by
  cases hform : form? t with
  | none => rfl
  | some p =>
      rw [(form?_eq_some_iff.mp hform).2] at h
      exact absurd rfl h

/-! ### Reading a keyword -/

/-- What is read is a proper keyword and what follows it. -/
theorem of_read?_eq_some {t rest : Text} {k : Keyword} (h : read? t = some (k, rest)) :
    k.IsProper ∧ t = k.text ++ rest := by
  rw [read?] at h
  split at h
  · next r hr =>
    cases h
    exact ⟨trivial, Text.after?_eq_some_iff.mp hr⟩
  · split at h
    · next r hr =>
      cases h
      exact ⟨trivial, Text.after?_eq_some_iff.mp hr⟩
    · split at h
      · next r hr =>
        cases h
        exact ⟨trivial, Text.after?_eq_some_iff.mp hr⟩
      · split at h
        · next r hr =>
          have ht := Text.after?_eq_some_iff.mp hr
          cases hform : form? r with
          | none =>
              rw [hform] at h
              cases h
              exact ⟨trivial, ht⟩
          | some p =>
              rw [hform] at h
              cases h
              obtain ⟨hproper, hr'⟩ := form?_eq_some_iff.mp hform
              refine ⟨hproper, ?_⟩
              simp [ht, hr', text_targetForm]
        · cases h

/-- The keyword of a target is plural if a number in brackets follows. -/
theorem read?_target (t : Text) :
    read? (("msgstr" : Text) ++ t) =
      some (((form? t).map fun p => (targetForm p.1, p.2)).getD (target, t)) := by
  have hcontext : Text.after? "msgctxt" (("msgstr" : Text) ++ t) = none := rfl
  have hplural : Text.after? "msgid_plural" (("msgstr" : Text) ++ t) = none := rfl
  have hsource : Text.after? "msgid" (("msgstr" : Text) ++ t) = none := rfl
  rw [read?, hcontext, hplural, hsource, Text.after?_append]
  dsimp only
  cases form? t <;> rfl

/-- A keyword is read as it was written if nothing or a blank follows it. -/
theorem read?_text_append {k : Keyword} (hk : k.IsProper) {t : Text}
    (ht : ∀ c ∈ t.head?, Text.isBlank c = true) : read? (k.text ++ t) = some (k, t) := by
  cases k with
  | context => rfl
  | sourcePlural => rfl
  | source =>
      have hcontext : Text.after? "msgctxt" (text source ++ t) = none := rfl
      have hsource : Text.after? "msgid" (text source ++ t) = some t := Text.after?_append _ _
      have hplural : Text.after? "msgid_plural" (text source ++ t) = none := by
        -- the longer keyword would go on with a low line
        cases t with
        | nil => rfl
        | cons c t =>
            have hline : '_' ≠ c := by
              rintro rfl
              exact absurd (ht '_' rfl) (by decide)
            exact if_neg hline
      rw [read?, hcontext, hplural, hsource]
  | target =>
      have hbracket : t.head? ≠ some '[' := fun h => absurd (ht '[' h) (by decide)
      have htarget := read?_target t
      rw [form?_of_head?_ne hbracket] at htarget
      exact htarget
  | targetForm digits =>
      have htext : text (targetForm digits) ++ t =
          ("msgstr" : Text) ++ ('[' :: digits ++ ']' :: t) := by
        simp [text_targetForm]
      rw [htext, read?_target, form?_eq_some_iff.mpr ⟨hk, rfl⟩]
      rfl

theorem split?_eq_some_iff {line rest : Text} {k : Keyword} :
    split? line = some (k, rest) ↔
      k.IsProper ∧ line = k.text ++ rest ∧ ∃ c t, rest = c :: t ∧ Text.isBlank c = true := by
  constructor
  · intro h
    unfold split? at h
    split at h
    · next k' c t hread =>
      split at h
      · next hc =>
        cases h
        obtain ⟨hproper, hline⟩ := of_read?_eq_some hread
        exact ⟨hproper, hline, c, t, rfl, hc⟩
      · cases h
    · cases h
  · rintro ⟨hk, rfl, c, t, rfl, hc⟩
    have ht : ∀ d ∈ (c :: t).head?, Text.isBlank d = true := by simpa using hc
    rw [split?, read?_text_append hk ht]
    exact if_pos hc

/-- Reading a line finds the keyword that it begins with, and none if it begins with none. -/
theorem ofLine?_eq_some_iff {line : Text} {k : Keyword} :
    ofLine? line = some k ↔ k.Begins line := by
  constructor
  · intro h
    obtain ⟨⟨k', rest⟩, hsplit, rfl⟩ := Option.map_eq_some_iff.mp h
    obtain ⟨hk, hline, c, t, rfl, hc⟩ := split?_eq_some_iff.mp hsplit
    exact ⟨hk, c, t, hline, hc⟩
  · rintro ⟨hk, c, t, hline, hc⟩
    rw [ofLine?, split?_eq_some_iff.mpr ⟨hk, hline, c, t, rfl, hc⟩]
    rfl

theorem head?_text (k : Keyword) : k.text.head? = some 'm' := by
  cases k <;> rfl

/-- Every keyword begins with the same letter, so that no keyword line is blank, a comment or a
continuation. -/
theorem Begins.head? {k : Keyword} {line : Text} (h : k.Begins line) : line.head? = some 'm' := by
  obtain ⟨-, c, rest, rfl, -⟩ := h
  rw [List.head?_append, head?_text]
  rfl

end Keyword

/-! ### Kinds of lines -/

namespace LineKind

/-- The kinds of lines that begin with a keyword. -/
def isKeyword : LineKind → Bool
  | context | source | sourcePlural | target => true
  | blank | comment | continuation | unknown => false

@[simp] theorem isKeyword_lineKind (k : Keyword) : k.lineKind.isKeyword = true := by
  cases k <;> rfl

/-- A line that begins with a character other than a blank is not blank. -/
theorem not_blank_of_head? {line : Text} {c : Char} (h : line.head? = some c)
    (hc : Text.isBlank c = false) : line.all Text.isBlank = false := by
  obtain ⟨rest, rfl⟩ := List.head?_eq_some_iff.mp h
  rw [List.all_cons, hc, Bool.false_and]

theorem ofLine_of_begins {k : Keyword} {line : Text} (h : k.Begins line) :
    ofLine line = k.lineKind := by
  have hblank : line.all Text.isBlank = false := not_blank_of_head? h.head? (by decide)
  simp [ofLine, hblank, h.head?, Keyword.ofLine?_eq_some_iff.mpr h]

/-- The kind of a line and what it is told by. -/
theorem ofLine_cases (line : Text) :
    ofLine line = .blank ∨ ofLine line = .unknown ∨
      (line.head? = some '#' ∧ ofLine line = .comment) ∨
      (line.head? = some '"' ∧ ofLine line = .continuation) ∨
      ∃ k : Keyword, k.Begins line ∧ ofLine line = k.lineKind := by
  by_cases hblank : line.all Text.isBlank = true
  · exact .inl (ofLine_eq_blank_iff.mpr hblank)
  by_cases hcomment : line.head? = some '#'
  · exact .inr (.inr (.inl ⟨hcomment, by simp [ofLine, hblank, hcomment]⟩))
  by_cases hquote : line.head? = some '"'
  · exact .inr (.inr (.inr (.inl ⟨hquote, by simp [ofLine, hblank, hquote]⟩)))
  cases hkeyword : Keyword.ofLine? line with
  | none => exact .inr (.inl (by simp [ofLine, hblank, hcomment, hquote, hkeyword]))
  | some k =>
      have hbegins : k.Begins line := Keyword.ofLine?_eq_some_iff.mp hkeyword
      exact .inr (.inr (.inr (.inr ⟨k, hbegins, ofLine_of_begins hbegins⟩)))

/-- A line is of a kind that begins with a keyword exactly if it begins with a keyword of that
kind. -/
theorem ofLine_eq_iff {line : Text} {kind : LineKind} (hkind : kind.isKeyword = true) :
    ofLine line = kind ↔ ∃ k : Keyword, k.lineKind = kind ∧ k.Begins line := by
  constructor
  · rintro rfl
    rcases ofLine_cases line with h | h | ⟨-, h⟩ | ⟨-, h⟩ | ⟨k, hbegins, h⟩
    · simp [h, isKeyword] at hkind
    · simp [h, isKeyword] at hkind
    · simp [h, isKeyword] at hkind
    · simp [h, isKeyword] at hkind
    · exact ⟨k, h.symm, hbegins⟩
  · rintro ⟨k, rfl, h⟩
    exact ofLine_of_begins h

theorem ofLine_eq_comment_iff {line : Text} : ofLine line = .comment ↔ line.head? = some '#' := by
  constructor
  · intro h
    rcases ofLine_cases line with hk | hk | ⟨hhead, -⟩ | ⟨-, hk⟩ | ⟨k, -, hk⟩
    · simp [hk] at h
    · simp [hk] at h
    · exact hhead
    · simp [hk] at h
    · cases k <;> simp [hk, Keyword.lineKind] at h
  · intro h
    simp [ofLine, not_blank_of_head? h (by decide), h]

theorem ofLine_eq_continuation_iff {line : Text} :
    ofLine line = .continuation ↔ line.head? = some '"' := by
  constructor
  · intro h
    rcases ofLine_cases line with hk | hk | ⟨-, hk⟩ | ⟨hhead, -⟩ | ⟨k, -, hk⟩
    · simp [hk] at h
    · simp [hk] at h
    · simp [hk] at h
    · exact hhead
    · cases k <;> simp [hk, Keyword.lineKind] at h
  · intro h
    simp [ofLine, not_blank_of_head? h (by decide), h]

end LineKind

end GettextFill
