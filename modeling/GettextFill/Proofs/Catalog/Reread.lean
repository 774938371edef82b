import GettextFill.Proofs.Catalog.RoundTrip

/-!
# Lines that lose a carriage return

A line that ends in a carriage return loses it when it is written with a line feed after it and read
again. For almost every line this makes no difference (`SameReading`): the carriage return is a
blank, and blanks at the end of a line mean nothing.

The exception is a keyword with nothing but the carriage return behind it. A keyword needs a blank
after it, so the line without the carriage return is no keyword line any more
(`Keyword.IsBareReturn`).
-/

namespace GettextFill

/-- A keyword line on which nothing but a carriage return stands after the keyword. -/
def Keyword.IsBareReturn (line : Text) : Prop :=
  (Keyword.read? line).map Prod.snd = some ['\r']

instance : DecidablePred Keyword.IsBareReturn := fun line =>
  inferInstanceAs (Decidable ((Keyword.read? line).map Prod.snd = some ['\r']))

/-- Two lines that nothing that reads lines can tell apart but by their characters. -/
structure SameReading (l m : Text) : Prop where
  kind : LineKind.ofLine l = LineKind.ofLine m
  keyword : Keyword.ofLine? l = Keyword.ofLine? m
  field : keywordLine? l = keywordLine? m
  continuation : continuationLine? l = continuationLine? m

theorem SameReading.refl (l : Text) : SameReading l l := ⟨rfl, rfl, rfl, rfl⟩

/-! ### A carriage return at the end -/

theorem quoted?_append_return (t : Text) : quoted? (t ++ ['\r']) = quoted? t := by
  have hreturn : Text.isBlank '\r' = true := by decide
  rw [quoted?, quoted?, List.reverse_append, List.reverse_singleton, List.singleton_append,
    List.dropWhile_cons_of_pos hreturn]

theorem continuationLine?_append_return (t : Text) :
    continuationLine? (t ++ ['\r']) = continuationLine? t := by
  cases t with
  | nil => rfl
  | cons c t =>
      by_cases hc : c = '"'
      · subst hc
        exact quoted?_append_return t
      · rw [List.cons_append, continuationLine?, continuationLine?]
        · exact fun _ h => hc (List.cons.inj h).1
        · exact fun _ h => hc (List.cons.inj h).1

namespace Keyword

theorem isBareReturn_iff {line : Text} :
    IsBareReturn line ↔ ∃ k : Keyword, k.IsProper ∧ line = k.text ++ ['\r'] := by
  constructor
  · intro h
    obtain ⟨⟨k, rest⟩, hread, hrest⟩ := Option.map_eq_some_iff.mp h
    dsimp only at hrest
    subst hrest
    exact ⟨k, of_read?_eq_some hread⟩
  · rintro ⟨k, hk, rfl⟩
    have hreturn : ∀ c ∈ (['\r'] : Text).head?, Text.isBlank c = true := by
      rintro c ⟨⟩
      decide
    rw [IsBareReturn, read?_text_append hk hreturn]
    rfl

/-- A carriage return at the end stays behind what follows the keyword, unless it is all that
does. -/
theorem split?_append_return {t : Text} (h : ¬ IsBareReturn (t ++ ['\r'])) :
    split? (t ++ ['\r']) = (split? t).map fun p => (p.1, p.2 ++ ['\r']) := by
  cases hsplit : split? t with
  | some p =>
      obtain ⟨k, rest⟩ := p
      obtain ⟨hk, rfl, c, u, rfl, hc⟩ := split?_eq_some_iff.mp hsplit
      exact split?_eq_some_iff.mpr ⟨hk, List.append_assoc _ _ _, c, u ++ ['\r'], rfl, hc⟩
  | none =>
      cases hsplit' : split? (t ++ ['\r']) with
      | none => rfl
      | some p =>
          obtain ⟨k, rest⟩ := p
          obtain ⟨hk, ht, c, u, rfl, hc⟩ := split?_eq_some_iff.mp hsplit'
          rcases List.eq_nil_or_concat u with rfl | ⟨u, d, rfl⟩
          · -- the blank behind the keyword is the carriage return
            obtain ⟨rfl, hd⟩ := List.append_inj' ht rfl
            exact absurd (isBareReturn_iff.mpr ⟨k, hk, rfl⟩) h
          · rw [List.concat_eq_append, ← List.cons_append, ← List.append_assoc] at ht
            obtain ⟨rfl, -⟩ := List.append_inj' ht rfl
            rw [split?_eq_some_iff.mpr ⟨hk, rfl, c, u, rfl, hc⟩] at hsplit
            cases hsplit

theorem ofLine?_append_return {t : Text} (h : ¬ IsBareReturn (t ++ ['\r'])) :
    ofLine? (t ++ ['\r']) = ofLine? t := by
  rw [ofLine?, ofLine?, split?_append_return h, Option.map_map]
  rfl

end Keyword

theorem keywordLine?_append_return {t : Text} (h : ¬ Keyword.IsBareReturn (t ++ ['\r'])) :
    keywordLine? (t ++ ['\r']) = keywordLine? t := by
  rw [keywordLine?, keywordLine?, Keyword.split?_append_return h]
  cases Keyword.split? t with
  | none => rfl
  | some p =>
      obtain ⟨keyword, rest⟩ := p
      simp only [Option.map_some, List.dropWhile_append]
      cases hrest : rest.dropWhile Text.isBlank with
      | nil => rfl
      | cons c rest =>
          by_cases hc : c = '"'
          · subst hc
            exact quoted?_append_return rest
          · simp [hc]

theorem LineKind.ofLine_append_return {t : Text} (h : ¬ Keyword.IsBareReturn (t ++ ['\r'])) :
    LineKind.ofLine (t ++ ['\r']) = LineKind.ofLine t := by
  cases t with
  | nil => decide
  | cons c t =>
      have hblank : ((c :: t) ++ ['\r']).all Text.isBlank = (c :: t).all Text.isBlank := by
        rw [List.all_append]
        exact Bool.and_true _
      rw [LineKind.ofLine, LineKind.ofLine, hblank, Keyword.ofLine?_append_return h]
      rfl

/-! ### Lines that are read again -/

/-- A line that is read again reads the same, unless it loses the only blank after a keyword. -/
theorem LineEnding.sameReading_reread {ending : LineEnding} {l : Text}
    (h : ending = .lf → ¬ Keyword.IsBareReturn l) : SameReading (ending.reread l) l := by
  cases ending with
  | crlf => exact .refl l
  | lf =>
      rcases Text.dropReturn_eq_self_or l with hl | hl
      · rw [reread, hl]
        exact .refl l
      · have hbare := h rfl
        rw [hl] at hbare
        rw [reread]
        generalize Text.dropReturn l = m at hl hbare ⊢
        subst hl
        exact ⟨(LineKind.ofLine_append_return hbare).symm,
          (Keyword.ofLine?_append_return hbare).symm, (keywordLine?_append_return hbare).symm,
          (continuationLine?_append_return m).symm⟩

namespace Field

variable {f : Text → Text}

theorem decodeContinuation_map {ls : List Text} (h : ∀ l ∈ ls, SameReading (f l) l) :
    decodeContinuation (ls.map f) = decodeContinuation ls := by
  induction ls with
  | nil => rfl
  | cons line ls ih =>
      have hline : SameReading (f line) line := h line List.mem_cons_self
      have hrest : ∀ l ∈ ls, SameReading (f l) l := fun l hl => h l (List.mem_cons_of_mem _ hl)
      rw [List.map_cons, decodeContinuation, decodeContinuation, hline.keyword,
        hline.continuation, ih hrest]

theorem decode_map {ls : List Text} (h : ∀ l ∈ ls, SameReading (f l) l) :
    decode (ls.map f) = decode ls := by
  cases ls with
  | nil => rfl
  | cons line ls =>
      have hline : SameReading (f line) line := h line List.mem_cons_self
      have hrest : ∀ l ∈ ls, SameReading (f l) l := fun l hl => h l (List.mem_cons_of_mem _ hl)
      rw [List.map_cons, decode, decode, hline.field, decodeContinuation_map hrest]

end Field

namespace Entry

variable {f : Text → Text} {e : Entry}

theorem sourceText_mapLines (h : ∀ l ∈ e.lines, SameReading (f l) l) :
    (e.mapLines f).sourceText = e.sourceText :=
  Field.decode_map fun l hl => h l (by simp [lines, hl])

theorem targetText_mapLines (h : ∀ l ∈ e.lines, SameReading (f l) l) :
    (e.mapLines f).targetText = e.targetText :=
  Field.decode_map fun l hl => h l (by simp [lines, hl])

theorem isPlural_mapLines (h : ∀ l ∈ e.lines, SameReading (f l) l) :
    (e.mapLines f).isPlural = e.isPlural := by
  have hany (p : Option Keyword → Bool) {ls : List Text} (hls : ∀ l ∈ ls, l ∈ e.lines) :
      (ls.map f).any (fun l => p (Keyword.ofLine? l)) = ls.any fun l => p (Keyword.ofLine? l) := by
    have hcomp (ms : List Text) :
        ms.any (fun l => p (Keyword.ofLine? l)) = (ms.map Keyword.ofLine?).any p :=
      List.any_map.symm
    have hmap : (ls.map f).map Keyword.ofLine? = ls.map Keyword.ofLine? := by
      rw [List.map_map]
      exact List.map_congr_left fun l hl => (h l (hls l hl)).keyword
    rw [hcomp, hcomp, hmap]
  rw [isPlural, isPlural, mapLines]
  congr 1
  · exact hany (fun k => k = some .sourcePlural) fun l hl => by simp [lines, hl]
  · exact hany (fun k => (k.map Keyword.isForm).getD false) fun l hl => by simp [lines, hl]

end Entry

end GettextFill
