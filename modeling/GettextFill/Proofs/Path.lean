import GettextFill.Input
import GettextFill.Log
import GettextFill.Proofs.FileTree.Place
import GettextFill.Proofs.Language
import GettextFill.Proofs.Text.Lines
import Mathlib.Data.List.Induction

/-!
# Files in one directory

All catalogs of a run lie in one directory, and so do all files of a log. A path that is joined of a
directory and a name is the name behind a beginning that depends on the directory alone
(`Path.join_eq`), so it leads to the name below a place that is the same for all names
(`Path.place_join`). Files with different names are therefore different files.

Catalogs are named by their languages. `Path.place_catalog_inj` tells the catalogs of two languages
apart.
-/

namespace GettextFill

namespace Path

/-- A name that is one segment and none that stands for another place. -/
structure IsName (name : Text) : Prop where
  slash_not_mem : '/' ∉ name
  length : 2 < name.length

variable {name : Text}

theorem IsName.ne_nil (h : IsName name) : name ≠ [] := (ne_of_length h.length).1

theorem IsName.append (h : IsName name) {suffix : Text} (hslash : '/' ∉ suffix) :
    IsName (name ++ suffix) := by
  refine ⟨by simp [h.slash_not_mem, hslash], ?_⟩
  rw [List.length_append]
  exact Nat.lt_add_right _ h.length

theorem getLast?_append_ne_slash (hnil : name ≠ []) (hslash : '/' ∉ name) (p : Text) :
    (p ++ name).getLast? ≠ some '/' := by
  intro h
  rw [List.getLast?_append, List.getLast?_eq_some_getLast hnil, Option.some_or] at h
  exact hslash (Option.some.inj h ▸ List.getLast_mem hnil)

theorem IsName.getLast?_append_ne (h : IsName name) (p : Text) :
    (p ++ name).getLast? ≠ some '/' :=
  getLast?_append_ne_slash h.ne_nil h.slash_not_mem p

/-! ### Paths that end in a name -/

theorem isAbsolute_append_of_ne_nil {p : Text} (h : p ≠ []) (t : Text) :
    isAbsolute (p ++ t) = isAbsolute p := by
  cases p with
  | nil => exact absurd rfl h
  | cons c p => rfl

theorem IsName.not_isAbsolute (h : IsName name) : isAbsolute name = false :=
  isAbsolute_append h.slash_not_mem []

theorem pieces_slash_append (h : '/' ∉ name) (p : Text) :
    pieces (p ++ '/' :: name) = pieces p ++ [name] := by
  rw [pieces, List.splitOn_append_cons_self, List.splitOn_eq_singleton h, pieces]

theorem descend_of_ne (hnil : name ≠ []) (hself : name ≠ ['.']) (hparent : name ≠ parent)
    (above : Bool) (gone : List Text) : descend above gone name = name :: gone := by
  simp [descend, hnil, hself, hparent]

theorem IsName.descend (h : IsName name) (above : Bool) (gone : List Text) :
    Path.descend above gone name = name :: gone := by
  obtain ⟨hnil, hself, hparent⟩ := ne_of_length h.length
  exact descend_of_ne hnil hself hparent above gone

theorem segments_slash_append (h : IsName name) {p : Text} (hp : p ≠ []) :
    segments (p ++ '/' :: name) = segments p ++ [name] := by
  rw [segments, isAbsolute_append_of_ne_nil hp, pieces_slash_append h.slash_not_mem,
    List.foldl_append, List.foldl_cons, List.foldl_nil, h.descend, List.reverse_cons, segments]

theorem IsName.segments (h : IsName name) : Path.segments name = [name] := by
  rw [Path.segments, pieces, List.splitOn_eq_singleton h.slash_not_mem, List.foldl_cons,
    List.foldl_nil, h.descend, List.reverse_singleton]

/-- What a path without needless segments has before its last segment. -/
def lead (isAbsolute : Bool) (above : List Text) : Text :=
  (if isAbsolute then ['/'] else []) ++ above.flatMap (· ++ ['/'])

theorem normalize_eq (h : IsName name) {p : Text} {above : List Text}
    (hlast : p.getLast? ≠ some '/') (hsegments : segments p = above ++ [name]) :
    normalize p = lead (isAbsolute p) above ++ name := by
  have hp : p ≠ [] := by
    rintro rfl
    rw [segments] at hsegments
    simp [pieces, descend] at hsegments
  rw [normalize, lead, hsegments, Text.join_append_singleton]
  cases isAbsolute p <;> simp [hp, hlast, h.ne_nil]

/-- What the paths of files in a directory begin with. -/
def inside (directory : Text) : Text :=
  if directory = [] then [] else lead (isAbsolute directory) (segments directory)

theorem inside_eq_lead (directory : Text) :
    inside directory = lead (isAbsolute directory) (segments directory) := by
  rw [inside]
  split
  · next h =>
    subst h
    rfl
  · rfl

theorem join_eq (h : IsName name) (directory : Text) :
    join [directory, name] = inside directory ++ name := by
  rw [join, inside]
  by_cases hdirectory : directory = []
  · have hjoined : Text.join ['/'] ([directory, name].filter fun p => !p.isEmpty) = name := by
      simp [Text.join, hdirectory, h.ne_nil]
    have hlast : name.getLast? ≠ some '/' := h.getLast?_append_ne []
    have hsegments : segments name = [] ++ [name] := h.segments
    rw [if_pos hdirectory, hjoined, normalize_eq h hlast hsegments, h.not_isAbsolute]
    rfl
  · have hjoined : Text.join ['/'] ([directory, name].filter fun p => !p.isEmpty) =
        directory ++ '/' :: name := by
      simp [Text.join, hdirectory, h.ne_nil]
    have hlast : (directory ++ '/' :: name).getLast? ≠ some '/' := by
      rw [List.append_cons]
      exact h.getLast?_append_ne (directory ++ ['/'])
    rw [if_neg hdirectory, hjoined,
      normalize_eq h hlast (segments_slash_append h hdirectory),
      isAbsolute_append_of_ne_nil hdirectory]

/-! ### Places of names -/

theorem lead_cases (isAbsolute : Bool) (above : List Text) :
    lead isAbsolute above = [] ∨ ∃ p, lead isAbsolute above = p ++ ['/'] := by
  rw [lead]
  induction above using List.reverseRecOn with
  | nil =>
      cases isAbsolute with
      | false => exact Or.inl rfl
      | true => exact Or.inr ⟨[], rfl⟩
  | append_singleton above last =>
      right
      exact ⟨(if isAbsolute then ['/'] else []) ++ above.flatMap (· ++ ['/']) ++ last,
        by simp⟩

theorem inside_cases (directory : Text) :
    inside directory = [] ∨ ∃ p, inside directory = p ++ ['/'] := by
  rw [inside]
  split
  · exact Or.inl rfl
  · exact lead_cases _ _

/-- Names lead to places of that name, all below the same place. -/
theorem place_inside_append (h : IsName name) (here : Place) (directory : Text) :
    place here (inside directory ++ name) = place here (inside directory) ++ [name] := by
  rcases inside_cases directory with hnil | ⟨p, hp⟩
  · rw [hnil, List.nil_append, place, pieces, List.splitOn_eq_singleton h.slash_not_mem,
      FileTree.start, h.not_isAbsolute]
    exact go_of_length h.length here
  · have hstart : FileTree.start here (p ++ '/' :: name) = FileTree.start here (p ++ ['/']) := by
      rw [FileTree.start, FileTree.start, List.append_cons,
        isAbsolute_append_of_ne_nil (List.append_ne_nil_of_right_ne_nil p (List.cons_ne_nil _ _))]
    rw [hp, List.append_assoc, List.singleton_append, place, hstart,
      pieces_slash_append h.slash_not_mem, place, pieces_slash_append List.not_mem_nil,
      List.foldl_append, List.foldl_append]
    exact go_of_length h.length _

theorem place_join (h : IsName name) (here : Place) (directory : Text) :
    place here (join [directory, name]) = place here (inside directory) ++ [name] := by
  rw [join_eq h, place_inside_append h]

/-! ### Directories and last names -/

theorem dropSlashes_append (hnil : name ≠ []) (hslash : '/' ∉ name) (p : Text) :
    dropSlashes (p ++ name) = p ++ name := by
  have hne := getLast?_append_ne_slash hnil hslash p
  rw [dropSlashes]
  cases hreverse : (p ++ name).reverse with
  | nil => simp [List.reverse_eq_nil_iff.mp hreverse]
  | cons c rest =>
      rw [← List.head?_reverse, hreverse] at hne
      have hc : c ≠ '/' := by simpa using hne
      rw [List.dropWhile_cons_of_neg (by simpa using hc), ← hreverse, List.reverse_reverse]

theorem ne_slash_of_mem_reverse (hslash : '/' ∉ name) :
    ∀ c ∈ name.reverse, decide (c ≠ '/') = true := by
  intro c hc
  rw [decide_eq_true_eq]
  rintro rfl
  exact hslash (List.mem_reverse.mp hc)

theorem base_append_of_ne_nil (hnil : name ≠ []) (hslash : '/' ∉ name) {p : Text}
    (hp : p = [] ∨ ∃ q, p = q ++ ['/']) : base (p ++ name) = name := by
  rw [base, dropSlashes_append hnil hslash, List.reverse_append,
    List.takeWhile_append_of_pos (ne_slash_of_mem_reverse hslash)]
  rcases hp with rfl | ⟨q, rfl⟩ <;> simp

theorem base_append (h : IsName name) {p : Text} (hp : p = [] ∨ ∃ q, p = q ++ ['/']) :
    base (p ++ name) = name :=
  base_append_of_ne_nil h.ne_nil h.slash_not_mem hp

/-- The directory of a file is named by what stands before its name: all but the last slash of it,
unless there is nothing else. -/
theorem directory_cases (h : IsName name) {p : Text} (hp : p = [] ∨ ∃ q, p = q ++ ['/']) :
    p = [] ∧ directory (p ++ name) = ['.'] ∨
      (p = ['/'] ∨ p = ['/', '/']) ∧ directory (p ++ name) = p ∨
      ∃ q, q ≠ [] ∧ p = q ++ ['/'] ∧ directory (p ++ name) = q := by
  have habove : ((dropSlashes (p ++ name)).reverse.dropWhile fun c => c ≠ '/').reverse = p := by
    rw [dropSlashes_append h.ne_nil h.slash_not_mem, List.reverse_append,
      List.dropWhile_append_of_pos (ne_slash_of_mem_reverse h.slash_not_mem)]
    rcases hp with rfl | ⟨q, rfl⟩ <;> simp
  rw [directory, habove]
  split
  · left
    exact ⟨rfl, if_neg (by simp [h.not_isAbsolute])⟩
  · exact Or.inr (Or.inl ⟨Or.inl rfl, rfl⟩)
  · exact Or.inr (Or.inl ⟨Or.inr rfl, rfl⟩)
  · next hnil hslash _ =>
    right
    right
    rcases hp with rfl | ⟨q, rfl⟩
    · exact absurd rfl hnil
    · refine ⟨q, ?_, rfl, List.dropLast_concat⟩
      rintro rfl
      exact hslash rfl

/-- A last name stands before nothing but slashes at the end. -/
theorem lastName?_eq_some {p : Text} {above : List Text} (h : lastName? p = some (above, name)) :
    name ≠ [] ∧ name ≠ ['.'] ∧ name ≠ parent ∧
      ∃ rest : List Text, (∀ piece ∈ rest, piece = []) ∧ pieces p = above ++ name :: rest := by
  rw [lastName?] at h
  have hsplit := List.takeWhile_append_dropWhile (p := List.isEmpty) (l := (pieces p).reverse)
  split at h
  · cases h
  · next last before hlast =>
    split at h
    · cases h
    · next hname =>
      cases h
      rw [Bool.or_eq_true, decide_eq_true_eq, decide_eq_true_eq, not_or] at hname
      have hhead := List.head?_dropWhile_not List.isEmpty (pieces p).reverse
      rw [hlast] at hhead hsplit
      refine ⟨by simpa using hhead, hname.1, hname.2,
        ((pieces p).reverse.takeWhile List.isEmpty).reverse, ?_, ?_⟩
      · intro piece hpiece
        exact List.isEmpty_iff.mp (List.mem_takeWhile_imp (List.mem_reverse.mp hpiece))
      · have hpieces := congrArg List.reverse hsplit
        rw [List.reverse_reverse, List.reverse_append, List.reverse_cons, List.append_assoc,
          List.singleton_append] at hpieces
        exact hpieces.symm

/-- A path ends in its last piece, which is its last name unless the path ends in a slash. -/
theorem base_of_pieces {p : Text} {above : List Text} (h : pieces p = above ++ [name])
    (hslash : p.getLast? ≠ some '/') : base p = name := by
  have hname : '/' ∉ name := Text.not_mem_of_mem_splitOn '/' p name (by rw [← pieces, h]; simp)
  have hp : Text.join ['/'] (pieces p) = p := List.intercalate_splitOn '/'
  rw [h, Text.join_append_singleton] at hp
  change lead false above ++ name = p at hp
  have hlead := lead_cases false above
  rw [← hp] at hslash ⊢
  by_cases hnil : name = []
  · subst hnil
    rcases hlead with hnone | ⟨q, hq⟩
    · rw [hnone]
      rfl
    · rw [hq, List.append_nil, List.getLast?_concat] at hslash
      exact absurd rfl hslash
  · exact base_append_of_ne_nil hnil hname hlead

/-- A path that has a last name and no slash behind it ends in that name. -/
theorem pieces_of_lastName? {p : Text} {above : List Text}
    (h : lastName? p = some (above, name)) (hslash : p.getLast? ≠ some '/') :
    pieces p = above ++ [name] := by
  obtain ⟨-, -, -, rest, hrest, hpieces⟩ := lastName?_eq_some h
  have hp : Text.join ['/'] (pieces p) = p := List.intercalate_splitOn '/'
  cases rest using List.reverseRecOn with
  | nil => exact hpieces
  | append_singleton before last =>
      rw [hrest last (by simp)] at hpieces
      rw [hpieces, ← List.cons_append, ← List.append_assoc, Text.join_append_singleton] at hp
      rcases lead_cases false (above ++ name :: before) with hnil | ⟨q, hq⟩
      · simp [lead] at hnil
      · have hend : p = q ++ ['/'] := by
          rw [← hq, ← hp, List.append_nil]
          rfl
        exact absurd (hend ▸ List.getLast?_concat) hslash

/-- A path that has a last name and no slash behind it leads to a place of that name. -/
theorem getLast?_place_of_lastName? {p : Text} {above : List Text}
    (h : lastName? p = some (above, name)) (hslash : p.getLast? ≠ some '/') (here : Place) :
    (place here p).getLast? = some (base p) := by
  obtain ⟨hnil, hself, hparent, -⟩ := lastName?_eq_some h
  have hpieces := pieces_of_lastName? h hslash
  rw [base_of_pieces hpieces hslash, place, hpieces, List.foldl_append, List.foldl_cons,
    List.foldl_nil, go]
  simp [hnil, hself, hparent]

/-- Something behind a path that is no slash is behind the last name of its place. -/
theorem getLast?_place_append {suffix : Text} (hsuffix : IsName suffix) (here : Place) {p : Text}
    (hslash : p.getLast? ≠ some '/') :
    (place here (p ++ suffix)).getLast? = some (base p ++ suffix) := by
  obtain ⟨above, name, hpieces, hpieces'⟩ := exists_pieces_append hsuffix.slash_not_mem p
  rw [base_of_pieces hpieces hslash, place, hpieces', List.foldl_append, List.foldl_cons,
    List.foldl_nil, go_of_length, List.getLast?_concat]
  have hlength := hsuffix.length
  rw [List.length_append]
  omega

theorem exists_of_isExtension {extension : Text} (h : Input.isExtension extension = true) :
    ∃ t, extension = '.' :: t ∧ t ≠ [] ∧ ∀ c, Text.isAlphanumeric c = false → c ∉ t := by
  unfold Input.isExtension at h
  split at h
  · next t =>
    rw [Bool.and_eq_true, List.all_eq_true] at h
    obtain ⟨hne, hall⟩ := h
    refine ⟨t, rfl, by simpa using hne, fun c hc hmem => ?_⟩
    rw [hall c hmem] at hc
    cases hc
  · cases h

variable {language extension : Text}

/-- The name of a catalog leads to the file of that name, whatever language it is for. -/
theorem isName_catalog (hlanguage : Language.isCode (Text.trim language) = true)
    (hextension : Input.isExtension extension = true) : IsName (language ++ extension) := by
  obtain ⟨t, rfl, hne, ht⟩ := exists_of_isExtension hextension
  have hslash : '/' ∉ language := Language.not_mem_of_isCode_trim hlanguage (by decide) (by decide)
  have hpos : 0 < language.length := by
    apply List.length_pos_iff.mpr
    rintro rfl
    exact absurd hlanguage (by decide)
  have hpos' : 0 < t.length := List.length_pos_iff.mpr hne
  constructor
  · simp [hslash, ht '/' (by decide)]
  · simp
    omega

theorem place_catalog (hlanguage : Language.isCode (Text.trim language) = true)
    (hextension : Input.isExtension extension = true) (here : Place) (directory : Text) :
    place here (catalog directory language extension) =
      place here (inside directory) ++ [language ++ extension] :=
  place_join (isName_catalog hlanguage hextension) here directory

theorem isName_fileName (level : LogLevel) : IsName level.fileName := by
  cases level <;> exact ⟨by decide, by decide⟩

/-- No file of a log has the name of a catalog: what stands before its extension is no code. -/
theorem catalog_ne_fileName (hlanguage : Language.isCode (Text.trim language) = true)
    (hextension : Input.isExtension extension = true) (level : LogLevel) :
    language ++ extension ≠ level.fileName := by
  obtain ⟨t, rfl, -, -⟩ := exists_of_isExtension hextension
  have hpoint : '.' ∉ language := Language.not_mem_of_isCode_trim hlanguage (by decide) (by decide)
  intro h
  have hstem : language = level.fileName.takeWhile fun c => c ≠ '.' := by
    rw [← h, List.takeWhile_append_of_pos]
    · simp
    · intro c hc
      rw [decide_eq_true_eq]
      rintro rfl
      exact hpoint hc
  rw [hstem] at hlanguage
  cases level <;> exact absurd hlanguage (by decide)

/-- A file of a log is no catalog, in whatever directory it lies. -/
theorem place_file_ne_catalog (hlanguage : Language.isCode (Text.trim language) = true)
    (hextension : Input.isExtension extension = true) (here : Place) (directory : Text)
    (log : LogSettings) (level : LogLevel) :
    place here (log.file level) ≠ place here (catalog directory language extension) := by
  rw [LogSettings.file, place_join (isName_fileName level), place_catalog hlanguage hextension]
  intro h
  have hname := congrArg List.getLast? h
  simp only [List.getLast?_append, List.getLast?_singleton, Option.some_or] at hname
  exact catalog_ne_fileName hlanguage hextension level (Option.some.inj hname).symm

end Path

end GettextFill
