import GettextFill.Proofs.Path
import Mathlib.Data.List.Basic

/-!
# Segments of normal paths

What a path is read to, segment by segment, is a trail (`Path.IsTrail`): it has no needless segment,
and reading it once more changes nothing. One step keeps this (`IsTrail.descend`), so it is true of
the segments of every path, and the normal form of a path, which is written with them, has the same
segments (`segments_normalize`).

The directory of a file in a directory is the normal form of that directory without the slash at its
end (`directory_inside_append`).
-/

namespace GettextFill.Path

/-! ### Trails -/

/-- Segments, the last one first, that are all needed: to go along them leads to no others. -/
structure IsTrail (above : Bool) (gone : List Text) : Prop where
  plain : ∀ segment ∈ gone, segment ≠ [] ∧ segment ≠ ['.'] ∧ '/' ∉ segment
  settled : gone.reverse.foldl (descend above) [] = gone

variable {above : Bool} {gone : List Text} {segment : Text}

theorem foldl_descend_cons (above : Bool) (segment : Text) (gone : List Text) :
    (segment :: gone).reverse.foldl (descend above) [] =
      descend above (gone.reverse.foldl (descend above) []) segment := by
  rw [List.reverse_cons, List.foldl_append, List.foldl_cons, List.foldl_nil]

theorem descend_of_needless (h : segment = [] ∨ segment = ['.']) (gone : List Text) :
    descend above gone segment = gone := by
  rcases h with rfl | rfl <;> rfl

theorem isTrail_nil (above : Bool) : IsTrail above [] :=
  ⟨fun _ h => absurd h List.not_mem_nil, rfl⟩

theorem IsTrail.cons (h : IsTrail above gone) (hnil : segment ≠ []) (hself : segment ≠ ['.'])
    (hslash : '/' ∉ segment) (hdescend : Path.descend above gone segment = segment :: gone) :
    IsTrail above (segment :: gone) :=
  ⟨List.forall_mem_cons.mpr ⟨⟨hnil, hself, hslash⟩, h.plain⟩, by
    rw [foldl_descend_cons, h.settled, hdescend]⟩

/-- A trail that ends in a name is one without it. -/
theorem IsTrail.of_cons {last : Text} (h : IsTrail above (last :: gone)) (hlast : last ≠ parent) :
    IsTrail above gone := by
  obtain ⟨⟨hnil, hself, -⟩, hplain⟩ := List.forall_mem_cons.mp h.plain
  refine ⟨hplain, ?_⟩
  have hsettled := h.settled
  rw [foldl_descend_cons, descend_of_ne hnil hself hlast] at hsettled
  exact (List.cons.inj hsettled).2

/-- One segment more leads from a trail to a trail. -/
theorem IsTrail.descend (h : IsTrail above gone) (hslash : '/' ∉ segment) :
    IsTrail above (Path.descend above gone segment) := by
  by_cases hneedless : segment = [] ∨ segment = ['.']
  · rwa [descend_of_needless hneedless]
  obtain ⟨hnil, hself⟩ := not_or.mp hneedless
  by_cases hparent : segment = parent
  · subst hparent
    cases gone with
    | nil =>
        cases above with
        | false => exact isTrail_nil false
        | true => exact h.cons hnil hself hslash rfl
    | cons last rest =>
        by_cases hlast : last = parent
        · have hstay : Path.descend above (last :: rest) parent = parent :: last :: rest := by
            simp [Path.descend, hnil, hself, hlast]
          rw [hstay]
          exact h.cons hnil hself hslash hstay
        · have hleave : Path.descend above (last :: rest) parent = rest := by
            simp [Path.descend, hnil, hself, hlast]
          rw [hleave]
          exact h.of_cons hlast
  · have hgo := descend_of_ne hnil hself hparent above gone
    rw [hgo]
    exact h.cons hnil hself hslash hgo

theorem IsTrail.foldl {names : List Text} (hnames : ∀ name ∈ names, '/' ∉ name)
    (h : IsTrail above gone) : IsTrail above (names.foldl (Path.descend above) gone) := by
  induction names generalizing gone with
  | nil => exact h
  | cons name names ih =>
      obtain ⟨hname, hnames⟩ := List.forall_mem_cons.mp hnames
      exact ih hnames (h.descend hname)

theorem isTrail_segments (p : Text) : IsTrail (!isAbsolute p) (segments p).reverse := by
  rw [segments, List.reverse_reverse]
  exact (isTrail_nil _).foldl (Text.not_mem_of_mem_splitOn '/' p)

theorem plain_of_mem_segments {p : Text} (h : segment ∈ segments p) :
    segment ≠ [] ∧ segment ≠ ['.'] ∧ '/' ∉ segment :=
  (isTrail_segments p).plain segment (List.mem_reverse.mpr h)

theorem foldl_descend_segments (p : Text) :
    (segments p).foldl (descend (!isAbsolute p)) [] = (segments p).reverse := by
  have h := (isTrail_segments p).settled
  rwa [List.reverse_reverse] at h

/-! ### Normal forms -/

theorem normalize_of_segments_eq_nil {p : Text} (h : segments p = []) :
    normalize p = ['/'] ∧ isAbsolute p = true ∨
      (normalize p = ['.'] ∨ normalize p = ['.', '/']) ∧ isAbsolute p = false := by
  rw [normalize, h]
  cases p with
  | nil => exact .inr ⟨.inl rfl, rfl⟩
  | cons c p =>
      cases habsolute : isAbsolute (c :: p) with
      | true => exact .inl ⟨rfl, rfl⟩
      | false =>
          refine .inr ⟨?_, rfl⟩
          by_cases hlast : (c :: p).getLast? = some '/'
          · exact .inr (by simp [hlast, Text.join])
          · exact .inl (by simp [hlast, Text.join])

/-- A path that leads to a segment is that segment behind the others and perhaps a slash. -/
theorem normalize_of_segments {p last : Text} {names : List Text}
    (h : segments p = names ++ [last]) :
    ∃ slash : Text, (slash = [] ∨ slash = ['/']) ∧
      normalize p = lead (isAbsolute p) names ++ last ++ slash := by
  have hp : p ≠ [] := by
    rintro rfl
    rw [segments] at h
    simp [pieces, Path.descend] at h
  have hmem : last ∈ segments p := h ▸ List.mem_append_right names List.mem_cons_self
  have hlast : last ≠ [] := (plain_of_mem_segments hmem).1
  rw [normalize, lead, h, Text.join_append_singleton]
  refine ⟨if p.getLast? = some '/' then ['/'] else [], ?_, ?_⟩
  · split
    · exact .inr rfl
    · exact .inl rfl
  · cases isAbsolute p <;> simp [hp, hlast]

theorem pieces_append_slash (p : Text) : pieces (p ++ ['/']) = pieces p ++ [[]] :=
  pieces_slash_append List.not_mem_nil p

/-- The slashes between segments, and that before the first, make no difference to where these
lead. -/
theorem foldl_descend_lead {last : Text} {names : List Text}
    (hnames : ∀ name ∈ names ++ [last], '/' ∉ name) (absolute : Bool) :
    (pieces (lead absolute names ++ last)).foldl (descend above) [] =
      (names ++ [last]).foldl (descend above) [] := by
  have hpieces : pieces (names.flatMap (· ++ ['/']) ++ last) = names ++ [last] := by
    rw [← Text.join_append_singleton]
    exact List.splitOn_intercalate '/' hnames (List.concat_ne_nil last names)
  cases absolute with
  | false => exact congrArg _ hpieces
  | true =>
      have hfirst : pieces (lead true names ++ last) = [] :: (names ++ [last]) :=
        congrArg ([] :: ·) hpieces
      rw [hfirst, List.foldl_cons, descend_of_needless (.inl rfl)]

theorem isAbsolute_lead_append {last : Text} {names : List Text}
    (hnames : ∀ name ∈ names ++ [last], name ≠ [] ∧ '/' ∉ name) (absolute : Bool) :
    isAbsolute (lead absolute names ++ last) = absolute := by
  cases absolute with
  | true => rfl
  | false =>
      cases names with
      | nil =>
          have hslash := (hnames last (List.mem_singleton_self last)).2
          exact isAbsolute_append hslash []
      | cons name names =>
          obtain ⟨hnil, hslash⟩ := hnames name List.mem_cons_self
          rw [lead, List.flatMap_cons, if_neg Bool.false_ne_true, List.nil_append,
            List.append_assoc, List.append_assoc, isAbsolute_append_of_ne_nil hnil]
          exact isAbsolute_append hslash []

/-- A path and its normal form begin at the same place. -/
theorem isAbsolute_normalize (p : Text) : isAbsolute (normalize p) = isAbsolute p := by
  rcases List.eq_nil_or_concat' (segments p) with h | ⟨names, last, h⟩
  · rcases normalize_of_segments_eq_nil h with ⟨hp, habsolute⟩ | ⟨hp | hp, habsolute⟩ <;>
      rw [hp, habsolute] <;> rfl
  · obtain ⟨slash, -, hp⟩ := normalize_of_segments h
    have hplain : ∀ name ∈ names ++ [last], name ≠ [] ∧ '/' ∉ name := fun name hname =>
      have hplain := plain_of_mem_segments (h ▸ hname)
      ⟨hplain.1, hplain.2.2⟩
    have hne : lead (isAbsolute p) names ++ last ≠ [] :=
      List.append_ne_nil_of_right_ne_nil _ (hplain last (by simp)).1
    rw [hp, isAbsolute_append_of_ne_nil hne, isAbsolute_lead_append hplain]

/-- A path and its normal form have the same segments. -/
theorem segments_normalize (p : Text) : segments (normalize p) = segments p := by
  rcases List.eq_nil_or_concat' (segments p) with h | ⟨names, last, h⟩
  · rcases normalize_of_segments_eq_nil h with ⟨hp, -⟩ | ⟨hp | hp, -⟩ <;> rw [hp, h] <;> rfl
  · obtain ⟨slash, hslash, hp⟩ := normalize_of_segments h
    have hnames : ∀ name ∈ names ++ [last], '/' ∉ name := fun name hname =>
      (plain_of_mem_segments (h ▸ hname)).2.2
    have htrail := foldl_descend_segments p
    rw [h] at htrail
    rw [segments, isAbsolute_normalize, hp, h]
    rcases hslash with rfl | rfl
    · rw [List.append_nil, foldl_descend_lead hnames, htrail, List.reverse_reverse]
    · rw [pieces_append_slash, List.foldl_append, foldl_descend_lead hnames, htrail,
        List.foldl_cons, List.foldl_nil, descend_of_needless (.inl rfl), List.reverse_reverse]

/-! ### Directories -/

theorem ne_nil_of_mem_segments_append {name : Text} (hname : IsName name) {p : Text} :
    ∀ segment ∈ segments p ++ [name], segment ≠ [] ∧ '/' ∉ segment := by
  intro segment hsegment
  rcases List.mem_append.mp hsegment with h | h
  · have hplain := plain_of_mem_segments h
    exact ⟨hplain.1, hplain.2.2⟩
  · rw [List.mem_singleton.mp h]
    exact ⟨hname.ne_nil, hname.slash_not_mem⟩

theorem isAbsolute_inside_append {name : Text} (hname : IsName name) (p : Text) :
    isAbsolute (inside p ++ name) = isAbsolute p := by
  rw [inside_eq_lead, isAbsolute_lead_append (ne_nil_of_mem_segments_append hname)]

theorem segments_inside_append {name : Text} (hname : IsName name) (p : Text) :
    segments (inside p ++ name) = segments p ++ [name] := by
  have hnames : ∀ segment ∈ segments p ++ [name], '/' ∉ segment := fun segment h =>
    (ne_nil_of_mem_segments_append hname segment h).2
  rw [segments, isAbsolute_inside_append hname, inside_eq_lead, foldl_descend_lead hnames,
    List.foldl_append, foldl_descend_segments, List.foldl_cons, List.foldl_nil, hname.descend,
    List.reverse_cons, List.reverse_reverse]

/-- A path without the slash at its end, unless it is nothing but that slash. -/
def withoutSlash (p : Text) : Text :=
  if p ≠ ['/'] ∧ p.getLast? = some '/' then p.dropLast else p

theorem withoutSlash_append {p slash : Text} (hp : p ≠ []) (hlast : p.getLast? ≠ some '/')
    (hslash : slash = [] ∨ slash = ['/']) : withoutSlash (p ++ slash) = p := by
  rcases hslash with rfl | rfl
  · rw [List.append_nil, withoutSlash, if_neg fun h => hlast h.2]
  · rw [withoutSlash, if_pos ⟨by simpa using hp, List.getLast?_concat⟩, List.dropLast_concat]

theorem directory_slash_append {name : Text} (hname : IsName name) {p : Text} (hp : p ≠ [])
    (hlast : p.getLast? ≠ some '/') : directory (p ++ ['/'] ++ name) = p := by
  rcases directory_cases hname (.inr ⟨p, rfl⟩) with ⟨h, -⟩ | ⟨h | h, -⟩ | ⟨q, -, hq, h⟩
  · exact absurd h (List.concat_ne_nil _ _)
  · have hnil : p ++ ['/'] = [] ++ ['/'] := h
    exact absurd (List.append_cancel_right hnil) hp
  · have hroot : p ++ ['/'] = ['/'] ++ ['/'] := h
    rw [List.append_cancel_right hroot] at hlast
    exact absurd rfl hlast
  · rw [h, List.append_cancel_right hq]

theorem directory_root_append {name : Text} (hname : IsName name) :
    directory (['/'] ++ name) = ['/'] := by
  rcases directory_cases hname (.inr ⟨[], rfl⟩) with ⟨h, -⟩ | ⟨-, h⟩ | ⟨q, hq, h, -⟩
  · exact absurd h (List.cons_ne_nil _ _)
  · exact h
  · have hnil : [] ++ ['/'] = q ++ ['/'] := h
    exact absurd (List.append_cancel_right hnil).symm hq

theorem directory_name {name : Text} (hname : IsName name) : directory name = ['.'] := by
  rcases directory_cases hname (.inl rfl) with ⟨-, h⟩ | ⟨h | h, -⟩ | ⟨q, -, h, -⟩
  · exact h
  · exact absurd h.symm (List.cons_ne_nil _ _)
  · exact absurd h.symm (List.cons_ne_nil _ _)
  · exact absurd h.symm (List.concat_ne_nil _ _)

/-- The directory of a file in a directory is the normal form of the latter. -/
theorem directory_inside_append {name : Text} (hname : IsName name) (p : Text) :
    directory (inside p ++ name) = withoutSlash (normalize p) := by
  rw [inside_eq_lead]
  rcases List.eq_nil_or_concat' (segments p) with h | ⟨names, last, h⟩
  · rw [h]
    rcases normalize_of_segments_eq_nil h with ⟨hp, habsolute⟩ | ⟨hp, habsolute⟩
    · rw [hp, habsolute]
      exact directory_root_append hname
    · rw [habsolute]
      refine (directory_name hname).trans ?_
      rcases hp with hp | hp <;> rw [hp] <;> rfl
  · obtain ⟨slash, hslash, hp⟩ := normalize_of_segments h
    have hmem : last ∈ segments p := h ▸ List.mem_append_right names List.mem_cons_self
    obtain ⟨hnil, -, hlast⟩ := plain_of_mem_segments hmem
    have hne : lead (isAbsolute p) names ++ last ≠ [] := List.append_ne_nil_of_right_ne_nil _ hnil
    have hend := getLast?_append_ne_slash hnil hlast (lead (isAbsolute p) names)
    have hlead : lead (isAbsolute p) (names ++ [last]) =
        lead (isAbsolute p) names ++ last ++ ['/'] := by
      simp [lead]
    rw [hp, withoutSlash_append hne hend hslash, h, hlead, directory_slash_append hname hne hend]

end GettextFill.Path
