import GettextFill.Proofs.Files
import GettextFill.Proofs.Path.Normal
import GettextFill.Proofs.Settings

/-!
# Catalogs stay in their directory

A language is used as it was given when it was accepted or as it was then trimmed
(`Language.IsUsed`). Blanks may be left around it, but it has neither a slash nor a point in it, and
an extension has no point but its first. So the catalog of a language is a child of the normal form
of its directory (`Path.IsChild`), and its name has one point. Temporary files and backups are named
after their catalogs with more points, so none of them has the name of a catalog:
`Path.catalog_confined`.
-/

namespace GettextFill

theorem not_mem_of_all {p : Char → Bool} {t : Text} (h : t.all p = true) {c : Char}
    (hc : p c = false) : c ∉ t := by
  intro hmem
  rw [List.all_eq_true.mp h c hmem] at hc
  cases hc

/-! ### Temporary files and backups -/

namespace Writing

/-- The path of a temporary file beside a file. -/
def temporaryName (path digits token : Text) : Text := path ++ ".tmp." ++ digits ++ "." ++ token

/-- The name of a backup of a file. -/
def backupName (path digits : Text) : Text := Path.base path ++ '.' :: digits ++ ".bak"

section

variable {m : Type → Type} [Monad m] [Host m]

theorem temporaryPath_eq (path : Text) :
    (temporaryPath path : m Text) = do
      let time ← Host.now
      return temporaryName path (Text.ofNat time) (← Host.nonce).text := rfl

theorem backUp_eq {o : FileOptions} {directory : Text} (h : o.backupPath = .ok directory)
    (path : Text) :
    (backUp o path : m (Except Refusal Unit)) =
      andThen (step (Host.makeDirectories directory)) (do
        let name := backupName path (Text.ofNat (← Host.now))
        step (Host.copyFile path (Path.join [directory, name]))) := by
  rw [backUp, h]
  rfl

end

theorem temporaryName_append (p name digits token : Text) :
    temporaryName (p ++ name) digits token = p ++ temporaryName name digits token := by
  simp only [temporaryName, List.append_assoc]

theorem slash_not_mem_temporaryName {name digits token : Text} (hname : '/' ∉ name)
    (hdigits : '/' ∉ digits) (htoken : '/' ∉ token) : '/' ∉ temporaryName name digits token := by
  have htmp : '/' ∉ (".tmp." : Text) := by decide
  have hpoint : '/' ∉ ("." : Text) := by decide
  simp only [temporaryName, List.mem_append, not_or]
  exact ⟨⟨⟨⟨hname, htmp⟩, hdigits⟩, hpoint⟩, htoken⟩

/-- The points of a name are not all that its temporary file has. -/
theorem count_lt_count_temporaryName (name digits token : Text) :
    name.count '.' < (temporaryName name digits token).count '.' := by
  have htmp : (".tmp." : Text).count '.' = 2 := by decide
  simp only [temporaryName, List.count_append, htmp]
  omega

theorem count_lt_count_backupName (path digits : Text) :
    (Path.base path).count '.' < (backupName path digits).count '.' := by
  have hbak : (".bak" : Text).count '.' = 1 := by decide
  simp only [backupName, List.count_append, hbak]
  omega

end Writing

/-! ### Languages in use -/

/-- A language as it was given when it was accepted, or as it was then trimmed. -/
def Language.IsUsed (language : Text) : Prop :=
  ∃ given code, Input.language (some (.text given)) = .ok code ∧
    (language = given ∨ language = code)

theorem Language.IsUsed.isCode_trim {language : Text} (h : IsUsed language) :
    isCode (Text.trim language) = true := by
  obtain ⟨given, code, haccepted, hused⟩ := h
  obtain ⟨t, hgiven, rfl, hcode⟩ := Input.language_eq_ok haccepted
  cases hgiven
  rcases hused with rfl | rfl
  · exact hcode
  · rwa [Text.trim_eq_self fun c hc => isBlank_of_mayStand (mayStand_of_mem_code hcode c hc)]

namespace Path

/-! ### Children -/

/-- A path that leads to a name directly below a directory. -/
structure IsChild (directory name p : Text) : Prop where
  isAbsolute : isAbsolute p = isAbsolute directory
  segments : segments p = segments directory ++ [name]
  directory : Path.directory p = withoutSlash directory
  base : base p = name

theorem isChild_join {name : Text} (h : IsName name) (directory : Text) :
    IsChild (normalize directory) name (join [directory, name]) := by
  rw [join_eq h]
  exact
    { isAbsolute := by rw [isAbsolute_inside_append h, isAbsolute_normalize]
      segments := by rw [segments_inside_append h, segments_normalize]
      directory := directory_inside_append h directory
      base := base_append h (inside_cases directory) }

/-! ### Names of catalogs -/

section

variable {language extension : Text}

theorem isChild_catalog (hlanguage : Language.isCode (Text.trim language) = true)
    (hextension : Input.isExtension extension = true) (directory : Text) :
    IsChild (normalize directory) (language ++ extension)
      (catalog directory language extension) :=
  isChild_join (isName_catalog hlanguage hextension) directory

/-- The name of a catalog has one point, that of its extension. -/
theorem count_point_catalog (hlanguage : Language.isCode (Text.trim language) = true)
    (hextension : Input.isExtension extension = true) : (language ++ extension).count '.' = 1 := by
  obtain ⟨t, rfl, -, ht⟩ := exists_of_isExtension hextension
  have hpoint : '.' ∉ language := Language.not_mem_of_isCode_trim hlanguage (by decide) (by decide)
  rw [List.count_append, List.count_cons_self, List.count_eq_zero.mpr hpoint,
    List.count_eq_zero.mpr (ht '.' (by decide))]

theorem base_temporaryName {name : Text} (h : IsName name) (directory : Text)
    {digits token : Text} (hdigits : '/' ∉ digits) (htoken : '/' ∉ token) :
    base (Writing.temporaryName (join [directory, name]) digits token) =
      Writing.temporaryName name digits token := by
  have hname : IsName (Writing.temporaryName name digits token) :=
    { slash_not_mem := Writing.slash_not_mem_temporaryName h.slash_not_mem hdigits htoken
      length := by
        have hlength := h.length
        simp only [Writing.temporaryName, List.length_append]
        omega }
  rw [join_eq h, Writing.temporaryName_append, base_append hname (inside_cases directory)]

/-- The catalog of a language is a child of its directory, catalogs of different languages are
different, and neither a temporary file nor a backup of a catalog has the name of a catalog. -/
theorem catalog_confined
    (hextension : Input.extension (some (.text extension)) = .ok extension)
    (hlanguage : Language.IsUsed language) (directory : Text) :
    IsChild (normalize directory) (language ++ extension)
        (catalog directory language extension) ∧
      (∀ other, Language.IsUsed other →
        catalog directory language extension = catalog directory other extension →
        language = other) ∧
      ∀ place other suffix, Language.IsUsed other →
        Input.extension (some (.text suffix)) = .ok suffix →
        ∀ digits : Text, digits.all Text.isDigit = true →
          (∀ token : Text, token.all Text.isAlphanumeric = true →
            base (Writing.temporaryName (catalog directory language extension) digits token) ≠
              base (catalog place other suffix)) ∧
          Writing.backupName (catalog directory language extension) digits ≠
            base (catalog place other suffix) := by
  have hcode := hlanguage.isCode_trim
  have hpoint := (Input.extension_eq_ok hextension).2
  have hchild := isChild_catalog hcode hpoint directory
  have hone := count_point_catalog hcode hpoint
  refine ⟨hchild, fun other hother h => ?_,
    fun place other suffix hother hsuffix digits hdigits => ?_⟩
  · have hbase := congrArg base h
    rw [hchild.base, (isChild_catalog hother.isCode_trim hpoint directory).base] at hbase
    exact List.append_cancel_right hbase
  · have hsuffixPoint := (Input.extension_eq_ok hsuffix).2
    have hotherOne := count_point_catalog hother.isCode_trim hsuffixPoint
    rw [(isChild_catalog hother.isCode_trim hsuffixPoint place).base]
    constructor
    · intro token htoken h
      have hdigits : '/' ∉ digits := not_mem_of_all hdigits (by decide)
      have htoken : '/' ∉ token := not_mem_of_all htoken (by decide)
      rw [catalog, base_temporaryName (isName_catalog hcode hpoint) directory hdigits htoken] at h
      have hmore := Writing.count_lt_count_temporaryName (language ++ extension) digits token
      rw [h, hone, hotherOne] at hmore
      exact absurd hmore (Nat.lt_irrefl 1)
    · intro h
      have hmore :=
        Writing.count_lt_count_backupName (catalog directory language extension) digits
      rw [h, hchild.base, hone, hotherOne] at hmore
      exact absurd hmore (Nat.lt_irrefl 1)

/-- A language that was accepted with a blank before it has a catalog of its own. -/
theorem catalog_confined_blank :
    catalog "a/../po/" " fr" ".po" = "po/ fr.po" ∧
      IsChild (normalize "a/../po/") " fr.po" (catalog "a/../po/" " fr" ".po") ∧
      catalog "a/../po/" " fr" ".po" ≠ catalog "a/../po/" "fr" ".po" ∧
      base (Writing.temporaryName (catalog "a/../po/" " fr" ".po") "17" "t0k3n0") ≠
        base (catalog "po" "fr" ".po") ∧
      Writing.backupName (catalog "a/../po/" " fr" ".po") "17" ≠
        base (catalog "po" "fr" ".po") := by
  have hextension : Input.extension (some (.text ".po")) = .ok ".po" := rfl
  have haccepted : Input.language (some (.text " fr")) = .ok "fr" := rfl
  have hgiven : Language.IsUsed " fr" := ⟨" fr", "fr", haccepted, .inl rfl⟩
  have htrimmed : Language.IsUsed "fr" := ⟨" fr", "fr", haccepted, .inr rfl⟩
  obtain ⟨hchild, hdifferent, hnames⟩ := catalog_confined hextension hgiven "a/../po/"
  obtain ⟨htemporary, hbackup⟩ := hnames "po" "fr" ".po" htrimmed hextension "17" (by decide)
  exact ⟨rfl, hchild, fun h => absurd (hdifferent "fr" htrimmed h) (by decide),
    htemporary "t0k3n0" (by decide), hbackup⟩

end

end Path

end GettextFill
