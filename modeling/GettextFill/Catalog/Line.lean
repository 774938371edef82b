import GettextFill.Catalog.Field

/-!
# Kinds of lines

Every line of a catalog is of exactly one kind, which is read off its beginning. `LineKind.ofLine`
decides in the order blank, comment, continuation, keyword, so a line of blanks is blank whatever
else it might be.
-/

namespace GettextFill

/-- What a line of a catalog is. -/
inductive LineKind
  | blank
  | comment
  | context
  | source
  | sourcePlural
  | target
  | continuation
  | unknown
  deriving DecidableEq

def Keyword.lineKind : Keyword → LineKind
  | context => .context
  | source => .source
  | sourcePlural => .sourcePlural
  | target => .target
  | targetForm _ => .target

def LineKind.ofLine (line : Text) : LineKind :=
  if line.all Text.isBlank then .blank
  else if line.head? = some '#' then .comment
  else if line.head? = some '"' then .continuation
  else
    match Keyword.ofLine? line with
    | some keyword => keyword.lineKind
    | none => .unknown

@[simp] theorem LineKind.ofLine_nil : LineKind.ofLine [] = .blank := rfl

theorem LineKind.ofLine_eq_blank_iff {line : Text} :
    LineKind.ofLine line = .blank ↔ line.all Text.isBlank = true := by
  unfold LineKind.ofLine
  split
  · simp_all
  · next h =>
    constructor
    · intro hk
      split at hk
      · simp at hk
      · split at hk
        · simp at hk
        · split at hk
          · next k _ => cases k <;> simp [Keyword.lineKind] at hk
          · simp at hk
    · intro hb
      exact absurd hb h

end GettextFill
