import MaterialLowering.Text.Combining
import MaterialLowering.Text.Invisible

/-!
# Characters with a form of their own

Characters that leave no mark, and characters that only change the one before them, are written as
escapes where a text is shown in quotes.
-/

namespace MaterialLowering.Text

/-- The code point is in one of the ranges. -/
def within (ranges : List (Nat × Nat)) (code : Nat) : Bool :=
  ranges.any fun (first, last) => first ≤ code && code ≤ last

/-- The character can be shown by itself. -/
def isVisible (c : Char) : Bool :=
  !within invisible c.toNat && !within combining c.toNat

end MaterialLowering.Text
