import MaterialLowering.Json.Decode
import MaterialLowering.Json.Writer
import MaterialLowering.Lanes

/-!
# Literals

A literal is a number or a list of numbers, as a host or a rule file writes it. It stands for four
lanes.

Main results:

* `Literal.ofJson_encode` — a literal is read back from the tree that it is written as.
-/

namespace MaterialLowering

open Numeric (Single DecimalLayout binary32)

/-- A number or a list of numbers. -/
inductive Literal where
  | scalar (v : Single)
  | vector (items : List Single)
  deriving DecidableEq

namespace Literal

/-- The lanes of a literal (`Literal.to_vec4`). One number fills all lanes, missing numbers are zero
with a one in the last lane, and numbers past the fourth are dropped. -/
def toLanes : Literal → Lanes
  | .scalar v => .splat v
  | .vector [] => .zero
  | .vector [x] => .splat x
  | .vector [x, y] => .point x y .zero
  | .vector [x, y, z] => .point x y z
  | .vector (x :: y :: z :: w :: _) => ⟨x, y, z, w⟩

/-- Numbers are shown positionally from a ten-thousandth up to below `10 ^ 16`. -/
def shownLayout : DecimalLayout :=
  { tie := .up, positionalFrom := -4, positionalBelow := 16, exponentSign := "" }

/-- A number as messages show it. -/
def shownSingle (x : Single) : String :=
  match x.toDatum with
  | .nan => "NaN"
  | .infinite negative => if negative then "-inf" else "inf"
  | .finite negative units => shownLayout.finite binary32 negative units

/-- A literal as messages show it. -/
def shown : Literal → String
  | .scalar v => "Scalar(" ++ shownSingle v ++ ")"
  | .vector items => "Vector([" ++ ", ".intercalate (items.map shownSingle) ++ "])"

/-! ## JSON -/

def encode : Literal → Json
  | .scalar v => .number (.single v)
  | .vector items => .array (items.map fun v => .number (.single v))

/-- The literal of a tree: a number or an array of numbers. -/
def ofJson : Json → Except Refusal Literal
  | .number n => .ok (.scalar n.toSingle)
  | .array items => .vector <$> items.mapM Json.asSingle
  | other => .error other.misshapen

/-- A literal inside `depth` containers, read as a whole before its form is chosen. -/
def decode (depth : Nat) (value : Json) : Except Refusal Literal := do
  value.whole depth
  ofJson value

theorem mapM_asSingle (items : List Single) :
    (items.map fun v => Json.number (.single v)).mapM Json.asSingle = .ok items := by
  induction items with
  | nil => rfl
  | cons v rest ih => simp [List.mapM_cons, Json.asSingle, Json.Number.toSingle, ih]; rfl

theorem ofJson_encode (literal : Literal) : ofJson literal.encode = .ok literal := by
  cases literal with
  | scalar v => rfl
  | vector items => simp only [encode, ofJson, mapM_asSingle]; rfl

end Literal

end MaterialLowering
