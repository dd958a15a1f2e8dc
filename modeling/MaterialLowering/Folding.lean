import MaterialLowering.Lanes
import MaterialLowering.Native.Operator
import MaterialLowering.Numeric.Elementary

/-!
# Constant folding

The meaning of the arithmetic operators on constants. Every operator is a function of three
operands, of which it looks at the first `Operator.arity`; an operand that is not there is zero.
-/

namespace MaterialLowering

open Numeric (Single)

namespace Folding

/-- One for what holds, zero for what does not. -/
def flag (b : Bool) : Single := if b then .one else .zero

/-- A half. -/
def half : Single := .ofRatio 1 2

/-- The weights of red, green and blue in luminance. -/
def luma : List Single := [.ofRatio 2126 10000, .ofRatio 7152 10000, .ofRatio 722 10000]

/-- The length of the first three lanes. -/
def length3 (a : Lanes) : Single := (a.x * a.x + a.y * a.y + a.z * a.z).sqrt

/-- The sum of the lanes over the length of all four; zero when there is no length. -/
def normalized (a : Lanes) : Single :=
  let length := (a.x * a.x + a.y * a.y + a.z * a.z + a.w * a.w).sqrt
  if Single.zero.lt length then (a.x + a.y + a.z + a.w) / length else .zero

/-- `choice ≠ 0 ? a : b` in one lane. -/
def choose (choice a b : Single) : Single := if choice.eq .zero then b else a

/-- What an operator makes of its operands (`fold_unary` and `fold_binary`). -/
def evaluate (op : Operator) (a b c : Lanes) : Lanes :=
  let unit := fun (x : Single) => x.clamp (-Single.one) .one
  match op with
  | .add => a.map2 (· + ·) b
  | .sub => a.map2 (· - ·) b
  | .mul => a.map2 (· * ·) b
  | .div => a.map2 (fun x y => if y.eq .zero then .zero else x / y) b
  | .pow => a.map2 Single.pow b
  | .min => a.map2 Single.min b
  | .max => a.map2 Single.max b
  | .floor => a.map Single.floor
  | .mod => a.map2 (fun x y => if y.eq .zero then .zero else x.rem y) b
  | .abs => a.map Single.abs
  | .log => a.map fun x => if Single.zero.lt x then x.log else .zero
  | .sin => a.map Single.sin
  | .cos => a.map Single.cos
  | .tan => a.map Single.tan
  | .asin => a.map fun x => (unit x).asin
  | .acos => a.map fun x => (unit x).acos
  | .atan => a.map Single.atan
  | .lower => a.map2 (fun x y => flag (x.lt y)) b
  | .greater => a.map2 (fun x y => flag (y.lt x)) b
  | .equal => a.map2 (fun x y => flag (x.eq y)) b
  | .ternary => a.map3 choose b c
  | .dot3 => .splat (a.x * b.x + a.y * b.y + a.z * b.z)
  | .dot4 => .splat (a.x * b.x + a.y * b.y + a.z * b.z + a.w * b.w)
  | .cross3 =>
    ⟨a.y * b.z - a.z * b.y, a.z * b.x - a.x * b.z, a.x * b.y - a.y * b.x, .one⟩
  | .length3 => .splat (length3 a)
  | .normalize3 => .splat (normalized a)
  | .selectX => .splat a.x
  | .selectY => .splat a.y
  | .selectZ => .splat a.z
  | .selectW => .splat a.w
  | .average => a.map2 (fun x y => (x + y) * half) b
  | .averageXyz => .splat ((a.x + a.y + a.z) / .ofNat 3)

/-- An operator on one operand (`fold_unary`). -/
def unary (op : Operator) (a : Lanes) : Lanes := evaluate op a .zero .zero

/-- An operator on two operands (`fold_binary`). -/
def binary (op : Operator) (a b : Lanes) : Lanes := evaluate op a b .zero

/-- The choice between two operands, lane by lane (`fold_ternary`). -/
def ternary (choice a b : Lanes) : Lanes := evaluate .ternary choice a b

/-- The point between `a` and `b` at `weight`, lane by lane (`Folder.blend`). -/
def blend (weight a b : Lanes) : Lanes := a.map3 (fun x y t => x + (y - x) * t) b weight

end Folding

end MaterialLowering
