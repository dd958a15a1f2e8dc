/-!
# Arithmetic operators

The operators of native arithmetic nodes, their names and the number of operands they take.

Main results:

* `Operator.ofName?_name` — the name of an operator names it.
-/

namespace MaterialLowering

/-- The operator of an arithmetic node (`ArithmeticOp`). -/
inductive Operator where
  | add
  | sub
  | mul
  | div
  | pow
  | min
  | max
  | floor
  | mod
  | abs
  | log
  | sin
  | cos
  | tan
  | asin
  | acos
  | atan
  | lower
  | greater
  | equal
  | ternary
  | dot3
  | dot4
  | cross3
  | length3
  | normalize3
  | selectX
  | selectY
  | selectZ
  | selectW
  | average
  | averageXyz
  deriving DecidableEq, Repr

namespace Operator

/-- Every operator. -/
def all : List Operator :=
  [.add, .sub, .mul, .div, .pow, .min, .max, .floor, .mod, .abs, .log, .sin, .cos, .tan, .asin,
   .acos, .atan, .lower, .greater, .equal, .ternary, .dot3, .dot4, .cross3, .length3,
   .normalize3, .selectX, .selectY, .selectZ, .selectW, .average, .averageXyz]

/-- The name of an operator (`ArithmeticOp.name`). -/
def name : Operator → String
  | .add => "add"
  | .sub => "sub"
  | .mul => "mul"
  | .div => "div"
  | .pow => "pow"
  | .min => "min"
  | .max => "max"
  | .floor => "floor"
  | .mod => "mod"
  | .abs => "abs"
  | .log => "log"
  | .sin => "sin"
  | .cos => "cos"
  | .tan => "tan"
  | .asin => "asin"
  | .acos => "acos"
  | .atan => "atan"
  | .lower => "lower"
  | .greater => "greater"
  | .equal => "equal"
  | .ternary => "ternary"
  | .dot3 => "dot3"
  | .dot4 => "dot4"
  | .cross3 => "cross3"
  | .length3 => "length3"
  | .normalize3 => "normalize3"
  | .selectX => "select_x"
  | .selectY => "select_y"
  | .selectZ => "select_z"
  | .selectW => "select_w"
  | .average => "average"
  | .averageXyz => "average_xyz"

/-- The operator of a name. -/
def ofName? (name : String) : Option Operator := all.find? fun op => op.name = name

theorem ofName?_name (op : Operator) : ofName? op.name = some op := by
  cases op <;> decide +kernel

/-- How many operands an operator takes (`arity`). -/
def arity : Operator → Nat
  | .floor | .abs | .log | .sin | .cos | .tan | .asin | .acos | .atan | .length3 | .normalize3
  | .selectX | .selectY | .selectZ | .selectW | .averageXyz => 1
  | .ternary => 3
  | _ => 2

/-- The operator that broadcasts one lane (`ArithmeticOp.select`); every index past the third means
the last lane. -/
def select : Nat → Operator
  | 0 => .selectX
  | 1 => .selectY
  | 2 => .selectZ
  | _ => .selectW

end Operator

end MaterialLowering
