import MaterialLowering.Folding
import MaterialLowering.Native.Recording

/-!
# Emission of arithmetic

An emission is a program that creates native nodes. Arithmetic on values is an emission: operands
that are all constants are folded and nothing is created, any other operands are wired to a new
arithmetic node.

Main results:

* `Emission.run_bind` — running one emission after another runs them in turn.
-/

namespace MaterialLowering

open Numeric (Single)

/-- A program that creates native nodes (`Folder`). -/
inductive Emission (α : Type) where
  | done (result : α)
  | create (kind : NativeKind) (params : List (String × Value)) (next : NodeHandle → Emission α)

namespace Emission

variable {α β : Type}

def bind : Emission α → (α → Emission β) → Emission β
  | .done result, f => f result
  | .create kind params next, f => .create kind params fun handle => bind (next handle) f

instance : Monad Emission where
  pure := .done
  bind := bind

/-- Creates the nodes in a recording. -/
def run : Emission α → Recording → α × Recording
  | .done result, r => (result, r)
  | .create kind params next, r =>
    let (handle, r) := r.create kind params
    run (next handle) r

theorem run_bind (e : Emission α) (f : α → Emission β) (r : Recording) :
    (e >>= f).run r = (f (e.run r).1).run (e.run r).2 := by
  show (e.bind f).run r = _
  induction e generalizing r with
  | done result => rfl
  | create kind params next ih => exact ih _ _

/-- A new node with these parameters (`create`). -/
def node (kind : NativeKind) (params : List (String × Value)) : Emission Value :=
  .create kind params fun handle => .done (.node handle)

/-! ## Operators -/

/-- An arithmetic node (`Folder.emit`). An operand that is nothing counts as zero. -/
def arithmetic (op : Operator) (operands : List Value) : Emission Value :=
  node (.arithmetic op)
    (operands.mapIdx fun index operand =>
      ("color" ++ toString index, operand.or (.constant .zero)))

/-- An operator on one operand, which is folded if it is a constant (`Folder.unary`). -/
def unary (op : Operator) : Value → Emission Value
  | .constant a => pure (.constant (Folding.unary op a))
  | a => arithmetic op [a]

/-- An operator on two operands, folded if both are constants (`Folder.binary`). -/
def binary (op : Operator) : Value → Value → Emission Value
  | .constant a, .constant b => pure (.constant (Folding.binary op a b))
  | a, b => arithmetic op [a, b]

/-- The choice between two operands, folded if all three are constants (`Folder.ternary`). -/
def ternary : Value → Value → Value → Emission Value
  | .constant choice, .constant a, .constant b => pure (.constant (Folding.ternary choice a b))
  | choice, a, b => arithmetic .ternary [choice, a, b]

/-- An operator with as many of the two operands as it needs (`Folder.apply`). -/
def apply (op : Operator) (a b : Value) : Emission Value :=
  if op.arity = 1 then unary op a else binary op a b

def add (a b : Value) : Emission Value := binary .add a b

def sub (a b : Value) : Emission Value := binary .sub a b

def mul (a b : Value) : Emission Value := binary .mul a b

def div (a b : Value) : Emission Value := binary .div a b

def min (a b : Value) : Emission Value := binary .min a b

def max (a b : Value) : Emission Value := binary .max a b

def floor (a : Value) : Emission Value := unary .floor a

/-! ## Composite operations -/

def zero : Value := .scalar .zero

def one : Value := .scalar .one

def half : Value := .scalar Folding.half

/-- Zero minus the value (`Folder.neg`). -/
def neg (a : Value) : Emission Value := sub zero a

/-- `a - floor a` (`Folder.fract`). -/
def fract (a : Value) : Emission Value := do
  let floor ← floor a
  sub a floor

/-- Up to the next whole number (`Folder.ceil`). -/
def ceil (a : Value) : Emission Value := do
  let floor ← floor a
  let isWhole ← binary .equal a floor
  let next ← add floor one
  ternary isWhole a next

/-- To the nearest whole number, a half goes up (`Folder.round`). -/
def round (a : Value) : Emission Value := do
  let floor ← floor a
  let fract ← fract a
  let roundsDown ← binary .lower fract half
  let next ← add floor one
  ternary roundsDown floor next

/-- The value moved into `[0, 1]` (`Folder.clamp`). -/
def clamp (a : Value) : Emission Value := do
  let upper ← min a one
  max upper zero

/-- One lane of a value, in all lanes (`Folder.select`). -/
def select (a : Value) (lane : Nat) : Emission Value := unary (.select lane) a

/-- `(x, y, z, 1)` of the first lane of `x`, the second of `y` and the third of `z`
(`Folder.combine`). -/
def combine (x y z : Value) : Emission Value := do
  let x ← mul x (.vec4 .one .zero .zero .zero)
  let y ← mul y (.vec4 .zero .one .zero .zero)
  let z ← mul z (.vec4 .zero .zero .one .zero)
  let xy ← add x y
  let xyz ← add xy z
  add xyz (.vec4 .zero .zero .zero .one)

/-- One color channel, weighted by its part in luminance. -/
def weighted (color : Value) (lane : Nat) (weight : Single) : Emission Value := do
  let channel ← select color lane
  mul channel (.vec4 weight weight weight .zero)

/-- The weighted channels from `lane` on, added to a sum. -/
def luminance (color : Value) : Value → Nat → List Single → Emission Value
  | sum, _, [] => pure sum
  | sum, lane, weight :: rest => do
    let channel ← weighted color lane weight
    let sum ← if sum.isUnset then pure channel else add sum channel
    luminance color sum (lane + 1) rest

/-- Luminance in the color lanes (`Folder.to_bw`); the last lane is kept. -/
def toBw (color : Value) : Emission Value := do
  let gray ← luminance color .unset 0 Folding.luma
  let alpha ← select color 3
  let alpha ← mul alpha (.vec4 .zero .zero .zero .one)
  add gray alpha

/-- The value between `a` and `b` at `weight` (`Folder.blend`). A constant weight of exactly zero or
one is one of the two, and nothing is created for it. -/
def blend (weight a b : Value) : Emission Value :=
  if weight.isSplat .zero then pure a
  else if weight.isSplat .one then pure b
  else
    match weight, a, b with
    | .constant weight, .constant a, .constant b => pure (.constant (Folding.blend weight a b))
    | weight, a, b => node .blendValue [("weight", weight), ("color0", a), ("color1", b)]

end Emission

end MaterialLowering
