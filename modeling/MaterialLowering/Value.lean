import MaterialLowering.Literal

/-!
# Values

What one output of a host node comes to: lanes that can still be computed with, a node or an image
that the native graph holds, or nothing.

Here and in what follows a name in brackets is that of the type or function that a definition
stands for.
-/

namespace MaterialLowering

open Numeric (Single)

/-- A node of the native graph, by its place in the order of creation (`NativeNodeHandle`). Places
are numbers of 32 bits: that a graph has fewer than `2 ^ 32` nodes is assumed and not checked. -/
structure NodeHandle where
  index : Nat
  deriving DecidableEq, Repr

/-- An image of the native graph, by its place in the list of images (`NativeImageHandle`). Again
there are assumed to be fewer than `2 ^ 32`. -/
structure ImageHandle where
  index : Nat
  deriving DecidableEq, Repr

/-- A handle as messages show it. -/
def NodeHandle.shown (handle : NodeHandle) : String :=
  "NativeNodeHandle(" ++ toString handle.index ++ ")"

/-- What an output comes to. -/
inductive Value where
  | constant (lanes : Lanes)
  | node (handle : NodeHandle)
  | image (handle : ImageHandle)
  /-- No link and no default. -/
  | unset
  deriving DecidableEq

namespace Value

def scalar (v : Single) : Value := .constant (.splat v)

def vec3 (x y z : Single) : Value := .constant (.point x y z)

def vec4 (x y z w : Single) : Value := .constant ⟨x, y, z, w⟩

/-- The constant of a literal (`Value.from`). -/
def ofLiteral (literal : Literal) : Value := .constant literal.toLanes

/-- The lanes, if there are any. -/
def ofLanes? : Option Lanes → Value
  | some lanes => .constant lanes
  | none => .unset

def asConstant : Value → Option Lanes
  | .constant lanes => some lanes
  | _ => none

def asNode : Value → Option NodeHandle
  | .node handle => some handle
  | _ => none

def isConstant (value : Value) : Bool := value.asConstant.isSome

def isNode (value : Value) : Bool := value.asNode.isSome

def isImage : Value → Bool
  | .image _ => true
  | _ => false

def isUnset : Value → Bool
  | .unset => true
  | _ => false

/-- A constant all of whose lanes equal `v` (`Value.is_splat`). -/
def isSplat (value : Value) (v : Single) : Bool :=
  match value with
  | .constant lanes => lanes.eq (.splat v)
  | _ => false

/-- The value, or `other` in place of nothing (`Value.or`). -/
def or : Value → Value → Value
  | .unset, other => other
  | value, _ => value

/-- Equal, constants lane by lane as numbers. -/
def eq : Value → Value → Bool
  | .constant a, .constant b => a.eq b
  | .node a, .node b => a = b
  | .image a, .image b => a = b
  | .unset, .unset => true
  | _, _ => false

end Value

end MaterialLowering
