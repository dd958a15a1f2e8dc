import MaterialLowering.Numeric.Single

/-!
# Lanes

Every constant is four numbers.
-/

namespace MaterialLowering

open Numeric (Single)

/-- Four numbers. -/
structure Lanes where
  x : Single
  y : Single
  z : Single
  w : Single
  deriving DecidableEq

namespace Lanes

/-- The same number four times. -/
def splat (v : Single) : Lanes := ⟨v, v, v, v⟩

def zero : Lanes := splat .zero

/-- Three numbers and a one. -/
def point (x y z : Single) : Lanes := ⟨x, y, z, .one⟩

def toList (a : Lanes) : List Single := [a.x, a.y, a.z, a.w]

def map (f : Single → Single) (a : Lanes) : Lanes := ⟨f a.x, f a.y, f a.z, f a.w⟩

def map2 (f : Single → Single → Single) (a b : Lanes) : Lanes :=
  ⟨f a.x b.x, f a.y b.y, f a.z b.z, f a.w b.w⟩

def map3 (f : Single → Single → Single → Single) (a b c : Lanes) : Lanes :=
  ⟨f a.x b.x c.x, f a.y b.y c.y, f a.z b.z c.z, f a.w b.w c.w⟩

/-- Every lane is numerically equal to its partner. -/
def eq (a b : Lanes) : Bool := a.x.eq b.x && a.y.eq b.y && a.z.eq b.z && a.w.eq b.w

end Lanes

end MaterialLowering
