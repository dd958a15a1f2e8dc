import MaterialLowering.Numeric.Binary

/-!
# Single precision

`Single` is a number of 32 bits. Its operations decode, work on exact units and round once, so
they are those of the format. `Double` is the number of 64 bits that decimal texts pass through.
-/

namespace MaterialLowering.Numeric

/-- A number of 32 bits, held as its bit pattern. -/
structure Single where
  bits : UInt32
  deriving DecidableEq, Hashable

/-- A number of 64 bits, held as its bit pattern. -/
structure Double where
  bits : UInt64
  deriving DecidableEq, Hashable

namespace Double

def toDatum (x : Double) : Datum := binary64.decode x.bits.toNat

def ofDatum (d : Datum) : Double := ⟨(binary64.encode d).toUInt64⟩

def ofNat (n : Nat) : Double := ofDatum (binary64.ofNat false n)

def neg (x : Double) : Double := ofDatum x.toDatum.neg

def mul (x y : Double) : Double := ofDatum (binary64.mul x.toDatum y.toDatum)

def div (x y : Double) : Double := ofDatum (binary64.div x.toDatum y.toDatum)

def isFinite (x : Double) : Bool :=
  match x.toDatum with
  | .finite _ _ => true
  | _ => false

def isZero (x : Double) : Bool := x.toDatum.eq (.finite false 0)

end Double

namespace Single

def toDatum (x : Single) : Datum := binary32.decode x.bits.toNat

def ofDatum (d : Datum) : Single := ⟨(binary32.encode d).toUInt32⟩

/-- The number nearest to `n / d`. -/
def ofRatio (n d : Nat) : Single := ofDatum (binary32.ofRatio n d)

/-- The number nearest to a whole number. -/
def ofNat (n : Nat) : Single := ofDatum (binary32.ofNat false n)

def zero : Single := ⟨0⟩

def one : Single := ofNat 1

def ofDouble (x : Double) : Single := ofDatum (binary64.convert binary32 x.toDatum)

def toDouble (x : Single) : Double := .ofDatum (binary32.convert binary64 x.toDatum)

def isNaN (x : Single) : Bool := x.toDatum = .nan

def isFinite (x : Single) : Bool :=
  match x.toDatum with
  | .finite _ _ => true
  | _ => false

def neg (x : Single) : Single := ofDatum x.toDatum.neg

def abs (x : Single) : Single := ofDatum x.toDatum.abs

def add (x y : Single) : Single := ofDatum (binary32.add x.toDatum y.toDatum)

def sub (x y : Single) : Single := ofDatum (binary32.add x.toDatum y.toDatum.neg)

def mul (x y : Single) : Single := ofDatum (binary32.mul x.toDatum y.toDatum)

def div (x y : Single) : Single := ofDatum (binary32.div x.toDatum y.toDatum)

/-- The remainder of the division truncated toward zero. -/
def rem (x y : Single) : Single := ofDatum (Format.rem x.toDatum y.toDatum)

def sqrt (x : Single) : Single := ofDatum (binary32.sqrt x.toDatum)

def floor (x : Single) : Single := ofDatum (binary32.floor x.toDatum)

/-- Strictly less, as numbers. -/
def lt (x y : Single) : Bool := x.toDatum.lt y.toDatum

/-- Numerically equal: `0` and `-0` are, and "not a number" equals nothing. -/
def eq (x y : Single) : Bool := x.toDatum.eq y.toDatum

/-- The lesser number; "not a number" gives way to the other operand. -/
def min (x y : Single) : Single :=
  if x.isNaN then y else if y.isNaN then x else if y.lt x then y else x

/-- The greater number; "not a number" gives way to the other operand. -/
def max (x y : Single) : Single :=
  if x.isNaN then y else if y.isNaN then x else if x.lt y then y else x

/-- The number moved into `[low, high]`; "not a number" stays. -/
def clamp (x low high : Single) : Single :=
  let raised := if x.lt low then low else x
  if high.lt raised then high else raised

instance : Inhabited Single := ⟨zero⟩
instance : Add Single := ⟨add⟩
instance : Sub Single := ⟨sub⟩
instance : Mul Single := ⟨mul⟩
instance : Div Single := ⟨div⟩
instance : Neg Single := ⟨neg⟩

end Single

end MaterialLowering.Numeric
