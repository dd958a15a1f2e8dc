/-!
# Binary floating-point formats

A finite number of a binary interchange format is a whole number of *units*, the unit being the
least positive number of the format. Exact results are quotients `n / d` of natural numbers of
units, and every operation rounds such a quotient once, to nearest with halves to even.

Main definitions:

* `Format`: precision and exponent width; `Format.round` rounds a quotient to the format.
* `Datum`: what a bit pattern denotes; `Format.decode` and `Format.encode` go between the two.
* `Format.add`, `mul`, `div`, `sqrt`, `rem`, `floor`: the rounded operations on data.
-/

namespace MaterialLowering.Numeric

/-- A binary interchange format: significant bits, and bits of the exponent field. -/
structure Format where
  precision : Nat
  exponentBits : Nat
  deriving DecidableEq, Repr

/-- Numbers of 32 bits. -/
def binary32 : Format := ⟨24, 8⟩

/-- Numbers of 64 bits. -/
def binary64 : Format := ⟨53, 11⟩

/-- What a bit pattern denotes. The sign of a zero is kept. -/
inductive Datum where
  | nan
  | infinite (negative : Bool)
  | finite (negative : Bool) (units : Nat)
  deriving DecidableEq, Repr

/-- `2 ^ n`. -/
def power (n : Nat) : Nat := Nat.pow 2 n

/-- The integer nearest to `n / d`, a half going to the even neighbour. -/
def nearest (n d : Nat) : Nat :=
  let quotient := n / d
  let twice := 2 * (n % d)
  if twice < d ∨ (twice = d ∧ quotient % 2 = 0) then quotient else quotient + 1

/-- The greatest integer whose square is at most `n`, for `n < 4 ^ fuel`. -/
def rootBelow : Nat → Nat → Nat
  | 0, _ => 0
  | fuel + 1, n =>
    let root := 2 * rootBelow fuel (n / 4)
    if (root + 1) * (root + 1) ≤ n then root + 1 else root

namespace Format

/-- Units in one. -/
def one (f : Format) : Nat := power (power (f.exponentBits - 1) + f.precision - 3)

/-- Units in the greatest finite number. -/
def largest (f : Format) : Nat := (power f.precision - 1) * power (power f.exponentBits - 3)

/-- The bits that follow the sign bit in an infinity. -/
def infinityBits (f : Format) : Nat := (power f.exponentBits - 1) * power (f.precision - 1)

/-- The value of the sign bit. -/
def signBit (f : Format) : Nat := power (f.exponentBits + f.precision - 1)

/-- How many binary places are dropped from `units` to leave `precision` bits. -/
def excess (f : Format) (units : Nat) : Nat := units.log2 + 1 - f.precision

/-- The units of the number nearest to `n / d`, as if the exponent had no upper bound. -/
def round (f : Format) (n d : Nat) : Nat :=
  let drop := f.excess (n / d)
  nearest n (d * power drop) * power drop

/-- The datum nearest to `n / d` units: past the greatest finite number it is infinite. -/
def datum (f : Format) (negative : Bool) (n d : Nat) : Datum :=
  let units := f.round n d
  if units ≤ f.largest then .finite negative units else .infinite negative

/-- The datum of a bit pattern. -/
def decode (f : Format) (bits : Nat) : Datum :=
  let negative := f.signBit ≤ bits
  let magnitude := bits % f.signBit
  let field := magnitude / power (f.precision - 1)
  let fraction := magnitude % power (f.precision - 1)
  if magnitude = f.infinityBits then .infinite negative
  else if f.infinityBits < magnitude then .nan
  else if field = 0 then .finite negative fraction
  else .finite negative ((power (f.precision - 1) + fraction) * power (field - 1))

/-- The bits of a magnitude. A number of `precision` bits with `drop` places behind them has the
exponent field `drop + 1`, and its leading bit is what adds that one. -/
def magnitudeBits (f : Format) (units : Nat) : Nat :=
  let drop := f.excess units
  drop * power (f.precision - 1) + units / power drop

/-- The bit pattern of a datum; the one kept for "not a number" is the positive quiet one. -/
def encode (f : Format) : Datum → Nat
  | .nan => f.infinityBits + power (f.precision - 2)
  | .infinite negative => f.infinityBits + if negative then f.signBit else 0
  | .finite negative units => f.magnitudeBits units + if negative then f.signBit else 0

end Format

/-! ## Operations that need no rounding -/

namespace Datum

/-- The opposite number. -/
def neg : Datum → Datum
  | .nan => .nan
  | .infinite negative => .infinite !negative
  | .finite negative units => .finite (!negative) units

/-- The absolute value. -/
def abs : Datum → Datum
  | .nan => .nan
  | .infinite _ => .infinite false
  | .finite _ units => .finite false units

/-- The finite number as an integer of units. -/
def signed (negative : Bool) (units : Nat) : Int :=
  if negative then -(units : Int) else units

/-- Strictly less. Nothing compares with "not a number". -/
def lt : Datum → Datum → Bool
  | .nan, _ | _, .nan => false
  | .infinite s, .infinite t => s && !t
  | .infinite s, .finite _ _ => s
  | .finite _ _, .infinite t => !t
  | .finite s m, .finite t n => signed s m < signed t n

/-- Numerically equal: the two zeros are, and "not a number" is not equal to itself. -/
def eq : Datum → Datum → Bool
  | .nan, _ | _, .nan => false
  | .infinite s, .infinite t => s == t
  | .infinite _, .finite _ _ | .finite _ _, .infinite _ => false
  | .finite s m, .finite t n => signed s m == signed t n

end Datum

/-! ## Rounded operations -/

namespace Format

/-- The sum. A sum of zero is negative only when both operands are. -/
def add (f : Format) : Datum → Datum → Datum
  | .nan, _ | _, .nan => .nan
  | .infinite s, .infinite t => if s = t then .infinite s else .nan
  | .infinite s, .finite _ _ => .infinite s
  | .finite _ _, .infinite t => .infinite t
  | .finite s m, .finite t n =>
    let total := Datum.signed s m + Datum.signed t n
    if total = 0 then .finite (s && t) 0 else f.datum (total < 0) total.natAbs 1

/-- The product. -/
def mul (f : Format) : Datum → Datum → Datum
  | .nan, _ | _, .nan => .nan
  | .infinite s, .infinite t => .infinite (s != t)
  | .infinite s, .finite t n | .finite t n, .infinite s =>
    if n = 0 then .nan else .infinite (s != t)
  | .finite s m, .finite t n => f.datum (s != t) (m * n) f.one

/-- The quotient. -/
def div (f : Format) : Datum → Datum → Datum
  | .nan, _ | _, .nan => .nan
  | .infinite _, .infinite _ => .nan
  | .infinite s, .finite t _ => .infinite (s != t)
  | .finite s _, .infinite t => .finite (s != t) 0
  | .finite s m, .finite t n =>
    if n = 0 then if m = 0 then .nan else .infinite (s != t)
    else f.datum (s != t) (m * f.one) n

/-- The remainder of the division truncated toward zero: it has the sign of the dividend. -/
def rem : Datum → Datum → Datum
  | .nan, _ | _, .nan | .infinite _, _ => .nan
  | .finite s m, .infinite _ => .finite s m
  | .finite s m, .finite _ n => if n = 0 then .nan else .finite s (m % n)

/-- The square root. The integer root of the scaled number keeps well over `precision` bits, and
one more bit records that it was not exact. -/
def sqrt (f : Format) : Datum → Datum
  | .nan => .nan
  | .infinite negative => if negative then .nan else .infinite false
  | .finite negative units =>
    if units = 0 then .finite negative 0
    else if negative then .nan
    else
      let square := units * f.one
      let root := rootBelow (square.log2 / 2 + 1) square
      f.datum false (2 * root + if root * root = square then 0 else 1) 2

/-- The greatest whole number that is not greater; a zero keeps its sign. -/
def floor (f : Format) : Datum → Datum
  | .nan => .nan
  | .infinite negative => .infinite negative
  | .finite negative units =>
    let whole := units / f.one
    let whole := if negative ∧ units % f.one ≠ 0 then whole + 1 else whole
    f.datum negative (whole * f.one) 1

/-- A whole number. -/
def ofNat (f : Format) (negative : Bool) (n : Nat) : Datum := f.datum negative (n * f.one) 1

/-- The number nearest to `n / d`. -/
def ofRatio (f : Format) (n d : Nat) : Datum := f.datum false (n * f.one) d

/-- The number of `target` nearest to a number of `f`. -/
def convert (f target : Format) : Datum → Datum
  | .nan => .nan
  | .infinite negative => .infinite negative
  | .finite negative units => target.datum negative (units * target.one) f.one

end Format

end MaterialLowering.Numeric
