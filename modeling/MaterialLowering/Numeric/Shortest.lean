import MaterialLowering.Numeric.Single

/-!
# Shortest decimal digits

The decimal written for a number is the coarsest one that reads back as that number. `shortest`
goes through the grids `10 ^ t` from coarse to fine and stops at the first one with a multiple
among the reals that round to the number; of two such multiples it takes the nearer.
`DecimalLayout` then says where the digits and the point go.
-/

namespace MaterialLowering.Numeric

/-- The reals that round to a finite positive number, in quarters of a unit. The ends belong to
the interval when the significand is even. -/
structure Interval where
  low : Nat
  high : Nat
  closed : Bool

namespace Format

/-- The interval of `units`. Below a power of two the numbers lie twice as close. -/
def interval (f : Format) (units : Nat) : Interval :=
  let drop := f.excess units
  let significand := units / power drop
  let below := (if significand = power (f.precision - 1) ∧ drop ≠ 0 then 1 else 2) * power drop
  { low := 4 * units - below
    high := 4 * units + 2 * power drop
    closed := significand % 2 = 0 }

end Format

/-- A positive decimal number: `digits * 10 ^ exponent`. -/
structure Decimal where
  digits : Nat
  exponent : Int
  deriving DecidableEq, Repr

/-- Where an exact tie between two decimals goes. -/
inductive Tie where
  | even
  | up
  deriving DecidableEq, Repr

/-- The multiple of `10 ^ t` in the interval of `units` that is nearest to `units`, if any. -/
def onGrid (f : Format) (tie : Tie) (units : Nat) (t : Int) : Option Nat :=
  let fine := Nat.pow 10 (-t).toNat
  let step := 4 * f.one * Nat.pow 10 t.toNat
  let target := 4 * units * fine
  let interval := f.interval units
  let inside := fun multiple =>
    if interval.closed then
      interval.low * fine ≤ multiple * step ∧ multiple * step ≤ interval.high * fine
    else interval.low * fine < multiple * step ∧ multiple * step < interval.high * fine
  let lower := target / step
  let twice := 2 * (target % step)
  let upward := step < twice ∨ (twice = step ∧ (tie = .up ∨ lower % 2 = 1))
  if inside lower ∧ (¬ inside (lower + 1) ∨ ¬ upward) then some lower
  else if inside (lower + 1) then some (lower + 1)
  else none

/-- The first grid, from `10 ^ t` down over `fuel` grids, that meets the interval of `units`. -/
def searchGrid (f : Format) (tie : Tie) (units : Nat) : Nat → Int → Decimal
  | 0, t => ⟨0, t⟩
  | fuel + 1, t =>
    match onGrid f tie units t with
    | some digits => ⟨digits, t⟩
    | none => searchGrid f tie units fuel (t - 1)

/-- The shortest decimal that reads back as `units`. A decimal exponent is less than a third of
the binary one, which bounds the grids on either side of one. -/
def shortest (f : Format) (tie : Tie) (units : Nat) : Decimal :=
  let top := f.largest.log2 - f.one.log2
  searchGrid f tie units (top + f.one.log2) (top / 3)

/-- How a decimal is laid out: positional while the exponent of the leading digit is at least
`positionalFrom` and below `positionalBelow`, with an exponent otherwise. -/
structure DecimalLayout where
  tie : Tie
  positionalFrom : Int
  positionalBelow : Int
  /-- Written before an exponent that is not negative. -/
  exponentSign : String

namespace DecimalLayout

private def zeros (n : Nat) : String := String.ofList (List.replicate n '0')

/-- Digits with the point after the leading `whole` of them, or zeros in the missing places. -/
private def positional (digits : List Char) (leading : Int) : String :=
  if leading < 0 then
    "0." ++ zeros (-leading - 1).toNat ++ String.ofList digits
  else
    let whole := leading.toNat + 1
    let fraction := digits.drop whole
    String.ofList (digits.take whole) ++ zeros (whole - digits.length) ++ "." ++
      (if fraction.isEmpty then "0" else String.ofList fraction)

private def scientific (layout : DecimalLayout) (digits : List Char) (leading : Int) : String :=
  let fraction := digits.drop 1
  String.ofList (digits.take 1) ++
    (if fraction.isEmpty then "" else "." ++ String.ofList fraction) ++ "e" ++
    (if leading < 0 then "-" else layout.exponentSign) ++ toString leading.natAbs

/-- The text of a positive decimal. -/
def decimal (layout : DecimalLayout) (value : Decimal) : String :=
  let digits := (toString value.digits).toList
  let leading := value.exponent + digits.length - 1
  if layout.positionalFrom ≤ leading ∧ leading < layout.positionalBelow then
    positional digits leading
  else layout.scientific digits leading

/-- The text of a finite number. -/
def finite (layout : DecimalLayout) (f : Format) (negative : Bool) (units : Nat) : String :=
  (if negative then "-" else "") ++
    if units = 0 then "0.0" else layout.decimal (shortest f layout.tie units)

end DecimalLayout

end MaterialLowering.Numeric
