import MaterialLowering.Json.Basic

/-!
# Numerals of a JSON text

An integer numeral of 64 bits is read exactly. Any other numeral is a significand, the leading
digits that fit in 64 bits, and a power of ten: the significand is rounded to double precision
and then multiplied or divided by the power, rounding again. A numeral past the largest double is
a fault of its own: the text is well formed, but the numeral denotes nothing.
-/

namespace MaterialLowering.Json

open Numeric (Double)

/-- What a numeral denotes. -/
inductive Numeral where
  | number (n : Json.Number)
  | outOfRange

/-- The largest integer of 64 bits. -/
def naturalLimit : Nat := UInt64.size - 1

/-- The largest power of ten that is scaled by in one step. -/
def scaleLimit : Nat := 308

/-- Divides by ever more powers of ten. A quotient of zero ends it, which no more than three full
steps from a significand of 64 bits give. -/
def scaleDown : Nat → Double → Nat → Double
  | 0, x, _ => x
  | fuel + 1, x, power =>
    if power ≤ scaleLimit then x.div (.ofNat (Nat.pow 10 power))
    else if x.isZero then x
    else scaleDown fuel (x.div (.ofNat (Nat.pow 10 scaleLimit))) (power - scaleLimit)

/-- `significand * 10 ^ power`, with its sign. -/
def scaled (negative : Bool) (significand : Nat) (power : Int) : Numeral :=
  let start := Double.ofNat significand
  let finish := fun (x : Double) => Numeral.number (.double (if negative then x.neg else x))
  if power < 0 then finish (scaleDown 4 start power.natAbs)
  else if power ≤ scaleLimit then
    let product := start.mul (.ofNat (Nat.pow 10 power.toNat))
    if product.isFinite then finish product else .outOfRange
  else if significand = 0 then finish start
  else .outOfRange

/-- An integer numeral of at most 64 bits. A minus sign before zero makes a negative zero. -/
def integral (negative : Bool) (magnitude : Nat) : Json.Number :=
  if ¬ negative then .natural magnitude
  else if 0 < magnitude ∧ magnitude ≤ UInt64.size / 2 then .negative magnitude
  else .double (Double.ofNat magnitude).neg

/-- The value of a decimal digit. -/
def digit? (c : Char) : Option Nat := if c.isDigit then some (c.toNat - '0'.toNat) else none

/-- Digits taken into the significand until one would carry it past 64 bits. Gives the
significand, how many digits went into it, and the rest of the text. -/
def takeDigits : Nat → Nat → List Char → Nat × Nat × List Char
  | significand, count, [] => (significand, count, [])
  | significand, count, c :: rest =>
    match digit? c with
    | some d =>
      if naturalLimit < significand * 10 + d then (significand, count, c :: rest)
      else takeDigits (significand * 10 + d) (count + 1) rest
    | none => (significand, count, c :: rest)

/-- Digits that are passed over: how many, and the rest of the text. -/
def skipDigits : List Char → Nat × List Char
  | [] => (0, [])
  | c :: rest =>
    if c.isDigit then let (n, after) := skipDigits rest; (n + 1, after) else (0, c :: rest)

/-- The value of a run of digits, and the rest of the text. -/
def allDigits : Nat → List Char → Nat × List Char
  | value, [] => (value, [])
  | value, c :: rest =>
    match digit? c with
    | some d => allDigits (value * 10 + d) rest
    | none => (value, c :: rest)

/-- The greatest exponent that is counted. A greater one makes zero of a small numeral and puts a
large one out of range. -/
def exponentLimit : Nat := UInt32.size / 2 - 1

/-- From the digits of the exponent on. -/
def exponentDigits (negative : Bool) (significand : Nat) (power : Int) (down : Bool) :
    List Char → Except Fault (Numeral × List Char)
  | [] => .error .truncated
  | c :: rest =>
    if ¬ c.isDigit then .error .malformed
    else
      let (exponent, after) := allDigits 0 (c :: rest)
      if exponent ≤ exponentLimit then
        let power := if down then power - exponent else power + exponent
        .ok (scaled negative significand power, after)
      else if significand = 0 ∨ down then .ok (scaled negative 0 0, after)
      else .ok (.outOfRange, after)

/-- From behind the letter of the exponent on. -/
def exponentPart (negative : Bool) (significand : Nat) (power : Int) :
    List Char → Except Fault (Numeral × List Char)
  | '+' :: rest => exponentDigits negative significand power false rest
  | '-' :: rest => exponentDigits negative significand power true rest
  | rest => exponentDigits negative significand power false rest

/-- The exponent, if one comes here, and the value. -/
def scaledPart (negative : Bool) (significand : Nat) (power : Int) :
    List Char → Except Fault (Numeral × List Char)
  | 'e' :: rest | 'E' :: rest => exponentPart negative significand power rest
  | rest => .ok (scaled negative significand power, rest)

/-- From behind the point on: at least one digit, of which those that no longer fit in the
significand are passed over. -/
def fractionPart (negative : Bool) (significand : Nat) (power : Int) (text : List Char) :
    Except Fault (Numeral × List Char) :=
  let (significand, taken, rest) := takeDigits significand 0 text
  let (dropped, rest) := skipDigits rest
  if taken + dropped = 0 then .error (if rest.isEmpty then .truncated else .malformed)
  else scaledPart negative significand (power - taken) rest

/-- From behind the digits of the whole part on. -/
def afterWhole (negative : Bool) (significand dropped : Nat) :
    List Char → Except Fault (Numeral × List Char)
  | '.' :: rest => fractionPart negative significand dropped rest
  | rest =>
    match rest with
    | 'e' :: _ | 'E' :: _ => scaledPart negative significand dropped rest
    | _ =>
      if dropped = 0 then .ok (.number (integral negative significand), rest)
      else .ok (scaled negative significand dropped, rest)

/-- A numeral from behind its sign on. A leading zero stands alone. -/
def numeral (negative : Bool) : List Char → Except Fault (Numeral × List Char)
  | [] => .error .truncated
  | '0' :: rest =>
    match rest with
    | c :: _ => if c.isDigit then .error .malformed else afterWhole negative 0 0 rest
    | [] => afterWhole negative 0 0 []
  | c :: rest =>
    if ¬ c.isDigit then .error .malformed
    else
      let (significand, _, rest) := takeDigits 0 0 (c :: rest)
      let (dropped, rest) := skipDigits rest
      afterWhole negative significand dropped rest

end MaterialLowering.Json
