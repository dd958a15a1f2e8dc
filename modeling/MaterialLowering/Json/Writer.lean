import MaterialLowering.Json.Basic
import MaterialLowering.Numeric.Shortest

/-!
# Writing JSON texts

Two layouts of one tree: `compact` has no white space, `pretty` puts every item and member on a
line of its own, two blanks deeper than its container. Numbers are written with the fewest digits
that read back.
-/

namespace MaterialLowering.Json

open Numeric (Single Double Datum DecimalLayout binary32 binary64)

/-- Single-precision numbers are positional from a millionth up to below ten million million. -/
def singleLayout : DecimalLayout :=
  { tie := .even, positionalFrom := -6, positionalBelow := 13, exponentSign := "+" }

/-- Double-precision numbers are positional from a hundred-thousandth up to below `10 ^ 16`. -/
def doubleLayout : DecimalLayout :=
  { tie := .even, positionalFrom := -5, positionalBelow := 16, exponentSign := "+" }

/-- The text of a number; a number that is not finite has none and is written as `null`. -/
def Number.text : Json.Number → String
  | .natural n => toString n
  | .negative n => "-" ++ toString n
  | .double x =>
    match x.toDatum with
    | .finite minus units => doubleLayout.finite binary64 minus units
    | _ => "null"
  | .single x =>
    match x.toDatum with
    | .finite minus units => singleLayout.finite binary32 minus units
    | _ => "null"

/-- The digits of escapes. -/
def hexDigits : List Char := "0123456789abcdef".toList

/-- A character inside a string. -/
def escaped (c : Char) : List Char :=
  if c = '"' then ['\\', '"']
  else if c = '\\' then ['\\', '\\']
  else if c = '\x08' then ['\\', 'b']
  else if c = '\t' then ['\\', 't']
  else if c = '\n' then ['\\', 'n']
  else if c = '\x0c' then ['\\', 'f']
  else if c = '\r' then ['\\', 'r']
  else if c.toNat < 0x20 then
    ['\\', 'u', '0', '0', hexDigits.getD (c.toNat / 16) '0', hexDigits.getD (c.toNat % 16) '0']
  else [c]

/-- A string in its quotes. -/
def quote (text : String) : String := "\"" ++ String.ofList (text.toList.flatMap escaped) ++ "\""

mutual

/-- The text of a tree without white space. -/
def compact : Json → String
  | .null | .broken _ _ | .nameless _ _ => "null"
  | .bool flag => if flag then "true" else "false"
  | .number n => n.text
  | .string text => quote text
  | .array items => "[" ++ compactItems items ++ "]"
  | .object members => "\x7b" ++ compactMembers members ++ "\x7d"

/-- The items of an array, with commas between them. -/
def compactItems : List Json → String
  | [] => ""
  | [item] => item.compact
  | item :: rest => item.compact ++ "," ++ compactItems rest

/-- The members of an object, with commas between them. -/
def compactMembers : List (String × Json) → String
  | [] => ""
  | [(name, value)] => quote name ++ ":" ++ value.compact
  | (name, value) :: rest => quote name ++ ":" ++ value.compact ++ "," ++ compactMembers rest

end

/-- The start of a line inside `depth` containers. -/
def newLine (depth : Nat) : String := "\n" ++ String.ofList (List.replicate (2 * depth) ' ')

mutual

/-- The text of a tree inside `depth` containers, one item or member on a line. -/
def prettyAt (depth : Nat) : Json → String
  | .null | .broken _ _ | .nameless _ _ => "null"
  | .bool flag => if flag then "true" else "false"
  | .number n => n.text
  | .string text => quote text
  | .array [] => "[]"
  | .array (item :: rest) => "[" ++ prettyItems (depth + 1) (item :: rest) ++ newLine depth ++ "]"
  | .object [] => "\x7b\x7d"
  | .object (member :: rest) =>
    "\x7b" ++ prettyMembers (depth + 1) (member :: rest) ++ newLine depth ++ "\x7d"

/-- Items on lines of their own. -/
def prettyItems (depth : Nat) : List Json → String
  | [] => ""
  | [item] => newLine depth ++ prettyAt depth item
  | item :: rest => newLine depth ++ prettyAt depth item ++ "," ++ prettyItems depth rest

/-- Members on lines of their own. -/
def prettyMembers (depth : Nat) : List (String × Json) → String
  | [] => ""
  | [(name, value)] => newLine depth ++ quote name ++ ": " ++ prettyAt depth value
  | (name, value) :: rest =>
    newLine depth ++ quote name ++ ": " ++ prettyAt depth value ++ "," ++ prettyMembers depth rest

end

/-- The text of a tree, one item or member on a line. -/
def pretty (tree : Json) : String := prettyAt 0 tree

end MaterialLowering.Json
