import MaterialLowering.Numeric.Single

/-!
# JSON trees

`Json` is the tree of a JSON text, members in the order of the text. A text that stops making
sense still has a tree: the place where it does is a `broken` leaf, or a `nameless` one where a
member is due. A reader that walks the tree in order therefore meets a wrong shape before a fault
that comes later in the text, and the fault before a wrong shape behind it.
-/

namespace MaterialLowering

open Numeric (Single Double)

/-- Why a text is no JSON text: it ended too early, or it is wrong where it stands. -/
inductive Fault where
  | truncated
  | malformed
  deriving DecidableEq, Repr

/-- A JSON number: an integer of 64 bits, or a number read or written in floating point. -/
inductive Json.Number where
  | natural (n : Nat)
  /-- The integer `-n`, for a positive `n`. -/
  | negative (n : Nat)
  | double (x : Double)
  | single (x : Single)
  deriving DecidableEq

/-- The number in single precision, rounded once. -/
def Json.Number.toSingle : Json.Number → Single
  | .natural n => .ofDatum (Numeric.binary32.ofNat false n)
  | .negative n => .ofDatum (Numeric.binary32.ofNat true n)
  | .double x => .ofDouble x
  | .single x => x

/-- The number in double precision. -/
def Json.Number.toDouble : Json.Number → Double
  | .natural n => .ofDatum (Numeric.binary64.ofNat false n)
  | .negative n => .ofDatum (Numeric.binary64.ofNat true n)
  | .double x => x
  | .single x => x.toDouble

/-- The tree of a JSON text. -/
inductive Json where
  | null
  | bool (flag : Bool)
  | number (n : Json.Number)
  | string (text : String)
  | array (items : List Json)
  | object (members : List (String × Json))
  /-- A place that cannot be read. `skipped` is the fault that even a reader meets who only looks
  for the end of the value; without one the text goes on behind it. -/
  | broken (fault : Fault) (skipped : Option Fault)
  /-- The place of a member whose name cannot be read. `skipped` is the fault that even a reader
  meets who only looks for the end of the member. -/
  | nameless (fault : Fault) (skipped : Option Fault)

namespace Json

/-- A leaf behind which nothing could be read. -/
def stop (fault : Fault) : Json := .broken fault (some fault)

/-- Containers may be nested this deep. -/
def nestingLimit : Nat := 127

mutual

/-- The first fault of a value read as a whole inside `depth` containers. -/
def faultWithin (depth : Nat) : Json → Option Fault
  | .null | .bool _ | .number _ | .string _ => none
  | .broken fault _ | .nameless fault _ => some fault
  | .array items => if nestingLimit ≤ depth then some .malformed else faultInItems (depth + 1) items
  | .object members =>
    if nestingLimit ≤ depth then some .malformed else faultInMembers (depth + 1) members

/-- The first fault among the items of an array. -/
def faultInItems (depth : Nat) : List Json → Option Fault
  | [] => none
  | item :: rest => (faultWithin depth item).or (faultInItems depth rest)

/-- The first fault among the members of an object. -/
def faultInMembers (depth : Nat) : List (String × Json) → Option Fault
  | [] => none
  | (_, value) :: rest => (faultWithin depth value).or (faultInMembers depth rest)

end

mutual

/-- The first fault met while looking for the end of a value. -/
def faultSkipping : Json → Option Fault
  | .null | .bool _ | .number _ | .string _ => none
  | .broken _ skipped | .nameless _ skipped => skipped
  | .array items => faultSkippingItems items
  | .object members => faultSkippingMembers members

/-- The first fault met while skipping the items of an array. -/
def faultSkippingItems : List Json → Option Fault
  | [] => none
  | item :: rest => (faultSkipping item).or (faultSkippingItems rest)

/-- The first fault met while skipping the members of an object. -/
def faultSkippingMembers : List (String × Json) → Option Fault
  | [] => none
  | (_, value) :: rest => (faultSkipping value).or (faultSkippingMembers rest)

end

end Json

end MaterialLowering
