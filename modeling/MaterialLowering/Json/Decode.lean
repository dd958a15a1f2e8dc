import MaterialLowering.Json.Reader

/-!
# Taking trees apart

A decoder takes a tree to a value or refuses it. Decoders go through a tree in the order of its
text, so that of several things wrong with a text the first one is reported.

* `Json.fields` reads a record: an object with fixed fields, each at most once, or an array.
* `Json.whole` is for a value that has to be read before its shape is chosen.
* `Json.decodeText` decodes a text, behind which nothing may follow.
-/

namespace MaterialLowering

open Numeric (Single Double)

/-- Why a text is refused: it is no JSON text, it has the wrong shape, or a name in it is not known,
in which case the message says which. -/
inductive Refusal where
  | fault (fault : Fault)
  | shape
  | named (message : String)
  deriving DecidableEq, Repr

namespace Json

/-- A value that ends here by its fault, if it has one. -/
def checkFault : Option Fault → Except Refusal Unit
  | none => .ok ()
  | some fault => .error (.fault fault)

/-- A value read as a whole inside `depth` containers. -/
def whole (depth : Nat) (value : Json) : Except Refusal Unit := checkFault (value.faultWithin depth)

/-- A value that nobody asks for. -/
def skip (value : Json) : Except Refusal Unit := checkFault value.faultSkipping

/-- The refusal of what stands where the end of a container is due. -/
def unended : Refusal := .fault .malformed

/-- The refusal of a value of the wrong shape; a fault in its place comes first. -/
def misshapen : Json → Refusal
  | .broken fault _ | .nameless fault _ => .fault fault
  | _ => .shape

/-- What stands where a member is due has to have a name. -/
def checkNamed : Json → Except Refusal Unit
  | .nameless fault _ => .error (.fault fault)
  | _ => .ok ()

def asString : Json → Except Refusal String
  | .string text => .ok text
  | other => .error other.misshapen

def asBool : Json → Except Refusal Bool
  | .bool flag => .ok flag
  | other => .error other.misshapen

def asNull : Json → Except Refusal Unit
  | .null => .ok ()
  | other => .error other.misshapen

def asSingle : Json → Except Refusal Single
  | .number n => .ok n.toSingle
  | other => .error other.misshapen

/-- A natural number below `bound`, written as an integer. -/
def asNatural (bound : Nat) : Json → Except Refusal Nat
  | .number (.natural n) => if n < bound then .ok n else .error .shape
  | other => .error other.misshapen

def asItems : Json → Except Refusal (List Json)
  | .array items => .ok items
  | other => .error other.misshapen

def asMembers : Json → Except Refusal (List (String × Json))
  | .object members => .ok members
  | other => .error other.misshapen

/-- Something that may be `null`. -/
def asOption (decode : Json → Except Refusal α) : Json → Except Refusal (Option α)
  | .null => .ok none
  | other => some <$> decode other

/-- An array of things of one kind. -/
def asList (decode : Json → Except Refusal α) (value : Json) : Except Refusal (List α) := do
  (← value.asItems).mapM decode

/-- The members of an object whose names are keys. -/
def asEntries (decode : Json → Except Refusal α) (value : Json) :
    Except Refusal (List (String × α)) := do
  (← value.asMembers).mapM fun (key, value) => do
    value.checkNamed
    return (key, ← decode value)

/-- The fields of a record in their order, with their decoders. -/
abbrev Fields (α : Type) := List (String × (Json → Except Refusal α))

/-- The known fields among the members of an object. A field that comes again is refused at its
name, whatever its value, and a member that is no field is left to `other`. -/
def fieldsAmong (known : Fields α) (other : Json → Except Refusal Unit) :
    List String → List (String × Json) → Except Refusal (List α)
  | _, [] => .ok []
  | seen, (name, value) :: rest => do
    value.checkNamed
    match known.lookup name with
    | none =>
      other value
      fieldsAmong known other seen rest
    | some decode =>
      if name ∈ seen then throw .shape
      let first ← decode value
      let more ← fieldsAmong known other (name :: seen) rest
      return first :: more

/-- The items of an array as the first fields of a record. An item behind the last field is
refused as `surplus`. -/
def fieldsInOrder (surplus : Refusal) : Fields α → List Json → Except Refusal (List α)
  | _, [] => .ok []
  | [], _ :: _ => .error surplus
  | (_, decode) :: known, item :: rest => do
    let first ← decode item
    let more ← fieldsInOrder surplus known rest
    return first :: more

/-- The fields of a record that is written as an object, or as an array without the names. Members
that are no fields are skipped. -/
def fields (known : Fields α) (surplus : Refusal) : Json → Except Refusal (List α)
  | .object members => fieldsAmong known skip [] members
  | .array items => fieldsInOrder surplus known items
  | other => .error other.misshapen

/-- A field that has to be there. -/
def required (field : Option α) : Except Refusal α :=
  match field with
  | some value => .ok value
  | none => .error .shape

/-- Decodes a text. Nothing may follow what is decoded. -/
def decodeText (decode : Json → Except Refusal α) (text : String) : Except Refusal α := do
  let text := read text
  let value ← decode text.value
  if text.ended then return value else throw unended

end Json

end MaterialLowering
