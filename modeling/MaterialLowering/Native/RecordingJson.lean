import MaterialLowering.Json.Decode
import MaterialLowering.Native.Recording

/-!
# Recordings as JSON

A recording is written with its nodes, images and roots; which images fail is not written. A kind
or a parameter is a tagged value: a string, or an object with the tag as its only member.
-/

namespace MaterialLowering

open Json

/-- A tagged value. `decode` gives what to do with the payload of a tag, `none` for a tag that
stands alone. -/
def Json.asTagged (decode : String → Option (Option Json → Except Refusal α)) :
    Json → Except Refusal α
  | .string tag =>
    match decode tag with
    | some payload => payload none
    | none => .error .shape
  | .object ((tag, value) :: rest) => do
    value.checkNamed
    match decode tag with
    | some payload =>
      let decoded ← payload (some value)
      if rest.isEmpty then return decoded else throw unended
    | none => throw .shape
  | .broken fault _ | .nameless fault _ => .error (.fault fault)
  | _ => .error (.fault .malformed)

/-- The payload of a tag that has none. -/
def Json.noPayload (value : α) : Option Json → Except Refusal α
  | none => .ok value
  | some payload => do
    payload.asNull
    return value

/-- The payload of a tag that has one. -/
def Json.withPayload (decode : Json → Except Refusal α) : Option Json → Except Refusal α
  | none => .error .shape
  | some payload => decode payload

/-! ## Kinds -/

def Operator.encode (op : Operator) : Json := .string op.name

def Operator.decode : Json → Except Refusal Operator :=
  asTagged fun tag => (Operator.ofName? tag).map noPayload

def Lookup.encode (quantity : Lookup) : Json := .string quantity.name

def Lookup.decode : Json → Except Refusal Lookup :=
  asTagged fun tag => (Lookup.all.find? fun quantity => quantity.name = tag).map noPayload

def NativeKind.encode : NativeKind → Json
  | .arithmetic op => .object [("arithmetic", op.encode)]
  | .inputLookup quantity => .object [("input_lookup", quantity.encode)]
  | kind => .string kind.name

def NativeKind.decode : Json → Except Refusal NativeKind :=
  asTagged fun tag =>
    if tag = "arithmetic" then some (withPayload fun value => .arithmetic <$> Operator.decode value)
    else if tag = "input_lookup" then
      some (withPayload fun value => .inputLookup <$> Lookup.decode value)
    else (NativeKind.plain.find? fun kind => kind.name = tag).map noPayload

/-! ## Images -/

def WrapMode.encode (wrap : WrapMode) : Json := .string wrap.name

def WrapMode.decode : Json → Except Refusal WrapMode :=
  asTagged fun tag => (WrapMode.all.find? fun wrap => wrap.name = tag).map noPayload

namespace ImageDescriptor

def encode (descriptor : ImageDescriptor) : Json :=
  .object [("name", .string descriptor.name), ("wrap", descriptor.wrap.encode)]

/-- A field of the record. -/
inductive Field where
  | name (text : String)
  | wrap (mode : WrapMode)

def fieldDecoders : Fields Field :=
  [("name", fun value => .name <$> value.asString),
    ("wrap", fun value => .wrap <$> WrapMode.decode value)]

def decode (value : Json) : Except Refusal ImageDescriptor := do
  let fields ← fields fieldDecoders unended value
  let name ← required (fields.findSome? fun | .name text => some text | _ => none)
  let wrap := fields.findSome? fun | .wrap mode => some mode | _ => none
  return { name, wrap := wrap.getD .repeat }

end ImageDescriptor

/-! ## Nodes -/

/-- Handles are numbers of 32 bits. -/
def handleLimit : Nat := UInt32.size

def NodeHandle.encode (handle : NodeHandle) : Json := .number (.natural handle.index)

def NodeHandle.decode (value : Json) : Except Refusal NodeHandle :=
  NodeHandle.mk <$> value.asNatural handleLimit

def ImageHandle.encode (handle : ImageHandle) : Json := .number (.natural handle.index)

def ImageHandle.decode (value : Json) : Except Refusal ImageHandle :=
  ImageHandle.mk <$> value.asNatural handleLimit

namespace Lanes

def encode (lanes : Lanes) : Json := .array (lanes.toList.map fun v => .number (.single v))

/-- Exactly four numbers; a fifth one is taken for text that should not be there. -/
def decode (value : Json) : Except Refusal Lanes := do
  match ← value.asItems with
  | x :: y :: z :: w :: rest =>
    let lanes := Lanes.mk (← x.asSingle) (← y.asSingle) (← z.asSingle) (← w.asSingle)
    if rest.isEmpty then return lanes else throw unended
  | few =>
    let _ ← few.mapM asSingle
    throw .shape

end Lanes

namespace Param

def encode : Param → Json
  | .constant lanes => .object [("constant", lanes.encode)]
  | .node handle => .object [("node", handle.encode)]
  | .image handle => .object [("image", handle.encode)]

def decode : Json → Except Refusal Param :=
  asTagged fun
    | "constant" => some (withPayload fun value => .constant <$> Lanes.decode value)
    | "node" => some (withPayload fun value => .node <$> NodeHandle.decode value)
    | "image" => some (withPayload fun value => .image <$> ImageHandle.decode value)
    | _ => none

end Param

namespace RecordedNode

def encode (node : RecordedNode) : Json :=
  .object
    [("kind", node.kind.encode),
      ("params", .object (node.params.entries.map fun (name, param) => (name, param.encode)))]

/-- A field of the record. -/
inductive Field where
  | kind (kind : NativeKind)
  | params (params : SortedMap String Param)

def fieldDecoders : Fields Field :=
  [("kind", fun value => .kind <$> NativeKind.decode value),
    ("params", fun value => (.params ∘ .ofList) <$> value.asEntries Param.decode)]

def decode (value : Json) : Except Refusal RecordedNode := do
  let fields ← fields fieldDecoders unended value
  let kind ← required (fields.findSome? fun | .kind kind => some kind | _ => none)
  let params ← required (fields.findSome? fun | .params params => some params | _ => none)
  return { kind, params }

end RecordedNode

/-! ## Recordings -/

namespace Recording

def encode (r : Recording) : Json :=
  .object
    [("nodes", .array (r.nodes.toList.map RecordedNode.encode)),
      ("images", .array (r.images.map ImageDescriptor.encode)),
      ("roots", .object (r.roots.entries.map fun (material, root) => (material, root.encode)))]

/-- A field of the record. -/
inductive Field where
  | nodes (nodes : List RecordedNode)
  | images (images : List ImageDescriptor)
  | roots (roots : SortedMap String NodeHandle)

def fieldDecoders : Fields Field :=
  [("nodes", fun value => .nodes <$> value.asList RecordedNode.decode),
    ("images", fun value => .images <$> value.asList ImageDescriptor.decode),
    ("roots", fun value => (.roots ∘ .ofList) <$> value.asEntries NodeHandle.decode)]

def decode (value : Json) : Except Refusal Recording := do
  let fields ← fields fieldDecoders unended value
  let nodes ← required (fields.findSome? fun | .nodes nodes => some nodes | _ => none)
  let images ← required (fields.findSome? fun | .images images => some images | _ => none)
  let roots ← required (fields.findSome? fun | .roots roots => some roots | _ => none)
  return { nodes := nodes.toArray, images, roots, failing := .empty }

/-- The recording as a text on one line. -/
def toText (r : Recording) : String := r.encode.compact

/-- The recording of a text; no image fails in it. -/
def ofText (text : String) : Except Refusal Recording := decodeText decode text

end Recording

end MaterialLowering
