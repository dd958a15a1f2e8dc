import MaterialLowering.Host.Document
import MaterialLowering.Json.Writer

/-!
# Documents as JSON

The nodes and links of a tree stand beside its name in one object. They are taken apart only
after the whole object has been read, name and groups as they come.
-/

namespace MaterialLowering

open Json

/-- A member that is written only when there is something to write. -/
def Json.optional (name : String) (value : Option Json) : List (String × Json) :=
  (value.map fun value => (name, value)).toList

/-- A member that is written only when it is true. -/
def Json.whenTrue (name : String) (flag : Bool) : List (String × Json) :=
  if flag then [(name, .bool true)] else []

/-! ## Sockets -/

namespace SocketDecl

def encode (socket : SocketDecl) : Json :=
  .object ([("name", .string socket.name)] ++
    optional "default" (socket.default.map Literal.encode) ++ whenTrue "shader" socket.shader)

/-- A field of the record. -/
inductive Field where
  | name (text : String)
  | default (literal : Option Literal)
  | shader (flag : Bool)

def fieldDecoders : Fields Field :=
  [("name", fun value => .name <$> value.asString),
    ("default", fun value => .default <$> value.asOption Literal.ofJson),
    ("shader", fun value => .shader <$> value.asBool)]

def decode (value : Json) : Except Refusal SocketDecl := do
  let fields ← fields fieldDecoders .shape value
  let name ← required (fields.findSome? fun | .name text => some text | _ => none)
  let default := fields.findSome? fun | .default literal => some literal | _ => none
  let shader := fields.findSome? fun | .shader flag => some flag | _ => none
  return { name, default := default.join, shader := shader.getD false }

end SocketDecl

/-! ## Nodes -/

namespace NodeDecl

def encode (node : NodeDecl) : Json :=
  .object ([("name", .string node.name), ("type", .string node.kind.id),
    ("inputs", .array (node.inputs.map SocketDecl.encode)),
    ("outputs", .array (node.outputs.map SocketDecl.encode)),
    ("properties",
      .object (node.properties.entries.map fun (name, property) => (name, property.encode)))] ++
    whenTrue "mute" node.mute)

/-- A field of the record. -/
inductive Field where
  | name (text : String)
  | kind (kind : HostKind)
  | inputs (sockets : List SocketDecl)
  | outputs (sockets : List SocketDecl)
  | properties (properties : SortedMap String Property)
  | mute (flag : Bool)

def fieldDecoders : Fields Field :=
  [("name", fun value => .name <$> value.asString),
    ("type", fun value => (.kind ∘ .ofId) <$> value.asString),
    ("inputs", fun value => .inputs <$> value.asList SocketDecl.decode),
    ("outputs", fun value => .outputs <$> value.asList SocketDecl.decode),
    ("properties", fun value => (.properties ∘ .ofList) <$> value.asEntries Property.ofJson),
    ("mute", fun value => .mute <$> value.asBool)]

def decode (value : Json) : Except Refusal NodeDecl := do
  let fields ← fields fieldDecoders .shape value
  let name ← required (fields.findSome? fun | .name text => some text | _ => none)
  let kind ← required (fields.findSome? fun | .kind kind => some kind | _ => none)
  let inputs := fields.findSome? fun | .inputs sockets => some sockets | _ => none
  let outputs := fields.findSome? fun | .outputs sockets => some sockets | _ => none
  let properties := fields.findSome? fun | .properties properties => some properties | _ => none
  let mute := fields.findSome? fun | .mute flag => some flag | _ => none
  return {
    name, kind
    inputs := inputs.getD []
    outputs := outputs.getD []
    properties := properties.getD .empty
    mute := mute.getD false }

end NodeDecl

/-! ## Links -/

/-- Places among the inputs are numbers of 64 bits. -/
def placeLimit : Nat := UInt64.size

namespace SocketKey

def encode : SocketKey → Json
  | .name s => .string s
  | .index i => .number (.natural i)

def decode : Json → Except Refusal SocketKey
  | .string s => .ok (.name s)
  | value => .index <$> value.asNatural placeLimit

end SocketKey

namespace LinkDecl

def encode (link : LinkDecl) : Json :=
  .object ([("from_node", .string link.fromNode), ("from_socket", .string link.fromSocket),
    ("to_node", .string link.toNode), ("to_socket", link.toSocket.encode)] ++
    whenTrue "hidden" link.hidden)

/-- A field of the record. -/
inductive Field where
  | fromNode (text : String)
  | fromSocket (text : String)
  | toNode (text : String)
  | toSocket (key : SocketKey)
  | hidden (flag : Bool)

def fieldDecoders : Fields Field :=
  [("from_node", fun value => .fromNode <$> value.asString),
    ("from_socket", fun value => .fromSocket <$> value.asString),
    ("to_node", fun value => .toNode <$> value.asString),
    ("to_socket", fun value => .toSocket <$> SocketKey.decode value),
    ("hidden", fun value => .hidden <$> value.asBool)]

def decode (value : Json) : Except Refusal LinkDecl := do
  let fields ← fields fieldDecoders .shape value
  let fromNode ← required (fields.findSome? fun | .fromNode text => some text | _ => none)
  let fromSocket ← required (fields.findSome? fun | .fromSocket text => some text | _ => none)
  let toNode ← required (fields.findSome? fun | .toNode text => some text | _ => none)
  let toSocket ← required (fields.findSome? fun | .toSocket key => some key | _ => none)
  let hidden := fields.findSome? fun | .hidden flag => some flag | _ => none
  return { fromNode, fromSocket, toNode, toSocket, hidden := hidden.getD false }

end LinkDecl

/-! ## Trees -/

namespace NodeTree

/-- The members of a tree in the object that it stands in. -/
def encodeMembers (tree : NodeTree) : List (String × Json) :=
  [("nodes", .array (tree.nodes.map NodeDecl.encode)),
    ("links", .array (tree.links.map LinkDecl.encode))]

/-- A field of the record. -/
inductive Field where
  | nodes (nodes : List NodeDecl)
  | links (links : List LinkDecl)

def fieldDecoders : Fields Field :=
  [("nodes", fun value => .nodes <$> value.asList NodeDecl.decode),
    ("links", fun value => .links <$> value.asList LinkDecl.decode)]

/-- The tree among the members of an object that have been read as a whole. -/
def decodeMembers (members : List (String × Json)) : Except Refusal NodeTree := do
  let fields ← fieldsAmong fieldDecoders (fun _ => .ok ()) [] members
  let nodes := fields.findSome? fun | .nodes nodes => some nodes | _ => none
  let links := fields.findSome? fun | .links links => some links | _ => none
  return { nodes := nodes.getD [], links := links.getD [] }

end NodeTree

/-! ## Groups and documents -/

namespace NodeGroup

def encode (group : NodeGroup) : Json :=
  .object (("name", .string group.name) :: group.tree.encodeMembers)

def fieldDecoders : Fields String :=
  [("name", asString)]

/-- The group of an object inside `depth` containers. -/
def decode (depth : Nat) (value : Json) : Except Refusal NodeGroup := do
  let members ← value.asMembers
  let names ← fieldsAmong fieldDecoders (whole (depth + 1)) [] members
  let name ← required names.head?
  return { name, tree := ← NodeTree.decodeMembers members }

end NodeGroup

namespace Document

def encode (d : Document) : Json :=
  .object (("name", .string d.name) :: d.tree.encodeMembers ++
    [("groups", .array (d.groups.map NodeGroup.encode))])

/-- A field of the record. -/
inductive Field where
  | name (text : String)
  | groups (groups : List NodeGroup)

def fieldDecoders : Fields Field :=
  [("name", fun value => .name <$> value.asString),
    ("groups", fun value => .groups <$> value.asList (NodeGroup.decode 2))]

def decode (value : Json) : Except Refusal Document := do
  let members ← value.asMembers
  let fields ← fieldsAmong fieldDecoders (whole 1) [] members
  let name ← required (fields.findSome? fun | .name text => some text | _ => none)
  let tree ← NodeTree.decodeMembers members
  let groups := fields.findSome? fun | .groups groups => some groups | _ => none
  return { name, tree, groups := groups.getD [] }

/-- The document of a text (`MaterialDocument.from_json_str`). -/
def ofText (text : String) : Except Refusal Document := decodeText decode text

/-- The document as a text, one member on a line (`MaterialDocument.to_json_string`). -/
def toText (d : Document) : String := d.encode.pretty

end Document

end MaterialLowering
