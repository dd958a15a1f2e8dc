import MaterialLowering.Host.Kind
import MaterialLowering.Json.Decode
import MaterialLowering.Value

/-!
# Host graphs

A host graph is what the questions about it are answered with: `HostGraph` has one field for each
question. Nodes are addressed by their tree and their place in it; tree zero is the material's
own, and every group has a tree.
-/

namespace MaterialLowering

open Numeric (Double)

/-- A node tree, by its number. -/
structure TreeId where
  number : Nat
  deriving DecidableEq, Repr

/-- The material's own tree. -/
def TreeId.material : TreeId := ⟨0⟩

/-- A node, by its tree and its place in it. -/
structure NodeId where
  tree : TreeId
  index : Nat
  deriving DecidableEq, Repr

def NodeId.shown (node : NodeId) : String := toString node.tree.number ++ ":" ++ toString node.index

/-- An input socket: the first one of a name, or the one in a place. -/
inductive SocketKey where
  | name (s : String)
  | index (i : Nat)
  deriving DecidableEq, Repr

def SocketKey.shown : SocketKey → String
  | .name s => s
  | .index i => "#" ++ toString i

/-- Where a link comes from. -/
structure LinkSource where
  node : NodeId
  output : String
  /-- The output carries a shader. -/
  shader : Bool
  /-- A hidden link counts as none. -/
  hidden : Bool
  deriving DecidableEq

/-- An input socket of a node (`SocketView`). -/
structure Socket where
  name : String
  default : Option Lanes
  shader : Bool
  link : Option LinkSource
  deriving DecidableEq

/-- The link of a socket, unless it is hidden. -/
def Socket.visibleLink (socket : Socket) : Option LinkSource :=
  socket.link.filter fun link => !link.hidden

/-- A property of a node. -/
inductive Property where
  | bool (flag : Bool)
  | number (x : Double)
  | text (s : String)
  deriving DecidableEq

namespace Property

def asText : Property → Option String
  | .text s => some s
  | _ => none

def asBool : Property → Option Bool
  | .bool flag => some flag
  | _ => none

def encode : Property → Json
  | .bool flag => .bool flag
  | .number x => .number (.double x)
  | .text s => .string s

def ofJson : Json → Except Refusal Property
  | .bool flag => .ok (.bool flag)
  | .number n => .ok (.number n.toDouble)
  | .string s => .ok (.text s)
  | other => .error other.misshapen

/-- A property inside `depth` containers, read as a whole before its form is chosen. -/
def decode (depth : Nat) (value : Json) : Except Refusal Property := do
  value.whole depth
  ofJson value

theorem ofJson_encode (property : Property) : ofJson property.encode = .ok property := by
  cases property <;> rfl

end Property

/-- The answers to the questions about a material's graph (`SourceGraph`). -/
structure HostGraph where
  /-- The name of the material. -/
  material : String
  /-- The node that the material is read from. -/
  outputNode : Option NodeId
  kind : NodeId → HostKind
  name : NodeId → String
  muted : NodeId → Bool
  input : NodeId → SocketKey → Option Socket
  inputCount : NodeId → Nat
  outputDefault : NodeId → String → Option Lanes
  property : NodeId → String → Option Property
  /-- The tree that a group node calls. -/
  groupTree : NodeId → Option TreeId
  /-- The node that a group's tree is read from. -/
  groupOutput : TreeId → Option NodeId

namespace HostGraph

/-- A node as messages name it (`MaterialTranslator.name`): one without a name goes by its
address. -/
def label (g : HostGraph) (node : NodeId) : String :=
  let name := g.name node
  if name.isEmpty then node.shown else name

/-- A text property, or what stands for it. -/
def text (g : HostGraph) (node : NodeId) (name default : String) : String :=
  ((g.property node name).bind Property.asText).getD default

/-- A property that is set. -/
def flag (g : HostGraph) (node : NodeId) (name : String) : Bool :=
  ((g.property node name).bind Property.asBool).getD false

/-- A link that shows leads into the socket (`has_link`). -/
def hasLink (g : HostGraph) (node : NodeId) (key : SocketKey) : Bool :=
  ((g.input node key).bind Socket.visibleLink).isSome

end HostGraph

end MaterialLowering
