import MaterialLowering.Host.Graph
import MaterialLowering.SortedMap

/-!
# Material documents

A material with its node tree and the groups that its nodes call. Nodes, groups, links and
sockets are found by name, and where several have the name the first one counts.

Main definitions:

* `Document.graph`: the document as a host graph.
* `Document.walkDepth`: a bound on how many outputs can wait for one another.
-/

namespace MaterialLowering

/-- A socket as it is declared. -/
structure SocketDecl where
  name : String
  default : Option Literal
  shader : Bool
  deriving DecidableEq

/-- A node as it is declared. -/
structure NodeDecl where
  name : String
  kind : HostKind
  inputs : List SocketDecl
  outputs : List SocketDecl
  properties : SortedMap String Property
  mute : Bool
  deriving DecidableEq

/-- A link from an output to an input. -/
structure LinkDecl where
  fromNode : String
  fromSocket : String
  toNode : String
  toSocket : SocketKey
  hidden : Bool
  deriving DecidableEq

/-- A tree of nodes. -/
structure NodeTree where
  nodes : List NodeDecl
  links : List LinkDecl
  deriving DecidableEq

namespace NodeTree

def empty : NodeTree := ⟨[], []⟩

/-- The place of the first node of a name (`node_index`). -/
def nodeIndex? (tree : NodeTree) (name : String) : Option Nat :=
  tree.nodes.findIdx? fun node => node.name = name

/-- The place of the first node of a kind (`first_of_kind`). -/
def firstOfKind? (tree : NodeTree) (kind : HostKind) : Option Nat :=
  tree.nodes.findIdx? fun node => node.kind = kind

end NodeTree

namespace NodeDecl

/-- The place of an input socket (`input_index`). -/
def inputIndex? (node : NodeDecl) : SocketKey → Option Nat
  | .index index => if index < node.inputs.length then some index else none
  | .name name => node.inputs.findIdx? fun socket => socket.name = name

end NodeDecl

/-- The link goes into an input of the node: it names the node, and its socket is the one in that
place. -/
def LinkDecl.leadsTo (link : LinkDecl) (node : NodeDecl) (input : Nat) : Bool :=
  link.toNode = node.name &&
    match link.toSocket with
    | .index index => index = input
    | .name name => node.inputIndex? (.name name) = some input

namespace NodeTree

/-- The first link into an input (`link_into`). -/
def linkInto? (tree : NodeTree) (node : NodeDecl) (input : Nat) : Option LinkDecl :=
  tree.links.find? fun link => link.leadsTo node input

/-- Where a link comes from; a link from a node that is not there comes from nowhere. -/
def source? (tree : NodeTree) (id : TreeId) (link : LinkDecl) : Option LinkSource := do
  let index ← tree.nodeIndex? link.fromNode
  let node ← tree.nodes[index]?
  let output := node.outputs.find? fun output => output.name = link.fromSocket
  return {
    node := ⟨id, index⟩
    output := link.fromSocket
    shader := (output.map SocketDecl.shader).getD false
    hidden := link.hidden }

end NodeTree

/-- A named group of nodes. -/
structure NodeGroup where
  name : String
  tree : NodeTree
  deriving DecidableEq

/-- A material (`MaterialDocument`). -/
structure Document where
  name : String
  tree : NodeTree
  groups : List NodeGroup
  deriving DecidableEq

namespace Document

/-- The tree of a number (`tree`): the material's own, or that of a group. -/
def tree? (d : Document) (id : TreeId) : Option NodeTree :=
  match id.number with
  | 0 => some d.tree
  | n + 1 => d.groups[n]?.map NodeGroup.tree

/-- The declaration of a node (`decl`). -/
def node? (d : Document) (node : NodeId) : Option NodeDecl := do
  (← d.tree? node.tree).nodes[node.index]?

/-- The first node of a name in a tree (`find`). -/
def find? (d : Document) (id : TreeId) (name : String) : Option NodeId := do
  let index ← (← d.tree? id).nodeIndex? name
  return ⟨id, index⟩

/-- The tree of the first group of a name (`group_id`). -/
def groupId? (d : Document) (name : String) : Option TreeId :=
  (d.groups.findIdx? fun group => group.name = name).map fun index => ⟨index + 1⟩

/-- The first node of a kind in a tree. -/
def firstOfKind? (d : Document) (id : TreeId) (kind : HostKind) : Option NodeId := do
  let index ← (← d.tree? id).firstOfKind? kind
  return ⟨id, index⟩

/-- The socket of a key, with where its link comes from (`input`). -/
def input? (d : Document) (node : NodeId) (key : SocketKey) : Option Socket := do
  let tree ← d.tree? node.tree
  let decl ← tree.nodes[node.index]?
  let index ← decl.inputIndex? key
  let socket ← decl.inputs[index]?
  return {
    name := socket.name
    default := socket.default.map Literal.toLanes
    shader := socket.shader
    link := (tree.linkInto? decl index).bind (tree.source? node.tree) }

/-- The default of an output (`output_default`). -/
def outputDefault? (d : Document) (node : NodeId) (output : String) : Option Lanes := do
  let socket ← (← d.node? node).outputs.find? fun socket => socket.name = output
  return (← socket.default).toLanes

/-- A property of a node (`property`). -/
def property? (d : Document) (node : NodeId) (name : String) : Option Property := do
  (← d.node? node).properties.get? name

/-- The property in which a group node names its group. -/
def groupProperty : String := "node_tree"

/-- The tree of the group that a node calls (`group_tree`). -/
def groupTree? (d : Document) (node : NodeId) : Option TreeId := do
  d.groupId? (← (← d.property? node groupProperty).asText)

/-- The document as a host graph. -/
def graph (d : Document) : HostGraph where
  material := d.name
  outputNode := d.firstOfKind? .material .outputMaterial
  kind node := ((d.node? node).map NodeDecl.kind).getD (.unknown "")
  name node := ((d.node? node).map NodeDecl.name).getD ""
  muted node := ((d.node? node).map NodeDecl.mute).getD false
  input := d.input?
  inputCount node := ((d.node? node).map fun decl => decl.inputs.length).getD 0
  outputDefault := d.outputDefault?
  property := d.property?
  groupTree := d.groupTree?
  groupOutput id := d.firstOfKind? id .groupOutput

/-! ## Size -/

def trees (d : Document) : List NodeTree := d.tree :: d.groups.map NodeGroup.tree

def nodeCount (d : Document) : Nat := (d.trees.flatMap NodeTree.nodes).length

def linkCount (d : Document) : Nat := (d.trees.flatMap NodeTree.links).length

/-- More than the outputs that can wait for one another: an output is a node with a socket that a
link names, or the one that was asked for, and every group is called at most once around it. -/
def walkDepth (d : Document) : Nat :=
  (d.nodeCount + 2) * (d.linkCount + 2) * Nat.pow (d.nodeCount + 2) d.groups.length

end Document

end MaterialLowering
