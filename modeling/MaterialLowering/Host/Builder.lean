import MaterialLowering.Host.Document

/-!
# Building documents

A builder adds nodes to a tree, sockets and properties to the node added last, and links to the
tree. Until `group` it works on the material's own tree, from then on and until `endGroup` on the
tree of that group.
-/

namespace MaterialLowering

open Numeric (Double)

/-- A document under construction (`MaterialBuilder`). -/
structure Builder where
  document : Document
  /-- Nodes are added to the last group. -/
  inGroup : Bool

namespace Builder

/-- The last item of a list changed. -/
def changeLast (change : α → α) (items : List α) : List α :=
  items.modify (items.length - 1) change

def new (name : String) : Builder := ⟨⟨name, .empty, []⟩, false⟩

/-- The tree that is worked on changed. -/
def changeTree (b : Builder) (change : NodeTree → NodeTree) : Builder :=
  let d := b.document
  if b.inGroup then
    { b with
      document := { d with
        groups := changeLast (fun group => { group with tree := change group.tree }) d.groups } }
  else { b with document := { d with tree := change d.tree } }

/-- The node added last changed; nothing happens in a tree without nodes. -/
def changeNode (b : Builder) (change : NodeDecl → NodeDecl) : Builder :=
  b.changeTree fun tree => { tree with nodes := changeLast change tree.nodes }

/-- A new group, whose tree is worked on from here. -/
def group (b : Builder) (name : String) : Builder :=
  { document := { b.document with groups := b.document.groups ++ [⟨name, .empty⟩] }
    inGroup := true }

/-- Back to the material's own tree. -/
def endGroup (b : Builder) : Builder := { b with inGroup := false }

def node (b : Builder) (name hostId : String) : Builder :=
  b.changeTree fun tree =>
    { tree with nodes := tree.nodes ++ [⟨name, .ofId hostId, [], [], .empty, false⟩] }

private def addInput (b : Builder) (socket : SocketDecl) : Builder :=
  b.changeNode fun node => { node with inputs := node.inputs ++ [socket] }

private def addOutput (b : Builder) (socket : SocketDecl) : Builder :=
  b.changeNode fun node => { node with outputs := node.outputs ++ [socket] }

def input (b : Builder) (name : String) (default : Literal) : Builder :=
  b.addInput ⟨name, some default, false⟩

/-- An input without a default. -/
def inputEmpty (b : Builder) (name : String) : Builder := b.addInput ⟨name, none, false⟩

def shaderInput (b : Builder) (name : String) : Builder := b.addInput ⟨name, none, true⟩

def output (b : Builder) (name : String) : Builder := b.addOutput ⟨name, none, false⟩

def outputWithDefault (b : Builder) (name : String) (default : Literal) : Builder :=
  b.addOutput ⟨name, some default, false⟩

def shaderOutput (b : Builder) (name : String) : Builder := b.addOutput ⟨name, none, true⟩

/-- The node that a material is read from. -/
def outputNode (b : Builder) : Builder :=
  ((b.node "Material Output" HostKind.outputMaterial.id).shaderInput "Surface").shaderInput "Volume"

def property (b : Builder) (name : String) (value : Property) : Builder :=
  b.changeNode fun node => { node with properties := node.properties.insert name value }

def text (b : Builder) (name value : String) : Builder := b.property name (.text value)

def flag (b : Builder) (name : String) (value : Bool) : Builder := b.property name (.bool value)

def number (b : Builder) (name : String) (value : Double) : Builder :=
  b.property name (.number value)

def muted (b : Builder) : Builder := b.changeNode fun node => { node with mute := true }

private def addLink (b : Builder) (link : LinkDecl) : Builder :=
  b.changeTree fun tree => { tree with links := tree.links ++ [link] }

def link (b : Builder) (fromNode fromSocket toNode toSocket : String) : Builder :=
  b.addLink ⟨fromNode, fromSocket, toNode, .name toSocket, false⟩

/-- A link into the input in a place. -/
def linkIndex (b : Builder) (fromNode fromSocket toNode : String) (toSocket : Nat) : Builder :=
  b.addLink ⟨fromNode, fromSocket, toNode, .index toSocket, false⟩

def hiddenLink (b : Builder) (fromNode fromSocket toNode toSocket : String) : Builder :=
  b.addLink ⟨fromNode, fromSocket, toNode, .name toSocket, true⟩

end Builder

end MaterialLowering
