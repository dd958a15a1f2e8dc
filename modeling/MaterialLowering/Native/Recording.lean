import MaterialLowering.Native.Kind
import MaterialLowering.SortedMap
import MaterialLowering.Value

/-!
# Recordings

A recording is a native graph: its nodes in the order of their creation, its images, and the root
node of every material. Images that cannot be loaded are known from the start.

Main results:

* `Recording.create_nodes` — a creation leaves the nodes that were there and adds one.
-/

namespace MaterialLowering

/-- How an image goes on outside its borders. -/
inductive WrapMode where
  | repeat
  | clampToEdge
  | clampZero
  deriving DecidableEq, Repr

namespace WrapMode

def all : List WrapMode := [.repeat, .clampToEdge, .clampZero]

def name : WrapMode → String
  | .repeat => "repeat"
  | .clampToEdge => "clamp_to_edge"
  | .clampZero => "clamp_zero"

/-- The wrap mode as messages show it. -/
def shown : WrapMode → String
  | .repeat => "Repeat"
  | .clampToEdge => "ClampToEdge"
  | .clampZero => "ClampZero"

/-- The wrap mode of the host's name for it (`from_extension`). -/
def ofExtension? : String → Option WrapMode
  | "REPEAT" => some .repeat
  | "EXTEND" => some .clampToEdge
  | "CLIP" => some .clampZero
  | _ => none

end WrapMode

/-- What is asked of an image. Images are the same when their descriptors are. -/
structure ImageDescriptor where
  name : String
  wrap : WrapMode
  deriving DecidableEq

/-- Why there is no image. -/
inductive ImageError where
  | notFound (name : String)
  deriving DecidableEq

def ImageError.message : ImageError → String
  | .notFound name => "image '" ++ name ++ "' not found"

/-- What a parameter of a native node is set to (`ParamValue`). -/
inductive Param where
  | constant (lanes : Lanes)
  | node (handle : NodeHandle)
  | image (handle : ImageHandle)
  deriving DecidableEq

namespace Param

/-- A parameter is set to every value but nothing. -/
def ofValue? : Value → Option Param
  | .constant lanes => some (.constant lanes)
  | .node handle => some (.node handle)
  | .image handle => some (.image handle)
  | .unset => none

/-- Equal, constants lane by lane as numbers. -/
def eq : Param → Param → Bool
  | .constant a, .constant b => a.eq b
  | .node a, .node b => a = b
  | .image a, .image b => a = b
  | _, _ => false

end Param

/-- A native node: its kind and the parameters that are set. -/
structure RecordedNode where
  kind : NativeKind
  params : SortedMap String Param
  deriving DecidableEq

/-- The parameters of a list of values, later ones for a name counting. -/
def RecordedNode.withParams (kind : NativeKind) (params : List (String × Value)) : RecordedNode :=
  { kind
    params := .ofList (params.filterMap fun (name, value) =>
      (Param.ofValue? value).map fun param => (name, param)) }

/-- A native graph, and the names of the images that cannot be loaded (`RecordingBackend`). -/
structure Recording where
  nodes : Array RecordedNode
  images : List ImageDescriptor
  roots : SortedMap String NodeHandle
  failing : SortedMap String Unit
  deriving DecidableEq

namespace Recording

def empty : Recording := ⟨#[], [], .empty, .empty⟩

instance : Inhabited Recording := ⟨empty⟩

/-- The same recording, in which the named image cannot be loaded (`with_failing_image`). -/
def withFailingImage (r : Recording) (name : String) : Recording :=
  { r with failing := r.failing.insert name () }

def node? (r : Recording) (handle : NodeHandle) : Option RecordedNode := r.nodes[handle.index]?

def param? (r : Recording) (handle : NodeHandle) (name : String) : Option Param :=
  (r.node? handle).bind fun node => node.params.get? name

def root? (r : Recording) (material : String) : Option NodeHandle := r.roots.get? material

def nodeCount (r : Recording) : Nat := r.nodes.size

def countKind (r : Recording) (kind : NativeKind) : Nat :=
  r.nodes.countP fun node => node.kind = kind

/-- The nodes created since there were `count` of them. -/
def createdSince (r : Recording) (count : Nat) : List RecordedNode := r.nodes.toList.drop count

/-- A new node with these parameters (`create_native_node`, and `set_param` for each of them).
Values that are nothing set no parameter. The handle is the number of nodes before, assumed to be
below `2 ^ 32`: a number that does not fit into 32 bits would be cut off. -/
def create (r : Recording) (kind : NativeKind) (params : List (String × Value)) :
    NodeHandle × Recording :=
  (⟨r.nodes.size⟩, { r with nodes := r.nodes.push (.withParams kind params) })

/-- Sets a parameter (`RecordingBackend.set`); nothing happens to a node that is not there. -/
def assign (r : Recording) (handle : NodeHandle) (name : String) (param : Param) : Recording :=
  { r with
    nodes := r.nodes.modify handle.index fun node =>
      { node with params := node.params.insert name param } }

/-- The image of a descriptor, which is added unless it is there (`materialize_image`). The handle
is the place in the list of images, assumed to be below `2 ^ 32` as well. -/
def materialize (r : Recording) (descriptor : ImageDescriptor) :
    Except ImageError ImageHandle × Recording :=
  if r.failing.contains descriptor.name then (.error (.notFound descriptor.name), r)
  else
    let index := r.images.idxOf descriptor
    if index < r.images.length then (.ok ⟨index⟩, r)
    else (.ok ⟨index⟩, { r with images := r.images ++ [descriptor] })

/-- Makes a node the root of a material (`register_material_root`). -/
def register (r : Recording) (material : String) (root : NodeHandle) : Recording :=
  { r with roots := r.roots.insert material root }

theorem create_nodes (r : Recording) (kind : NativeKind) (params : List (String × Value)) :
    (r.create kind params).2.nodes = r.nodes.push (.withParams kind params) := rfl

/-! ## Equality of recordings -/

/-- The same parameters under the same names. -/
private def eqParams : List (String × Param) → List (String × Param) → Bool
  | [], [] => true
  | (a, p) :: rest, (b, q) :: more => a = b && p.eq q && eqParams rest more
  | _, _ => false

private def eqNodes : List RecordedNode → List RecordedNode → Bool
  | [], [] => true
  | a :: rest, b :: more =>
    a.kind = b.kind && eqParams a.params.entries b.params.entries && eqNodes rest more
  | _, _ => false

/-- Equal in every part, constants as numbers. -/
def eq (a b : Recording) : Bool :=
  eqNodes a.nodes.toList b.nodes.toList && a.images = b.images &&
    a.roots.entries = b.roots.entries && a.failing.keys = b.failing.keys

end Recording

end MaterialLowering
