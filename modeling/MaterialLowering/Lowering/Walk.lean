import MaterialLowering.Lowering.Dispatch
import MaterialLowering.Lowering.Key

/-!
# Walking a graph

The walk goes from an output to the outputs that it asks for. What an output comes to is kept, so
that it is lowered once in a call context; an output that asks for itself is a cycle. A call of a
group puts a frame on the stack; where the group asks for one of its inputs, the walk steps out of
the frame, reads the argument where the call stands, and steps back in.

The state survives a failure, so that a walk can go on after one.

Main definitions:

* `Walk`: a computation on the state that may fail.
* `Walk.lower`: what an output comes to, given how deep the walk may still go.
* `Walk.output`, `Walk.input`, `Walk.root`, …: the questions that are put to a walk.
-/

namespace MaterialLowering

/-! ## State -/

/-- A call of a group that is being lowered (`GroupCallFrame`). -/
structure Frame where
  /-- The node that calls. -/
  callSite : NodeId
  /-- The tree that is called. -/
  tree : TreeId
  /-- The formal inputs whose arguments are known. -/
  arguments : Memo String Value
  deriving DecidableEq

/-- Everything that a walk changes (`MaterialTranslator`). -/
structure WalkState where
  recording : Recording
  cache : Cache
  /-- The calls around the output that is being lowered, the innermost first. -/
  stack : List Frame
  /-- The outputs that are being lowered. -/
  active : List Key
  log : Array Notice
  deriving DecidableEq

/-- A walk that has not begun. -/
def WalkState.start (recording : Recording) : WalkState :=
  { recording, cache := .empty, stack := [], active := [], log := #[] }

/-- A walk on a graph, its rules, and how deep outputs may be nested. -/
structure Setting where
  graph : HostGraph
  table : RuleTable
  depth : Nat

/-- A computation on the state that may fail, and then keeps the state. -/
abbrev Walk := ExceptT Failure (StateM WalkState)

namespace Walk

/-- What a computation comes to, whether it fails or not. -/
def attempt (walk : Walk α) : Walk (Except Failure α) := ExceptT.lift walk.run

/-- Goes on with what a computation came to. -/
def settle (result : Except Failure α) : Walk α := ExceptT.mk (pure result)

def say (notice : Notice) : Walk Unit :=
  modify fun state => { state with log := state.log.push notice }

/-- The key of an output in the calls that are being lowered (`MaterialTranslator.key`). -/
def key (g : HostGraph) (node : NodeId) (output : String) : Walk Key := do
  return ⟨node, output, (← get).stack.map Frame.callSite, g.material⟩

/-! ## Plans -/

/-- Carries a plan out. `visit` finds the outputs that it asks for. -/
def carryOut (g : HostGraph) (visit : NodeId → String → Walk Value) : Plan α → Walk α
  | .done result => return result
  | .fail failure => throw failure
  | .visit node output next => do
    let value ← visit node output
    carryOut g visit (next value)
  | .create kind params next => do
    let (handle, recording) := (← get).recording.create kind params
    modify fun state => { state with recording }
    carryOut g visit (next handle)
  | .image descriptor next => do
    let (image, recording) := (← get).recording.materialize descriptor
    modify fun state => { state with recording }
    carryOut g visit (next image.toOption)
  | .report notice next => do
    say notice
    carryOut g visit next
  | .known node output subNode next => do
    let key ← key g node output
    let value := (← get).cache.subNode? key subNode
    carryOut g visit (next value)
  | .remember node output subNode value next => do
    let key ← key g node output
    modify fun state => { state with cache := state.cache.putSubNode key subNode value }
    carryOut g visit next

/-! ## Groups -/

/-- The frame of a call (`enter_group`). A group that is being lowered cannot be called from
inside. -/
def enter (g : HostGraph) (callSite : NodeId) (output : String) : Walk Frame := do
  match g.groupTree callSite with
  | none =>
    throw (.unresolvableGroupBoundary (g.label callSite) "group node references no node tree")
  | some tree =>
    let stack := (← get).stack
    if stack.any fun frame => frame.tree = tree then throw (.cyclicGraph (g.label callSite) output)
    say (.enteringGroup (g.label callSite) (stack.length + 1))
    return { callSite, tree, arguments := .empty }

/-- Takes the innermost frame away (`exit_group`). -/
def leave (g : HostGraph) : Walk Unit := do
  match (← get).stack with
  | [] => return
  | frame :: rest =>
    modify fun state => { state with stack := rest }
    say (.leavingGroup (g.label frame.callSite) frame.arguments.size)

/-- A call comes to what the output node of the group comes to inside the call
(`translate_group_call`). -/
def call (g : HostGraph) (visit : NodeId → String → Walk Value) (callSite : NodeId)
    (output : String) : Walk Value := do
  let frame ← enter g callSite output
  match g.groupOutput frame.tree with
  | none => throw (.unresolvableGroupBoundary (g.label callSite) "group has no output node")
  | some groupOutput =>
    modify fun state => { state with stack := frame :: state.stack }
    let result ← attempt (visit groupOutput output)
    leave g
    settle result

/-- The innermost call of a tree, with the frames inside it and those around it
(`GroupStack.innermost`). -/
def innermostCall? (tree : TreeId) : List Frame → Option (List Frame × Frame × List Frame)
  | [] => none
  | frame :: rest =>
    if frame.tree = tree then some ([], frame, rest)
    else (innermostCall? tree rest).map fun (inside, found, around) =>
      (frame :: inside, found, around)

/-- The argument of a call for a formal input, read where the call stands. -/
def argument (g : HostGraph) (callSite : NodeId) (formal : String) : Plan Value :=
  if (g.input callSite (.name formal)).isSome then Plan.input g callSite (.name formal)
  else .fail (.unresolvableGroupBoundary (g.label callSite)
    ("call site has no input '" ++ formal ++ "'"))

/-- The value of a formal input in the innermost call of the tree of `groupInput`
(`resolve_group_input`): the argument, or the formal's own default where the argument is nothing.
The frame keeps the value. -/
def formal (g : HostGraph) (visit : NodeId → String → Walk Value) (groupInput : NodeId)
    (formal : String) : Walk Value := do
  match innermostCall? groupInput.tree (← get).stack with
  | none =>
    throw (.unresolvableGroupBoundary (g.label groupInput)
      "group input reached outside of a group call")
  | some (inside, frame, around) =>
    match frame.arguments.get? formal with
    | some value => return value
    | none =>
      modify fun state => { state with stack := around }
      let result ← attempt (carryOut g visit (argument g frame.callSite formal))
      modify fun state => { state with stack := inside ++ frame :: state.stack }
      let found ← settle result
      let value := found.or (.ofLanes? (g.outputDefault groupInput formal))
      let frame := { frame with arguments := frame.arguments.put formal value }
      modify fun state =>
        { state with stack := inside ++ frame :: state.stack.drop (inside.length + 1) }
      return value

/-! ## Outputs -/

/-- An output that has not been lowered yet (`translate_uncached`). -/
def expand (s : Setting) (visit : NodeId → String → Walk Value) (node : NodeId)
    (output : String) : Walk Value := do
  let g := s.graph
  match bypass? g node with
  | some plan => carryOut g visit plan
  | none =>
    say (.visiting (g.kind node) (g.label node) output)
    match s.table.task g node output with
    | .plan plan => carryOut g visit plan
    | .call => call g visit node output
    | .formal => formal g visit node output

/-- One step of the walk (`translate_output`): `visit` finds the outputs that this one asks for. -/
def step (s : Setting) (visit : NodeId → String → Walk Value) (node : NodeId)
    (output : String) : Walk Value := do
  let g := s.graph
  let key ← key g node output
  match (← get).cache.get? key with
  | some value => return value
  | none =>
    if key ∈ (← get).active then throw (.cyclicGraph (g.label node) output)
    modify fun state => { state with active := key :: state.active }
    let result ← attempt (expand s visit node output)
    modify fun state => { state with active := state.active.erase key }
    let value ← settle result
    modify fun state => { state with cache := state.cache.put key value }
    return value

/-- What an output comes to, when outputs may be nested `depth` deep (`translate_output`, with a bound
on its recursion). -/
def lower (s : Setting) : Nat → NodeId → String → Walk Value
  | 0, node, output => throw (.tooDeep (s.graph.label node) output)
  | depth + 1, node, output => step s (lower s depth) node output

/-! ## Questions -/

/-- What an output of a node comes to. -/
def output (s : Setting) (node : NodeId) (output : String) : Walk Value :=
  lower s s.depth node output

/-- What a plan comes to. -/
def planned (s : Setting) (plan : Plan α) : Walk α := carryOut s.graph (lower s s.depth) plan

/-- The value of an input: its link, its default, or nothing. -/
def input (s : Setting) (node : NodeId) (key : SocketKey) : Walk Value :=
  planned s (Plan.input s.graph node key)

/-- The value of the link of an input. -/
def inputLink (s : Setting) (node : NodeId) (key : SocketKey) : Walk Value :=
  planned s (Plan.inputLink s.graph node key)

/-- The default of an input. -/
def inputDefault (s : Setting) (node : NodeId) (key : SocketKey) : Walk Value :=
  planned s (Plan.inputDefault s.graph node key)

/-- The value of the link of an input that must have one. -/
def requiredLink (s : Setting) (node : NodeId) (key : SocketKey) : Walk Value :=
  planned s (Plan.requiredLink s.graph node key)

/-- The value of a formal input of the group around a group-input node. -/
def groupInput (s : Setting) (node : NodeId) (name : String) : Walk Value :=
  formal s.graph (lower s s.depth) node name

/-- The output that a material is read from. -/
def surface : String := "Surface"

/-- The node that the material's surface comes to (`translate_material_output`). -/
def root (s : Setting) : Walk NodeHandle := do
  let g := s.graph
  match g.outputNode with
  | none => throw (.missingOutputNode g.material)
  | some node =>
    match ← output s node surface with
    | .node handle => return handle
    | _ => throw (.missingRequiredLink (g.label node) surface)

end Walk

end MaterialLowering
