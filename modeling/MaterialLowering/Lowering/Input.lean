import MaterialLowering.Lowering.Plan

/-!
# Reading inputs

An input socket is read through its link, if one shows, or its default. The two ends of a link
must both carry a shader or both carry none; nodes that only hand a value on are not checked.
-/

namespace MaterialLowering

namespace HostGraph

/-- The socket of a key (`socket`). -/
def socket (g : HostGraph) (node : NodeId) (key : SocketKey) : Except Failure Socket :=
  match g.input node key with
  | some socket => .ok socket
  | none => .error (.invalidSocket (g.label node) key.shown)

/-- The link that shows into a socket, if it is one of equals (`visible_link`). -/
def checkedLink (g : HostGraph) (node : NodeId) (socket : Socket) :
    Except Failure (Option LinkSource) :=
  match socket.visibleLink with
  | none => .ok none
  | some link =>
    let typed := !(g.kind link.node).isTypeless && !(g.kind node).isTypeless
    if typed && link.shader != socket.shader then
      .error (.invalidLink (g.label node) socket.name)
    else .ok (some link)

end HostGraph

namespace Plan

/-- The value of a socket: that of its link, or else what `unlinked` makes of the socket. -/
def throughLink (g : HostGraph) (node : NodeId) (key : SocketKey) (unlinked : Socket → Value) :
    Plan Value := do
  let socket ← ofExcept (g.socket node key)
  match ← ofExcept (g.checkedLink node socket) with
  | some link => output link.node link.output
  | none => return unlinked socket

/-- The value of the link, or the default, or nothing (`input`). -/
def input (g : HostGraph) (node : NodeId) (key : SocketKey) : Plan Value :=
  throughLink g node key fun socket => .ofLanes? socket.default

/-- The value of the link alone (`input_link`). -/
def inputLink (g : HostGraph) (node : NodeId) (key : SocketKey) : Plan Value :=
  throughLink g node key fun _ => .unset

/-- The default alone (`input_default`). -/
def inputDefault (g : HostGraph) (node : NodeId) (key : SocketKey) : Plan Value := do
  let socket ← ofExcept (g.socket node key)
  return .ofLanes? socket.default

/-- The value of a link that has to be there (`required_link`). -/
def requiredLink (g : HostGraph) (node : NodeId) (key : SocketKey) : Plan Value := do
  let value ← inputLink g node key
  if value.isUnset then .fail (.missingRequiredLink (g.label node) key.shown) else return value

/-- The value of the link of a socket that the node need not have (`optional_link`). -/
def optionalLink (g : HostGraph) (node : NodeId) (name : String) : Plan Value :=
  if (g.input node (.name name)).isNone then return .unset else inputLink g node (.name name)

end Plan

end MaterialLowering
