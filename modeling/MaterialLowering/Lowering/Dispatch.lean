import MaterialLowering.Lowering.Declarative
import MaterialLowering.Lowering.Handler

/-!
# Dispatch

How an output of a node is lowered. Nodes that hand a value on come first, then the rule table,
then the handlers, then the boundaries of groups.

Main definitions:

* `RuleTable.resolve?`: what a kind is lowered by.
* `RuleTable.task`: what there is to do for an output of a node.
-/

namespace MaterialLowering

/-- What a kind is lowered by (`TranslationRule`). -/
inductive Resolution where
  | declarative (rules : NodeRules)
  | procedural (handler : Handler)
  /-- A call of a group, or the way in or out of one. -/
  | boundary

/-- What a kind is lowered by, if it is supported (`DispatchTable.resolve`). -/
def RuleTable.resolve? (table : RuleTable) (kind : HostKind) : Option Resolution :=
  match table.get? kind with
  | some rules => some (.declarative rules)
  | none =>
    match Handler.ofKind? kind with
    | some handler => some (.procedural handler)
    | none =>
      match kind with
      | .group | .groupInput | .groupOutput => some .boundary
      | _ => none

namespace Plan

/-- A reroute hands on the value of its link (`forward_reroute`). -/
def reroute (g : HostGraph) (node : NodeId) : Plan Value := do
  let value ← inputLink g node (.index 0)
  if value.isUnset then say (.rerouteOpen (g.label node))
  return value

/-- A muted node hands on the value of its first link (`pass_muted`). -/
def muted (g : HostGraph) (node : NodeId) : Plan Value :=
  match (List.range (g.inputCount node)).find? fun index => g.hasLink node (.index index) with
  | some index => inputLink g node (.index index)
  | none => return .unset

end Plan

/-- What there is to do for an output. -/
inductive Task where
  | plan (plan : Plan Value)
  /-- The node calls a group. -/
  | call
  /-- The output is a formal input of the group around the node. -/
  | formal

/-- What there is to do for an output of a node that is not bypassed (`translate_uncached`). -/
def RuleTable.task (table : RuleTable) (g : HostGraph) (node : NodeId) (output : String) : Task :=
  let kind := g.kind node
  match table.resolve? kind with
  | some (.declarative rules) => .plan (RuleSite.plan ⟨g, kind, rules, node, output⟩)
  | some (.procedural handler) => .plan (handler g node output)
  | some .boundary =>
    match kind with
    | .group => .call
    | .groupInput => .formal
    | _ => .plan (Plan.input g node (.name output))
  | none => .plan (.fail (.unsupportedNodeKind (g.label node) kind.id))

/-- The plan of a node that only hands a value on: a reroute, muted or not, or a muted node. -/
def bypass? (g : HostGraph) (node : NodeId) : Option (Plan Value) :=
  if g.kind node = .reroute then some (Plan.reroute g node)
  else if g.muted node then some (Plan.muted g node)
  else none

end MaterialLowering
