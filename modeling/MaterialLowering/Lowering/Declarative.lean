import MaterialLowering.Lowering.Input

/-!
# Declarative lowering

The plan of an output whose kind has an entry in the rule table: the sub-node with the name of the
output, after the sub-nodes it refers to. A sub-node is evaluated once for an output, however
many parameters refer to it.
-/

namespace MaterialLowering

namespace FoldOp

/-- The operation on the parameters of a sub-node (`fold_params`); a parameter that is not there is
nothing. -/
def emission (op : FoldOp) (params : List (String × Value)) : Emission Value :=
  let param := fun name => (params.lookup name).getD .unset
  let a := param "color0"
  let b := param "color1"
  match op with
  | .add => Emission.add a b
  | .sub => Emission.sub a b
  | .mul => Emission.mul a b
  | .div => Emission.div a b
  | .max => Emission.max a b
  | .min => Emission.min a b
  | .pow => Emission.binary .pow a b
  | .blend => Emission.blend (param "weight") a b

end FoldOp

/-- What a sub-node becomes, given its parameters. -/
def RuleType.plan (type : RuleType) (params : List (String × Value)) : Plan Value :=
  match type with
  | .native kind => Plan.node kind params
  | .fold op => op.emission params

/-- Where the rules of an entry are applied: an output of a node of a kind. -/
structure RuleSite where
  graph : HostGraph
  kind : HostKind
  rules : NodeRules
  node : NodeId
  output : String

namespace RuleSite

/-- The value of a parameter (`evaluate_sub_node`); `subNode` evaluates other sub-nodes. -/
def source (site : RuleSite) (subNode : String → Plan Value) : ValueSource → Plan Value
  | .input socket => Plan.input site.graph site.node (.name socket)
  | .link socket => Plan.inputLink site.graph site.node (.name socket)
  | .default socket => Plan.inputDefault site.graph site.node (.name socket)
  | .node name => subNode name
  | .literal literal => return .ofLiteral literal

/-- The values of parameters, in order. -/
def params (site : RuleSite) (subNode : String → Plan Value) :
    List (String × ValueSource) → Plan (List (String × Value))
  | [] => return []
  | (name, source) :: rest => do
    let value ← site.source subNode source
    let values ← site.params subNode rest
    return (name, value) :: values

/-- A sub-node that was not evaluated before (`evaluate_sub_node`). -/
def fresh (site : RuleSite) (subNode : String → Plan Value) (name : String) : Plan Value := do
  match site.rules.get? name with
  | none => Plan.fail (.rules (.unknownSubNode site.kind.id site.output name))
  | some rule =>
    match rule.warn with
    | some message => Plan.say (.ruleWarning message (site.graph.label site.node))
    | none => pure ()
    let values ← site.params subNode rule.params
    let value ← rule.type.plan values
    Plan.remember site.node site.output name value (.done value)

/-- A sub-node (`evaluate_sub_node`). References of an accepted entry do not go round, so they are
followed at most as often as there are sub-nodes. -/
def subNode (site : RuleSite) : Nat → String → Plan Value
  | 0, name => Plan.fail (.rules (.cyclicSubNodes site.kind.id name))
  | fuel + 1, name =>
    .known site.node site.output name fun
      | some value => .done value
      | none => site.fresh (site.subNode fuel) name

/-- The output (`evaluate_rule`). One that the entry does not define is reported and comes to
nothing. -/
def plan (site : RuleSite) : Plan Value :=
  if site.rules.contains site.output then site.subNode (site.rules.size + 1) site.output
  else
    .report (.outputUndefined site.kind (site.graph.label site.node) site.output) (.done .unset)

end RuleSite

end MaterialLowering
