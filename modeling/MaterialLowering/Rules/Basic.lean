import MaterialLowering.Host.Kind
import MaterialLowering.Literal
import MaterialLowering.Native.Kind
import MaterialLowering.SortedMap

/-!
# Declarative rules

A rule table says for kinds of host nodes which native nodes they become. The entry of a kind is a
set of named sub-nodes, each with a type and parameters. A parameter takes its value from an
input, from another sub-node of the entry, or is a literal. The sub-node with the name of an output
is what the output comes to.
-/

namespace MaterialLowering

/-- Where a parameter takes its value from. -/
inductive ValueSource where
  /-- The link of an input, or its default. -/
  | input (socket : String)
  /-- The link of an input alone. -/
  | link (socket : String)
  /-- The default of an input alone. -/
  | default (socket : String)
  /-- Another sub-node of the entry. -/
  | node (subNode : String)
  | literal (literal : Literal)
  deriving DecidableEq

namespace ValueSource

/-- How a source begins that is an input. -/
def inputStart : String := "input."

/-- How a source begins that is the link of an input. -/
def linkStart : String := "link:input."

/-- How a source begins that is the default of an input. -/
def defaultStart : String := "default:input."

/-- How a source begins that is another sub-node. -/
def nodeStart : String := "node."

/-- The source as text. -/
def shown : ValueSource → String
  | .input socket => inputStart ++ socket
  | .link socket => linkStart ++ socket
  | .default socket => defaultStart ++ socket
  | .node subNode => nodeStart ++ subNode
  | .literal value => value.shown

/-- The source of a text (`ValueSource.parse_expr`). -/
def ofText? (text : String) : Option ValueSource :=
  ((behind? inputStart text).map .input).or
    (((behind? linkStart text).map .link).or
      (((behind? defaultStart text).map .default).or ((behind? nodeStart text).map .node)))

/-- The sub-node that a source refers to. -/
def reference? : ValueSource → Option String
  | .node subNode => some subNode
  | _ => none

end ValueSource

/-- An operation that a sub-node stands for in place of a native node. -/
inductive FoldOp where
  | add
  | sub
  | mul
  | div
  | max
  | min
  | pow
  | blend
  deriving DecidableEq, Repr

namespace FoldOp

def all : List FoldOp := [.add, .sub, .mul, .div, .max, .min, .pow, .blend]

def symbol : FoldOp → String
  | .add => "+"
  | .sub => "-"
  | .mul => "*"
  | .div => "/"
  | .max => "max"
  | .min => "min"
  | .pow => "pow"
  | .blend => "blend"

end FoldOp

/-- What a sub-node becomes (`RuleNodeType`). -/
inductive RuleType where
  | native (kind : NativeKind)
  | fold (op : FoldOp)
  deriving DecidableEq, Repr

namespace RuleType

/-- The name of a type in rule files. -/
def name : RuleType → String
  | .native kind => kind.name
  | .fold op => op.symbol

/-- The type of a name. A name that operations and kinds share means the operation. -/
def ofName (name : String) : Except NativeKind.NameError RuleType :=
  match FoldOp.all.find? fun op => op.symbol = name with
  | some op => .ok (.fold op)
  | none => .native <$> NativeKind.ofName name

end RuleType

/-- A sub-node: its type, its parameters in the order of their evaluation, and a warning. -/
structure SubNodeRule where
  type : RuleType
  params : List (String × ValueSource)
  warn : Option String
  deriving DecidableEq

/-- The sub-nodes that a rule refers to, in order. -/
def SubNodeRule.references (rule : SubNodeRule) : List String :=
  rule.params.filterMap fun (_, source) => source.reference?

/-- The entry of a kind: its sub-nodes by name. -/
abbrev NodeRules := SortedMap String SubNodeRule

/-- The sub-nodes that a sub-node refers to. -/
def NodeRules.references (rules : NodeRules) (subNode : String) : List String :=
  ((rules.get? subNode).map SubNodeRule.references).getD []

/-- A rule table (`RuleSet`): entries by kind. -/
abbrev RuleTable := SortedMap HostKind NodeRules

end MaterialLowering
