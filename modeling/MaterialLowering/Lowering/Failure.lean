import MaterialLowering.Rules.Check

/-!
# Failures

Why an output comes to no value. A failure ends the material it occurs in; images that cannot be
loaded are no failure.
-/

namespace MaterialLowering

/-- Why an output comes to no value (`TranslationError`). -/
inductive Failure where
  | missingOutputNode (material : String)
  | missingRequiredLink (node socket : String)
  | unsupportedNodeKind (node kind : String)
  | unresolvableGroupBoundary (node reason : String)
  | cyclicGraph (node output : String)
  | invalidSocket (node socket : String)
  | invalidLink (node socket : String)
  | unsupportedOperation (node operation : String)
  | rules (error : RuleError)
  /-- The walk went deeper than it was allowed to. -/
  | tooDeep (node output : String)
  deriving DecidableEq

def Failure.message : Failure → String
  | .missingOutputNode material => "material '" ++ material ++ "' has no valid output node"
  | .missingRequiredLink node socket =>
    "input '" ++ socket ++ "' of node '" ++ node ++ "' must be connected"
  | .unsupportedNodeKind node kind => "node '" ++ node ++ "' has unsupported kind '" ++ kind ++ "'"
  | .unresolvableGroupBoundary node reason =>
    "group boundary at node '" ++ node ++ "' cannot be resolved: " ++ reason
  | .cyclicGraph node output =>
    "cycle detected at node '" ++ node ++ "', output '" ++ output ++ "'"
  | .invalidSocket node socket => "node '" ++ node ++ "' has no input socket '" ++ socket ++ "'"
  | .invalidLink node socket =>
    "invalid link into input '" ++ socket ++ "' of node '" ++ node ++ "'"
  | .unsupportedOperation node operation =>
    "node '" ++ node ++ "' uses unsupported operation '" ++ operation ++ "'"
  | .rules error => "rule error: " ++ error.message
  | .tooDeep node output =>
    "node '" ++ node ++ "', output '" ++ output ++ "' is nested too deeply"

end MaterialLowering
