import MaterialLowering.Host.Graph
import MaterialLowering.Lowering.Failure
import MaterialLowering.Native.Recording
import MaterialLowering.Text.Quoted

/-!
# Notices

What is reported while a material is lowered, each with a level and a text.
-/

namespace MaterialLowering

/-- How much a notice matters. -/
inductive Level where
  | error
  | warn
  | info
  | debug
  deriving DecidableEq, Repr

def Level.name : Level → String
  | .error => "error"
  | .warn => "warn"
  | .info => "info"
  | .debug => "debug"

/-- Something to report. Nodes are named by their labels. -/
inductive Notice where
  /-- A parameter was set on a node that is not there. -/
  | unknownNode (param : String) (node : NodeHandle)
  | rulesRead (path : String)
  | rulesLoaded (count : Nat)
  | optionsRead (path : String)
  | started (material : String)
  | walking
  | resolved (outputs : Nat)
  | failed (material : String) (failure : Failure)
  | fallingBack
  | finished (material : String) (root : NodeHandle)
  | visiting (kind : HostKind) (node output : String)
  | enteringGroup (node : String) (depth : Nat)
  | leavingGroup (node : String) (arguments : Nat)
  | rerouteOpen (node : String)
  /-- The entry of a kind has no sub-node for an output. -/
  | outputUndefined (kind : HostKind) (node output : String)
  /-- The warning of a rule. -/
  | ruleWarning (message node : String)
  | volumeIgnored (node : String)
  | blendIgnored (blend : String) (node : NodeId)
  | extensionUnknown (extension : String)
  | interpolationIgnored (interpolation : String)
  | projectionIgnored (projection : String)
  | imageMissing (node : String) (descriptor : ImageDescriptor)
  | bumpNormalIgnored (node : String)
  | mapSpaceIgnored (space : String)
  | mapUvIgnored (uvMap : String)
  | falloffReduced (node : String)
  deriving DecidableEq

/-- A descriptor as messages show it. -/
def ImageDescriptor.shown (descriptor : ImageDescriptor) : String :=
  "ImageDescriptor \x7b name: " ++ Text.quoted descriptor.name ++ ", wrap: " ++
    descriptor.wrap.shown ++ " \x7d"

namespace Notice

def level : Notice → Level
  | .failed .. => .error
  | .rulesRead _ | .rulesLoaded _ | .optionsRead _ | .started _ | .walking | .resolved _
  | .fallingBack | .finished .. => .info
  | .visiting .. | .enteringGroup .. | .leavingGroup .. | .falloffReduced _ => .debug
  | _ => .warn

/-- The text behind the name of the part that reports. -/
private def body : Notice → String
  | .unknownNode param node => "Parameter '" ++ param ++ "' set on unknown node " ++ node.shown
  | .rulesRead path => "Loading rule table from " ++ path
  | .rulesLoaded count => "Loaded " ++ toString count ++ " declarative node rules"
  | .optionsRead path => "Options loaded from " ++ path
  | .started material => "Starting material '" ++ material ++ "'"
  | .walking => "Phase 1: Translating node graph..."
  | .resolved outputs => "  - " ++ toString outputs ++ " node outputs resolved"
  | .failed material failure => "Material '" ++ material ++ "' failed: " ++ failure.message
  | .fallingBack => "Phase 2: Substituting fallback shader..."
  | .finished material root =>
    "Material '" ++ material ++ "' complete (root " ++ root.shown ++ ")"
  | .visiting kind node output => kind.id ++ " '" ++ node ++ "' output '" ++ output ++ "'"
  | .enteringGroup node depth =>
    "Entering group '" ++ node ++ "' (depth " ++ toString depth ++ ")"
  | .leavingGroup node arguments =>
    "Leaving group '" ++ node ++ "' (" ++ toString arguments ++ " arguments resolved)"
  | .rerouteOpen node => "Reroute '" ++ node ++ "' is not connected"
  | .outputUndefined kind node output =>
    kind.id ++ " '" ++ node ++ "' has no translation for output '" ++ output ++ "'"
  | .ruleWarning message node => message ++ " ('" ++ node ++ "')"
  | .volumeIgnored node =>
    "Volume shaders are not translated, '" ++ node ++ "' gets a transparent surface"
  | .blendIgnored blend node =>
    "Ignoring unsupported blend type '" ++ blend ++ "' on " ++ node.shown
  | .extensionUnknown extension => "Unknown texture extension '" ++ extension ++ "', repeating"
  | .interpolationIgnored interpolation =>
    "Ignoring unsupported texture interpolation '" ++ interpolation ++ "'"
  | .projectionIgnored projection =>
    "Ignoring unsupported texture projection '" ++ projection ++ "'"
  | .imageMissing node descriptor =>
    "image for node '" ++ node ++ "' failed to load: " ++ descriptor.shown ++ ", using error color"
  | .bumpNormalIgnored node => "Normal input of bump node '" ++ node ++ "' is ignored"
  | .mapSpaceIgnored space => "Ignoring unsupported normal map space '" ++ space ++ "'"
  | .mapUvIgnored uvMap => "Ignoring unsupported normal map UV map '" ++ uvMap ++ "'"
  | .falloffReduced node => "Light falloff '" ++ node ++ "' reduced to its strength"

/-- The name of the part that reports. -/
private def part : Notice → String
  | .unknownNode .. => "BACKEND"
  | .rulesRead _ => "RULES"
  | _ => "TRANSLATE"

/-- The text of a notice. -/
def text (notice : Notice) : String := "[" ++ notice.part ++ "] " ++ notice.body

end Notice

/-- Sets a parameter, and says so when the node is not there (`RecordingBackend.set`). -/
def Recording.set (r : Recording) (handle : NodeHandle) (name : String) (param : Param) :
    Recording × List Notice :=
  (r.assign handle name param,
    if handle.index < r.nodes.size then [] else [.unknownNode name handle])

end MaterialLowering
