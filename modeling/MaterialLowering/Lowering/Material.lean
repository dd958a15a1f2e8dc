import MaterialLowering.Host.Document
import MaterialLowering.Lowering.Walk
import MaterialLowering.Options
import MaterialLowering.Rules.Builtin
import MaterialLowering.Rules.Json

/-!
# Lowering materials

A material is lowered into a recording and becomes one of its roots. A material that fails gets a
plain shader in place of its own, so that there always is a root.

Main definitions:

* `Setting.lower`: lowers the material of a host graph.
* `Document.lower`: lowers a document by a rule table.
* `Document.lowerWith`: lowers a document by the rules that the options name.
-/

namespace MaterialLowering

/-- The setting of a document, in which outputs may be nested as deep as they can be. -/
def Document.setting (d : Document) (table : RuleTable) : Setting :=
  { graph := d.graph, table, depth := d.walkDepth }

/-- A node that shows that a material failed, or gray where errors are not shown
(`fallback_shader`). -/
def fallbackShader (r : Recording) (showErrors : Bool) : NodeHandle × Recording :=
  if showErrors then r.create .emissive [("color", .constant errorColor)]
  else r.create .diffuse [("color", .constant fallbackColor)]

/-- What lowering a material comes to. -/
structure Lowered where
  root : NodeHandle
  recording : Recording
  log : List Notice

/-- Lowers the material of a setting and makes its root a root of the recording
(`translate_material_with_table`). -/
def Setting.lower (s : Setting) (showErrors : Bool) (r : Recording) : Lowered :=
  let material := s.graph.material
  let (result, state) := (Walk.root s).run (WalkState.start r)
  let beginning :=
    [Notice.started material, .walking] ++ state.log.toList ++ [.resolved state.cache.size]
  let (root, recording, recovery) :=
    match result with
    | .ok root => (root, state.recording, [])
    | .error failure =>
      let (root, recording) := fallbackShader state.recording showErrors
      (root, recording, [Notice.failed material failure, .fallingBack])
  { root
    recording := recording.register material root
    log := beginning ++ recovery ++ [.finished material root] }

namespace Document

/-- Lowers a document by a rule table. -/
def lower (d : Document) (table : RuleTable) (showErrors : Bool) (r : Recording) : Lowered :=
  (d.setting table).lower showErrors r

/-- Lowers a document by the built-in rules (`translate_material`). -/
def lowerBuiltin (d : Document) (r : Recording) : Lowered := d.lower .builtin false r

end Document

/-- The rule table of a file: its text, if the file can be read. -/
def RuleTable.load (path : String) (content : Option String) :
    List Notice × Except RuleError RuleTable :=
  match content with
  | none => ([], .error (.unreadable path))
  | some text => ([.rulesRead path], RuleTable.ofText text)

/-- Lowers a document as the options say (`translate_material_with_options`). `files` reads
files. -/
def Document.lowerWith (d : Document) (options : Options) (files : String → Option String)
    (r : Recording) : List Notice × Except Failure Lowered :=
  match options.rulesPath with
  | none => ([], .ok (d.lower .builtin options.showErrors r))
  | some path =>
    match RuleTable.load path (files path) with
    | (log, .error error) => (log, .error (.rules error))
    | (log, .ok table) =>
      (log ++ [.rulesLoaded table.size], .ok (d.lower table options.showErrors r))

/-- The options of a file: its text, if the file can be read. -/
def Options.load (path : String) (content : String) : List Notice × Except Refusal Options :=
  match Options.ofText content with
  | .ok options => ([.optionsRead path], .ok options)
  | .error refusal => ([], .error refusal)

end MaterialLowering
